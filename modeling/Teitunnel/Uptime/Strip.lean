import Teitunnel.Lib.Tally
import Teitunnel.Uptime.Monitor

/-!
# The status strip

Every check is stored twice: as a row, kept for two days, and in the sum of its hour, kept for
thirty.  A route's strip joins the two: rows as far as they go, sums for the hours before.
-/

namespace Teitunnel.Uptime

def HOUR_MS : Time := 3600000
/-- How long raw checks are kept. -/
def RAW_RETENTION_MS : Time := 2 * 86400 * 1000
/-- Bars in a status strip. -/
def BARS : ℕ := 90

/-- What a page of numbers covers. -/
inductive AnalyticsRange where
  | hour
  | day
  | week
  | month
deriving DecidableEq

def AnalyticsRange.seconds : AnalyticsRange → ℕ
  | .hour => 3600
  | .day => 86400
  | .week => 7 * 86400
  | .month => 30 * 86400

/-- One bar, from `start` until `stop`. -/
structure UptimeBar where
  start : Time
  stop : Time
  /-- Checks made (0: no data). -/
  checks : ℕ
  /-- Checks that passed. -/
  up : ℕ
deriving DecidableEq

/-- Counts a check. -/
def UptimeBar.addCheck (check : Time × Bool) (bar : UptimeBar) : UptimeBar :=
  { bar with checks := bar.checks + 1, up := bar.up + check.2.toNat }

/-- Counts an hour's sum. -/
def UptimeBar.addHour (hour : Time × ℕ × ℕ) (bar : UptimeBar) : UptimeBar :=
  { bar with checks := bar.checks + hour.2.1, up := bar.up + hour.2.2 }

/-- The bar a time falls in. -/
def slot (from' to' width : Time) (count : ℕ) (time : Time) : Option ℕ :=
  if from' ≤ time ∧ time < to' then
    some (min ((time - from').tdiv width).toNat (count - 1))
  else none

/-- Splits `[from', to')` into bars and counts checks into them.  `hourly` are sums by the start of
their hour, for times before `rawFrom`. -/
def bars (checks : List (Time × Bool)) (hourly : List (Time × ℕ × ℕ)) (rawFrom from' to' : Time)
    (count : ℕ) : List UptimeBar :=
  let count := max count 1
  let width := max ((to' - from').tdiv count) 1
  let out := (List.range count).map fun i : ℕ =>
    (⟨from' + width * i, from' + width * i + width, 0, 0⟩ : UptimeBar)
  let out := Tally.tally (fun check => slot from' to' width count check.1) UptimeBar.addCheck
    checks out
  Tally.tally (fun hour => slot from' to' width count hour.1) UptimeBar.addHour
    (hourly.filter fun hour => hour.1 < rawFrom) out

/-! ## The store -/

structure CheckRow where
  route : String
  time : Time
  outcome : CheckOutcome
deriving DecidableEq

structure HourRow where
  route : String
  /-- When the hour began. -/
  hour : Time
  checks : ℕ
  up : ℕ
deriving DecidableEq

/-- One check more. -/
def HourRow.add (outcome : CheckOutcome) (row : HourRow) : HourRow :=
  { row with checks := row.checks + 1, up := row.up + outcome.ok.toNat }

/-- The tables of checks and of sums. -/
structure UptimeStore where
  checks : List CheckRow := []
  hourly : List HourRow := []

/-- The start of the hour. -/
def hourOf (time : Time) : Time := time / HOUR_MS * HOUR_MS

namespace UptimeStore

/-- Stores a check and adds it to its hour.  A row at the same time is replaced. -/
def record (store : UptimeStore) (route : String) (time : Time) (outcome : CheckOutcome) :
    UptimeStore where
  checks := (store.checks.filter fun row => ¬ (row.route = route ∧ row.time = time)) ++
    [⟨route, time, outcome⟩]
  hourly :=
    if ∃ row ∈ store.hourly, row.route = route ∧ row.hour = hourOf time then
      store.hourly.map fun row =>
        if row.route = route ∧ row.hour = hourOf time then row.add outcome else row
    else store.hourly ++ [⟨route, hourOf time, 1, outcome.ok.toNat⟩]

/-- Deletes raw checks older than two days, and sums older than thirty. -/
def prune (store : UptimeStore) (now : Time) : UptimeStore where
  checks := store.checks.filter fun row => ¬ row.time < now - RAW_RETENTION_MS
  hourly := store.hourly.filter fun row => ¬ row.hour < now - RETENTION_MS

/-- The bars of one route over a range. -/
def detail (store : UptimeStore) (key : String) (range : AnalyticsRange) (now : Time) :
    List UptimeBar :=
  let from' := now - range.seconds * 1000
  let rawFrom := now - RAW_RETENTION_MS
  let raw := (store.checks.filter fun row => row.route = key ∧ from' ≤ row.time).insertionSort
    fun a b => a.time ≤ b.time
  let hourly := (store.hourly.filter fun row =>
    row.route = key ∧ hourOf from' ≤ row.hour).insertionSort fun a b => a.hour ≤ b.hour
  bars (raw.map fun row => (row.time, row.outcome.ok))
    (hourly.map fun row => (row.hour, row.checks, row.up)) rawFrom from' now BARS

end UptimeStore

/-- What happens to the tables. -/
inductive Change where
  | record (route : String) (time : Time) (outcome : CheckOutcome)
  | prune (now : Time)
deriving DecidableEq

def UptimeStore.apply (store : UptimeStore) : Change → UptimeStore
  | .record route time outcome => store.record route time outcome
  | .prune now => store.prune now

/-- The tables after a history, from empty ones. -/
def UptimeStore.after (history : List Change) : UptimeStore := history.foldl apply {}

end Teitunnel.Uptime
