import Teitunnel.Lib.Text

/-!
# Schedules

When a route is on: days, hours and a time zone, and the scheduler that tells what changed since
it last looked.
-/

namespace Teitunnel.Sharing

open Text

/-- Milliseconds since the epoch. -/
abbrev Timestamp := ℤ

/-- Days since the epoch. -/
abbrev Date := ℤ

inductive Weekday where
  | mon
  | tue
  | wed
  | thu
  | fri
  | sat
  | sun
  deriving DecidableEq, Repr

namespace Weekday

def ALL : List Weekday :=
  [.mon, .tue, .wed, .thu, .fri, .sat, .sun]

/-- The epoch is a Thursday. -/
def of (date : Date) : Weekday :=
  ALL.getD ((date + 3) % 7).toNat .mon

def index (day : Weekday) : ℕ :=
  ALL.idxOf day

def name : Weekday → String
  | .mon => "mon"
  | .tue => "tue"
  | .wed => "wed"
  | .thu => "thu"
  | .fri => "fri"
  | .sat => "sat"
  | .sun => "sun"

end Weekday

/-- Why a schedule isn't valid. -/
inductive ScheduleError where
  | days (days : String)
  | time (time : String)
  | timeZone (zone : String)
  | spec (spec : String)
  deriving DecidableEq, Repr

/-- A window of days and hours. -/
structure Schedule where
  days : List Weekday
  /-- Start, `HH:MM`. -/
  start : String
  /-- End, `HH:MM`; not after the start: the next day. -/
  stop : String
  timeZone : Option String
  deriving DecidableEq

/-- The time zones of the machine. -/
class Calendar where
  Zone : Type
  /-- A zone by its name. -/
  get : String → Option Zone
  /-- The machine's own. -/
  system : Zone
  /-- The date in a zone. -/
  date : Zone → Timestamp → Date
  /-- When it is so many minutes into a date; not every date has every time. -/
  instant : Zone → Date → ℕ → Option Timestamp

/-- The number that digits write. -/
def decimal (digits : String) : ℕ :=
  digits.toList.foldl (fun n c => 10 * n + (c.toNat - '0'.toNat)) 0

/-- Minutes into the day. -/
def parseTime (text : String) : Except ScheduleError ℕ := do
  let invalid := ScheduleError.time text
  let (hours, minutes) ← ((splitOnce ':' (trim text)).elim (.error invalid) .ok)
  let digits (s : String) (lengths : List ℕ) : Bool :=
    lengths.contains s.length && s.toList.all Char.isDigit
  if !digits hours [1, 2] || !digits minutes [2] then throw invalid
  if 23 < decimal hours ∨ 59 < decimal minutes then throw invalid
  return 60 * decimal hours + decimal minutes

namespace Schedule

variable [Calendar]

def zone (schedule : Schedule) : Except ScheduleError Calendar.Zone :=
  match schedule.timeZone with
  | some zone => (Calendar.get zone).elim (.error (.timeZone zone)) .ok
  | none => .ok Calendar.system

/-- Every window that starts from two days before `now` to eight days after. -/
def windows (schedule : Schedule) (now : Timestamp) :
    Except ScheduleError (List (Timestamp × Timestamp)) := do
  let zone ← schedule.zone
  let start ← parseTime schedule.start
  let stop ← parseTime schedule.stop
  let today := Calendar.date zone now
  let window (offset : ℕ) : Option (Timestamp × Timestamp) := do
    let date := today - 2 + offset
    let endDate := if stop ≤ start then date + 1 else date
    guard (schedule.days.contains (.of date))
    let first ← Calendar.instant zone date start
    let last ← Calendar.instant zone endDate stop
    guard (first < last)
    return (first, last)
  return (List.range 11).filterMap window

/-- Whether the route is on at `now`. -/
def isOn (schedule : Schedule) (now : Timestamp) : Except ScheduleError Bool := do
  let windows ← schedule.windows now
  return windows.any fun (start, stop) => start ≤ now && now < stop

end Schedule

/-- An account and a hostname. -/
abbrev Key := String × String

/-- Where a schedule applies. -/
structure RouteSchedule where
  accountId : String
  hostname : String
  schedule : Schedule
  deriving DecidableEq

def RouteSchedule.key (entry : RouteSchedule) : Key :=
  (entry.accountId, entry.hostname)

/-! ## The scheduler -/

/-- What a tick decided for one route. -/
structure Turn where
  accountId : String
  hostname : String
  /-- Its window began; else it ended. -/
  on : Bool
  deriving DecidableEq, Repr

def Turn.key (turn : Turn) : Key :=
  (turn.accountId, turn.hostname)

/-- What each schedule said last. -/
abbrev Last := List (Key × Bool)

namespace Last

def find (last : Last) (key : Key) : Option Bool :=
  (last.find? fun entry => entry.1 = key).map Prod.snd

def insert (last : Last) (key : Key) (on : Bool) : Last :=
  (key, on) :: last.filter fun entry => entry.1 ≠ key

end Last

/-- A tick on its way through the schedules. -/
structure Looking where
  last : Last
  turns : List Turn := []
  seen : List Key := []

variable [Calendar]

/-- Looks at one schedule: a turn where it says something new. -/
def Looking.look (now : Timestamp) (looking : Looking) (entry : RouteSchedule) : Looking :=
  match entry.schedule.isOn now with
  | .error _ => looking
  | .ok on =>
      let turn := ⟨entry.accountId, entry.hostname, on⟩
      { last := looking.last.insert entry.key on
        turns := if looking.last.find entry.key = some on then looking.turns
          else looking.turns ++ [turn]
        seen := looking.seen ++ [entry.key] }

/-- The turns due at `now`.  Schedules that went away are forgotten, and reported on once. -/
def tick (last : Last) (schedules : List RouteSchedule) (now : Timestamp) : Last × List Turn :=
  let looking := schedules.foldl (Looking.look now) { last }
  let gone := looking.last.filter fun entry => !looking.seen.contains entry.1
  (looking.last.filter fun entry => looking.seen.contains entry.1,
    looking.turns ++ (gone.filter fun entry => !entry.2).map fun entry =>
      ⟨entry.1.1, entry.1.2, true⟩)

end Teitunnel.Sharing
