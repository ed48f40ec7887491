import Mathlib
import Teitunnel.Lib.Text

/-!
# The webhook inbox

Webhooks kept in a table while the computer was off, and the rounds that deliver them to the
local service.  Arrivals come between the database calls and deliveries of a round.
-/

namespace Teitunnel.Inbox

open Text

/-- Webhooks delivered per round. -/
def BATCH : ℕ := 20

/-- Milliseconds since the epoch. -/
abbrev Timestamp := ℕ

/-- Reading the columns of a webhook: its headers (JSON) and its body (base64). -/
structure Codec where
  headers : String → Option (List (String × String))
  body : String → Option (List UInt8)

/-- A row of the table `teitunnel_inbox`. -/
structure Row where
  inbox : String
  seq : ℕ
  id : String
  receivedAt : Timestamp
  method : String
  path : String
  headers : String
  body : Option String
  deliveredAt : Option Timestamp := none
  status : Option ℕ := none
  attempts : ℕ := 0
  error : Option String := none

/-- A webhook that waits, as it is read. -/
structure Pending where
  seq : ℕ
  id : String
  receivedAt : Timestamp
  method : String
  path : String
  headers : List (String × String)
  body : List UInt8

/-- A row, unless its headers or its body can't be read. -/
def pending (c : Codec) (row : Row) : Option Pending := do
  let headers ← c.headers row.headers
  let body ← row.body.elim (some []) c.body
  return { seq := row.seq, id := row.id, receivedAt := row.receivedAt, method := row.method,
           path := row.path, headers, body }

/-- What is sent to the local service. -/
structure Request where
  method : String
  url : String
  headers : List (String × String)
  body : List UInt8

/-- The request that delivers a webhook of `hostname` to `service`. -/
def deliver (service hostname : String) (webhook : Pending) : Request where
  method := webhook.method
  url := trimEnd (· == '/') service ++ webhook.path
  headers := (webhook.headers.filter fun header => toAsciiLowercase header.1 ≠ "host") ++
    [("host", hostname), ("x-teitunnel-inbox", webhook.id),
      ("x-teitunnel-received-at", toString webhook.receivedAt)]
  body := webhook.body

/-- The inbox a round is for. -/
structure Front where
  hostname : String
  path : String
  script : String
  retentionDays : ℕ

/-- What a round did. -/
structure DrainReport where
  hostname : String
  path : String
  delivered : ℕ := 0
  waiting : ℕ := 0
  error : Option String := none

/-- How far a round is. -/
inductive Stage where
  | reading
  | delivering (left : List Pending)
  /-- The service took the webhook. -/
  | marking (webhook : Pending) (status : ℕ) (left : List Pending)
  /-- The service didn't take it: the round stops. -/
  | noting (webhook : Pending) (error : String)
  | cleaning

structure Round where
  service : String
  stage : Stage
  /-- Webhooks read. -/
  total : ℕ := 0
  report : DrainReport
  /-- Nothing arrived since the round began. -/
  quiet : Bool := true

/-- What happened to the webhooks of the inbox. -/
inductive Event where
  | arrived (seq : ℕ)
  | sent (seq : ℕ) (request : Request) (answer : Except String ℕ)
  | marked (seq : ℕ)
  | deleted (seq : ℕ) (delivered : Bool)
  /-- A round returned; how many webhooks weren't marked delivered. -/
  | returned (report : DrainReport) (unmarked : ℕ) (quiet : Bool)

/-- The table, and the round under way. -/
structure Inboxes where
  now : Timestamp
  rows : List Row := []
  /-- The next `seq`. -/
  next : ℕ := 1
  round : Option Round := none
  log : List Event := []

/-- Whether a row waits in an inbox. -/
def Row.waits (script : String) (row : Row) : Bool :=
  row.inbox = script && row.deliveredAt.isNone

/-- The rows of an inbox that its Worker drops. -/
def Row.isOld (inbox : String) (cutoff : Timestamp) (row : Row) : Bool :=
  row.inbox = inbox && row.receivedAt < cutoff

/-- The rows of an inbox that a round drops. -/
def Row.isOver (script : String) (cutoff : Timestamp) (row : Row) : Bool :=
  row.inbox = script && row.deliveredAt.any fun delivered => delivered < cutoff

/-- What is left to do when no more is delivered. -/
def Round.done (round : Round) : Round :=
  { round with
    stage := .cleaning
    report := { round.report with waiting := round.total - round.report.delivered } }

/-- A day, in milliseconds. -/
def DAY_MS : ℕ := 86400000

namespace Inboxes

/-- The webhooks that wait, in order. -/
def waiting (s : Inboxes) (script : String) : List Row :=
  (s.rows.filter (Row.waits script)).insertionSort fun row other => row.seq ≤ other.seq

inductive Step where
  | pass (ms : ℕ)
  /-- The Worker of an inbox keeps a webhook; older ones than its retention go. -/
  | arrive (inbox : String) (retentionDays : ℕ) (id method path headers : String)
      (body : Option String)
  | start (service : String)
  /-- The next database call of the round succeeds, or the service answers. -/
  | proceed (answer : Except String ℕ)
  /-- The next database call of the round fails. -/
  | fail

def arrive (front : Front) (s : Inboxes) (inbox : String) (retentionDays : ℕ)
    (id method path headers : String) (body : Option String) : Inboxes :=
  let isOld := Row.isOld inbox (s.now - retentionDays * DAY_MS)
  let row : Row := { inbox, seq := s.next, id, receivedAt := s.now, method, path, headers, body }
  let dropped := s.rows.filter fun row => isOld row && inbox = front.script
  { s with
    rows := s.rows.filter (fun row => !isOld row) ++ [row]
    next := s.next + 1
    round := s.round.map fun round => { round with quiet := false }
    log := s.log ++ (dropped.map fun row => .deleted row.seq row.deliveredAt.isSome) ++
      if inbox = front.script then [.arrived s.next] else [] }

/-- The row of a webhook is changed. -/
def update (s : Inboxes) (seq : ℕ) (f : Row → Row) : Inboxes :=
  { s with rows := s.rows.map fun row => if row.seq = seq then f row else row }

def setRound (s : Inboxes) (round : Round) : Inboxes := { s with round := some round }

variable (c : Codec) (front : Front)

/-- The next database call or delivery of a round. -/
def proceed (s : Inboxes) (round : Round) (answer : Except String ℕ) : Stage → Inboxes
  | .reading =>
      let batch := ((s.waiting front.script).take BATCH).filterMap (pending c)
      s.setRound { round with stage := .delivering batch, total := batch.length }
  | .delivering [] => s.setRound round.done
  | .delivering (webhook :: left) =>
      let request := deliver round.service front.hostname webhook
      let s := { s with log := s.log ++ [Event.sent webhook.seq request answer] }
      match answer with
      | .ok status =>
          if status < 500 then s.setRound { round with stage := .marking webhook status left }
          else s.setRound { round with
            stage := .noting webhook (round.service ++ " answered " ++ toString status) }
      | .error error => s.setRound { round with stage := .noting webhook error }
  | .marking webhook status left =>
      let s := s.update webhook.seq fun row => { row with
        deliveredAt := some s.now, status := some status, attempts := row.attempts + 1,
        error := none }
      let report := { round.report with delivered := round.report.delivered + 1 }
      { s with log := s.log ++ [Event.marked webhook.seq] }.setRound
        { round with stage := .delivering left, report }
  | .noting webhook error =>
      let s := s.update webhook.seq fun row => { row with
        attempts := row.attempts + 1, error := some (String.ofList (error.toList.take 300)) }
      s.setRound { round with report := { round.report with error := some error } }.done
  | .cleaning =>
      let cutoff := s.now - front.retentionDays * DAY_MS
      let isOver := Row.isOver front.script cutoff
      let unmarked := (s.rows.filter (Row.waits front.script)).length
      { s with
        rows := s.rows.filter fun row => !isOver row
        round := none
        log := s.log ++ ((s.rows.filter isOver).map fun row =>
          .deleted row.seq row.deliveredAt.isSome) ++
            [.returned round.report unmarked round.quiet] }

/-- A round is given up when a database call fails. -/
def step (s : Inboxes) : Step → Option Inboxes
  | .pass ms => some { s with now := s.now + ms }
  | .arrive inbox retentionDays id method path headers body =>
      some (s.arrive front inbox retentionDays id method path headers body)
  | .start service =>
      if s.round.isSome then none
      else some (s.setRound { service, stage := .reading,
                              report := { hostname := front.hostname, path := front.path } })
  | .proceed answer => s.round.map fun round => s.proceed c front round answer round.stage
  | .fail =>
      match s.round with
      | some { stage := .delivering _, .. } | none => none
      | _ => some { s with round := none }

end Inboxes

end Teitunnel.Inbox
