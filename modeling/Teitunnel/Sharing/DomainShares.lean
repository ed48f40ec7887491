import Teitunnel.Tunnels
import Teitunnel.Lib.Table

/-!
# Shares on the user's own domain

A temporary route that goes away when the share is stopped.  It is made and removed through the
engine like any route; a table remembers which routes are temporary.  A share is remembered
before its route is added, and forgotten again unless the change is applied.
-/

namespace Teitunnel.Sharing

open Text Except Ledger

/-- An account and a hostname, as it was given. -/
abbrev ShareKey := String × String

/-- A temporary route, as remembered. -/
structure ShareRecord where
  accountId : String
  hostname : String
  origin : String
  owner : String
  /-- When it ends by itself. -/
  expiresAt : Option ℕ
  createdAt : ℕ
  deriving DecidableEq

/-- What to share and for how long. -/
structure ShareRequest where
  hostname : String
  origin : String
  /-- The service the origin is read as. -/
  service : RouteOrigin
  options : Settings
  access : Option AccessRule
  expiresAt : Option ℕ
  owner : String

namespace ShareRequest

variable (request : ShareRequest)

def share (account : String) (now : ℕ) : ShareRecord where
  accountId := account
  hostname := toAsciiLowercase (trim request.hostname)
  origin := trim request.origin
  owner := request.owner
  expiresAt := request.expiresAt
  createdAt := now

/-- The route that is added. -/
def route [External] : Except EngineError RouteSpec :=
  RouteInput.toSpec {
    hostname := toAsciiLowercase (trim request.hostname)
    path := none
    origin := request.service
    options := request.options
    access := request.access }

end ShareRequest

def ShareRecord.key (share : ShareRecord) : ShareKey := (share.accountId, share.hostname)

/-- How far a start got. -/
inductive StartStage where
  | previewed (fingerprint : String)
  | recorded (fingerprint : String)
  /-- Its change wasn't applied: the share is to be forgotten. -/
  | failed
  deriving DecidableEq

/-- How far the stop of one share got. -/
inductive StopStage where
  | waiting
  | previewed (fingerprint : String)
  /-- The route is gone: the share is to be forgotten. -/
  | gone
  deriving DecidableEq

/-- A start, or the stops of a share and those after it. -/
inductive Task where
  | start (share : ShareRecord) (route : RouteSpec) (stage : StartStage)
  | stop (key : ShareKey) (stage : StopStage) (rest : List ShareKey)
  | done
  deriving DecidableEq

/-- Goes on with the next share. -/
def Task.next : List ShareKey → Task
  | [] => .done
  | key :: rest => .stop key .waiting rest

/-- Who changed the tunnel's rules. -/
inductive Maker where
  | start (hostname : String)
  | stop (hostname : String)
  | outside
  deriving DecidableEq

/-- The tunnel of each account, with a mark at a hostname whenever a share of it starts, and the
shares remembered. -/
structure DomainShares extends Tunnels String Maker where
  shares : Table ShareKey ShareRecord
  tasks : List Task

namespace DomainShares

variable (m : DomainShares)

def goto (i : ℕ) (task : Task) : DomainShares := { m with tasks := m.tasks.set i task }

/-- An account's tunnel has other rules now. -/
def change (account : String) (maker : Maker) (after : Option (List IngressRule)) :
    DomainShares :=
  { m with toTunnels := m.toTunnels.change account maker after }

/-- The shares remembered, in the order they started. -/
def remembered : List ShareRecord :=
  (m.shares.entries.map Prod.snd).insertionSort fun a b =>
    a.createdAt < b.createdAt ∨ a.createdAt = b.createdAt ∧ a.hostname ≤ b.hostname

/-! ## Starting a share -/

section start

variable [External]

/-- The route of a share and its previewed plan's fingerprint.  A plan that the user would have to
confirm is refused. -/
def accept (request : ShareRequest) (seen : Option Snapshot) :
    Except EngineError (RouteSpec × String) := do
  let route ← request.route
  let p ← Engine.preview (.addRoute route) seen
  refuseIf p.requiresConfirmation .needsConfirmation
  return (route, p.fingerprint)

def start (account : String) (now : ℕ) (request : ShareRequest) (seen : Option Snapshot) :
    DomainShares :=
  match accept request seen with
  | .error _ => m
  | .ok (route, fingerprint) =>
      { m with
        tasks := m.tasks ++ [.start (request.share account now) route (.previewed fingerprint)]
        log := m.log ++ [.marked account (some route.hostname.asStr, none)] }

/-- Remembers the share. -/
def record (i : ℕ) (share : ShareRecord) (route : RouteSpec) (fingerprint : String)
    (written : Bool) : DomainShares :=
  if written then
    { m with shares := m.shares.insert share.key share }.goto i
      (.start share route (.recorded fingerprint))
  else m.goto i .done

/-- Where a start goes on from its change. -/
def afterStart (share : ShareRecord) (route : RouteSpec) : Ending → Task
  | .applied | .cut _ => .done
  | .rolledBack | .partiallyApplied _ => .start share route .failed

/-- Adds the route. -/
def applyStart (i : ℕ) (share : ShareRecord) (route : RouteSpec) (fingerprint : String)
    (seen : Option Snapshot) (ending : Ending) : DomainShares :=
  match Engine.apply (.addRoute route) ⟨fingerprint, false⟩ ending seen with
  | .ok after =>
      (m.change share.accountId (.start share.hostname) after).goto i
        (afterStart share route ending)
  | .error _ => m.goto i (.start share route .failed)

end start

/-- Forgets a share, if the database can be written. -/
def forgetShare (key : ShareKey) (written : Bool) : DomainShares :=
  if written then { m with shares := m.shares.erase key } else m

/-! ## Stopping shares -/

/-- The route is gone already, which is what stopping wants. -/
def isGone : EngineError → Bool
  | .plan e => e.isGone
  | _ => false

section stop

variable [External]

/-- Where a stop goes on from an error. -/
def afterError (key : ShareKey) (rest : List ShareKey) (error : EngineError) : Task :=
  if isGone error then .stop key .gone rest else .next rest

/-- The change that stops a share. -/
def removal (hostname : String) : Except EngineError Intent := do
  let hostname ← parseHostname hostname
  return .removeRoute hostname none

/-- Previews the removal of a share's route. -/
def previewStop (i : ℕ) (key : ShareKey) (rest : List ShareKey) (seen : Option Snapshot) :
    DomainShares :=
  match (removal key.2).bind fun intent => Engine.preview intent seen with
  | .ok p => m.goto i (.stop key (.previewed p.fingerprint) rest)
  | .error e => m.goto i (afterError key rest e)

/-- Where a stop goes on from its change. -/
def afterStop (key : ShareKey) (rest : List ShareKey) : Ending → Task
  | .applied => .stop key .gone rest
  | .cut _ => .done
  | .rolledBack | .partiallyApplied _ => .next rest

/-- Removes a share's route. -/
def applyStop (i : ℕ) (key : ShareKey) (fingerprint : String) (rest : List ShareKey)
    (seen : Option Snapshot) (ending : Ending) : DomainShares :=
  match (removal key.2).bind fun intent =>
      Engine.apply intent ⟨fingerprint, false⟩ ending seen with
  | .ok after => (m.change key.1 (.stop key.2) after).goto i (afterStop key rest ending)
  | .error e => m.goto i (afterError key rest e)

end stop

/-! ## Runs -/

/-- What happens next. -/
inductive Step where
  | start (account : String) (now : ℕ) (request : ShareRequest) (seen : Option Snapshot)
  | record (i : ℕ) (written : Bool)
  | applyStart (i : ℕ) (seen : Option Snapshot) (ending : Ending)
  | forgetStart (i : ℕ) (written : Bool)
  | stop (account hostname : String)
  | sweep (isOver : ShareRecord → Bool)
  /-- A sweep has no access to the share's account. -/
  | skip (i : ℕ)
  | previewStop (i : ℕ) (seen : Option Snapshot)
  | applyStop (i : ℕ) (seen : Option Snapshot) (ending : Ending)
  | forgetStop (i : ℕ) (written : Bool)
  /-- The process of a start, a stop or a sweep crashes. -/
  | crash (i : ℕ)
  /-- A route is added, changed or removed outside of shares. -/
  | outside (account : String) (intent : Intent) (approval : Approval) (seen : Option Snapshot)
      (ending : Ending)

/-- One step, if it can happen. -/
def step [External] (m : DomainShares) : Step → Option DomainShares
  | .start account now request seen => some (m.start account now request seen)
  | .record i written =>
      match m.tasks[i]? with
      | some (.start share route (.previewed fingerprint)) =>
          some (m.record i share route fingerprint written)
      | _ => none
  | .applyStart i seen ending =>
      match m.tasks[i]? with
      | some (.start share route (.recorded fingerprint)) =>
          if m.Sees share.accountId seen then
            some (m.applyStart i share route fingerprint seen ending)
          else none
      | _ => none
  | .forgetStart i written =>
      match m.tasks[i]? with
      | some (.start share _ .failed) => some ((m.forgetShare share.key written).goto i .done)
      | _ => none
  | .stop account hostname =>
      some { m with tasks := m.tasks ++ [.stop (account, hostname) .waiting []] }
  | .sweep isOver =>
      some { m with
        tasks := m.tasks ++ [.next ((m.remembered.filter isOver).map ShareRecord.key)] }
  | .skip i =>
      match m.tasks[i]? with
      | some (.stop _ .waiting rest) => some (m.goto i (.next rest))
      | _ => none
  | .previewStop i seen =>
      match m.tasks[i]? with
      | some (.stop key .waiting rest) => some (m.previewStop i key rest seen)
      | _ => none
  | .applyStop i seen ending =>
      match m.tasks[i]? with
      | some (.stop key (.previewed fingerprint) rest) =>
          if m.Sees key.1 seen then some (m.applyStop i key fingerprint rest seen ending)
          else none
      | _ => none
  | .forgetStop i written =>
      match m.tasks[i]? with
      | some (.stop key .gone rest) => some ((m.forgetShare key written).goto i (.next rest))
      | _ => none
  | .crash i => some (m.goto i .done)
  | .outside account intent approval seen ending =>
      if intent.changesRoute ∧ m.Sees account seen then
        match Engine.apply intent approval ending seen with
        | .ok after => some (m.change account .outside after)
        | .error _ => some m
      else none

end DomainShares

end Teitunnel.Sharing
