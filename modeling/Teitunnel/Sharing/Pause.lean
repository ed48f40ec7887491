import Teitunnel.Sharing.Schedule

/-!
# Pauses

A paused route is a row naming the process that serves its paused page.  One process at a time
holds the lease to serve the machine's routes and to run their schedules; every process ticks.
-/

namespace Teitunnel.Sharing

open Text

/-- The desktop app, as an owner. -/
def APP_OWNER : String := "app"

/-- How long a claim lasts. -/
def HOST_LEASE_MS : Timestamp := 90000

/-- What is remembered of a paused route, under its account and hostname. -/
structure PausedRoute where
  owner : String
  viaInspect : Bool
  bySchedule : Bool
  pausedAt : Timestamp
  deriving DecidableEq

/-- Why a route can't be paused. -/
inductive PauseError where
  | ownerGone (hostname : String)
  | notInspected (hostname : String)
  | noHost (hostname : String)
  deriving DecidableEq, Repr

/-- A share on a domain of yours. -/
structure DomainShare where
  accountId : String
  hostname : String
  owner : String
  deriving DecidableEq

/-- What a loop that ticks is part of. -/
inductive LoopKind where
  | app
  /-- `up` and `serve`: for the machine's routes while the app doesn't. -/
  | routeHost
  /-- For a terminal's own shares. -/
  | shareLoop
  deriving DecidableEq, Repr

/-- A loop of a process, with its own scheduler. -/
structure Loop where
  kind : LoopKind
  owner : String
  /-- Whether its last claim got the lease. -/
  claimed : Bool := false
  last : Last := []

/-- Whether a loop runs the schedules of the machine's routes. -/
def Loop.host (l : Loop) : Bool :=
  match l.kind with
  | .app => true
  | .routeHost => l.claimed
  | .shareLoop => false

/-- One machine: the database, the processes and the clock. -/
structure Machine where
  now : Timestamp
  /-- The holder of the lease and until when. -/
  lease : Option (String × Timestamp)
  /-- The processes that run, other than the app. -/
  running : List String
  shares : List DomainShare
  /-- Who runs a tap for which route. -/
  taps : List (String × Key)
  schedules : List RouteSchedule
  paused : Key → Option PausedRoute
  loops : List Loop

def normal (hostname : String) : String :=
  toAsciiLowercase (trimEnd (· == '.') (trim hostname))

/-- The row of a route. -/
def rowKey (account hostname : String) : Key :=
  (account, normal hostname)

namespace Machine

/-- Whether a holder is the app or a process that runs. -/
def isAlive (m : Machine) (holder : String) : Bool :=
  holder == APP_OWNER || m.running.contains holder

/-- Takes or renews the lease, unless another live process holds it. -/
def claimHost (m : Machine) (owner : String) (force : Bool) : Machine × Bool :=
  let heldByOther := m.lease.any fun (holder, end') =>
    holder != owner && m.now < end' && m.isAlive holder
  if heldByOther && !force then (m, false)
  else ({ m with lease := some (owner, m.now + HOST_LEASE_MS) }, true)

/-- The process holding the lease, if it's alive. -/
def host (m : Machine) : Option String := do
  let (holder, end') ← m.lease
  guard (m.now < end' ∧ m.isAlive holder)
  return holder

/-- Gives the lease up. -/
def releaseHost (m : Machine) (owner : String) : Machine :=
  if m.host = some owner then { m with lease := none } else m

def find (m : Machine) (account hostname : String) : Option PausedRoute :=
  m.paused (rowKey account hostname)

def save (m : Machine) (account hostname : String) (route : PausedRoute) : Machine :=
  { m with paused := Function.update m.paused (account, hostname) (some route) }

def forget (m : Machine) (account hostname : String) : Machine :=
  { m with paused := Function.update m.paused (rowKey account hostname) none }

/-- The process that will serve the paused page. -/
def ownerFor (m : Machine) (account hostname : String) : Except PauseError String :=
  match m.shares.find? fun s => s.accountId = account ∧ s.hostname = hostname with
  | some share =>
      if share.owner = APP_OWNER then .ok share.owner
      else if !m.running.contains share.owner then .error (.ownerGone hostname)
      else if (share.owner, (account, hostname)) ∈ m.taps then .ok share.owner
      else .error (.notInspected hostname)
  | none => m.host.elim (.error (.noHost hostname)) .ok

/-- Asks for a route to be paused. -/
def request (m : Machine) (account hostname : String) (bySchedule : Bool) :
    Except PauseError Machine :=
  let hostname := normal hostname
  match m.paused (account, hostname) with
  | some existing =>
      if existing.bySchedule ∧ bySchedule = false then
        .ok (m.save account hostname { existing with bySchedule := false })
      else .ok m
  | none => do
      let owner ← m.ownerFor account hostname
      .ok (m.save account hostname ⟨owner, false, bySchedule, m.now⟩)

/-- Asks for a route to be served again. -/
def requestResume (m : Machine) (account hostname : String) : Machine :=
  m.forget account hostname

/-- Carries a turn out, or says why not. -/
def carryOut (m : Machine) (turn : Turn) : Machine × Option PauseError :=
  if turn.on then
    match m.find turn.accountId turn.hostname with
    | some paused =>
        if paused.bySchedule then (m.requestResume turn.accountId turn.hostname, none)
        else (m, none)
    | none => (m, none)
  else
    match m.request turn.accountId turn.hostname true with
    | .ok m' => (m', none)
    | .error e => (m, some e)

/-- The schedules a loop serves: of its owner's shares and, as host, of the routes. -/
def mine (m : Machine) (l : Loop) : List RouteSchedule :=
  m.schedules.filter fun entry =>
    match m.shares.find? fun s => s.accountId = entry.accountId ∧ s.hostname = entry.hostname with
    | some share => share.owner == l.owner
    | none => l.host

/-- Carries turns out one after the other; what became of each. -/
def carryOutAll (m : Machine) : List Turn → Machine × List (Turn × Option PauseError)
  | [] => (m, [])
  | turn :: rest =>
      let (m', outcome) := m.carryOut turn
      let (m'', outcomes) := m'.carryOutAll rest
      (m'', (turn, outcome) :: outcomes)

variable [Calendar]

/-- One tick of a loop: what it remembers, the machine, and what became of the turns. -/
def runTick (m : Machine) (l : Loop) : Last × Machine × List (Turn × Option PauseError) :=
  let (last, turns) := tick l.last (m.mine l) m.now
  (last, m.carryOutAll turns)

/-- What can happen on the machine. -/
inductive Action where
  /-- Time goes by. -/
  | pass (ms : ℕ)
  /-- A process starts a loop. -/
  | start (kind : LoopKind) (owner : String)
  /-- A process ends, and its loops with it. -/
  | exit (owner : String)
  /-- A loop claims the lease: the app takes it, the others when it is free. -/
  | claim (i : ℕ)
  | release (i : ℕ)
  | tick (i : ℕ)
  /-- A person pauses a route. -/
  | pauseByHand (account hostname : String)
  | resumeByHand (account hostname : String)
  | setSchedule (account hostname : String) (schedule : Option Schedule)
  | setShares (shares : List DomainShare)
  | setTaps (taps : List (String × Key))

/-- Sets or removes a route's schedule. -/
def setSchedule (m : Machine) (account hostname : String) (schedule : Option Schedule) : Machine :=
  let hostname := toAsciiLowercase (trim hostname)
  let others := m.schedules.filter fun entry => entry.key ≠ (account, hostname)
  { m with schedules := others ++ schedule.toList.map (⟨account, hostname, ·⟩) }

def step (m : Machine) : Action → Option Machine
  | .pass ms => some { m with now := m.now + ms }
  | .start kind owner =>
      some { m with
        running := if m.running.contains owner then m.running else m.running ++ [owner]
        loops := m.loops ++ [{ kind, owner }] }
  | .exit owner =>
      some { m with
        running := m.running.filter (· ≠ owner)
        loops := m.loops.filter fun l => l.owner ≠ owner }
  | .claim i => do
      let l ← m.loops[i]?
      guard (l.kind ≠ .shareLoop)
      let (m', claimed) := m.claimHost l.owner (l.kind = .app)
      return { m' with loops := m.loops.set i { l with claimed } }
  | .release i => do
      let l ← m.loops[i]?
      return m.releaseHost l.owner
  | .tick i => do
      let l ← m.loops[i]?
      let (last, m', _) := m.runTick l
      return { m' with loops := m.loops.set i { l with last } }
  | .pauseByHand account hostname => (m.request account hostname false).toOption
  | .resumeByHand account hostname => some (m.requestResume account hostname)
  | .setSchedule account hostname schedule => some (m.setSchedule account hostname schedule)
  | .setShares shares => some { m with shares }
  | .setTaps taps => some { m with taps }

end Machine

end Teitunnel.Sharing
