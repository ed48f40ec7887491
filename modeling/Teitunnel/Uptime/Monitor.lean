import Teitunnel.Uptime.Tracker

/-!
# The monitors and their database

Several processes tick over one database.  A tick claims the lease, checks every target, records
what it found, and opens and closes incidents as its own tracker says.  The database is left
with what was recorded: rows of checks are never read again by a tick, so they are the log.
-/

namespace Teitunnel.Uptime

def INTERVAL_MS : Time := 60000
/-- How long closed incidents are kept. -/
def RETENTION_MS : Time := 30 * 86400 * 1000
def PRUNE_EVERY_MS : Time := 60 * 60000

inductive Event where
  /-- A check was recorded. -/
  | checked (route : String) (outcome : CheckOutcome) (time : Time)
  /-- A tick had these targets. -/
  | ticked (keys : List String) (time : Time)
deriving DecidableEq

/-- A process that ticks. -/
structure Monitor where
  owner : String
  tracker : Option Tracker := none
  lastTick : Option Time := none
  lastPrune : Time := 0

structure Database where
  incidents : List Incident := []
  /-- Who runs the checks, and until when. -/
  lease : Option (String × Time) := none
  log : List Event := []

namespace Database

def isOpen (key : String) (i : Incident) : Bool := i.route.key = key && i.endedAt.isNone

/-- Takes (or renews) the right to run checks, unless another process holds it. -/
def claim (db : Database) (owner : String) (now ttl : Time) : Database × Bool :=
  if db.lease.any fun (holder, until') => holder ≠ owner && now < until' then (db, false)
  else ({ db with lease := some (owner, now + ttl) }, true)

def release (db : Database) (owner : String) : Database :=
  if db.lease.any fun (holder, _) => holder = owner then { db with lease := none } else db

def record (db : Database) (key : String) (time : Time) (outcome : CheckOutcome) : Database :=
  { db with log := db.log ++ [.checked key outcome time] }

/-- Nothing is inserted where one is open. -/
def openIncident (db : Database) (target : Target) (startedAt : Time) (cause : Cause) :
    Database :=
  if db.incidents.any (isOpen target.key) then db
  else
    { db with incidents := db.incidents ++ [
        { accountId := target.accountId, route := target.route, startedAt, endedAt := none, cause }] }

def closeIncident (db : Database) (key : String) (time : Time) : Database :=
  { db with
    incidents := db.incidents.modifyFirst (isOpen key) fun i => { i with endedAt := some time } }

def openIncidents (db : Database) : List Incident :=
  db.incidents.filter fun i => i.endedAt.isNone

def prune (db : Database) (now : Time) : Database :=
  { db with
    incidents := db.incidents.filter fun i => i.endedAt.all fun ended => now - RETENTION_MS ≤ ended }

end Database

/-- Whether a tick came much later than scheduled. -/
def resumed (lastTick : Option Time) (now : Time) : Bool :=
  lastTick.any fun last => now - last > 3 * INTERVAL_MS

/-- What one result of a tick changes. -/
def check (resumed : Bool) (now : Time) (db : Database) (tracker : Tracker)
    (result : Target × CheckOutcome) : Database × Tracker :=
  let (target, outcome) := result
  -- Just after a wake the network may still be joining: give failures a minute.
  if resumed && !outcome.ok then (db, tracker)
  else
    let db := db.record target.key now outcome
    let (tracker, transition) := tracker.record target.key outcome now
    match transition with
    | some (.opened startedAt cause) => (db.openIncident target startedAt cause, tracker)
    | some .closed => (db.closeIncident target.key now, tracker)
    | none => (db, tracker)

/-- Routes that are gone end their outages. -/
def retain (now : Time) (keys : List String) (db : Database) (tracker : Tracker) :
    Database × Tracker :=
  let (tracker, gone) := tracker.retain keys
  (gone.foldl (fun db key => db.closeIncident key now)
    { db with log := db.log ++ [.ticked keys now] }, tracker)

structure Monitors where
  database : Database := {}
  monitors : List Monitor := []

namespace Monitors

inductive Step where
  | start (owner : String)
  /-- The `i`-th monitor ticks; whether it is online, and what its checks find. -/
  | tick (i : ℕ) (now : Time) (online : Bool) (results : List (Target × CheckOutcome))
  /-- The `i`-th monitor gives up the lease. -/
  | release (i : ℕ)

/-- The tracker that a tick works with. -/
def trackerOf (db : Database) (monitor : Monitor) : Tracker :=
  monitor.tracker.getD (Tracker.resume db.openIncidents)

/-- The checks of a tick that has the lease and is online. -/
def checks (db : Database) (monitor : Monitor) (now : Time)
    (results : List (Target × CheckOutcome)) : Database × Tracker :=
  let (db, tracker) := results.foldl
    (fun (db, tracker) result => check (resumed monitor.lastTick now) now db tracker result)
    (db, trackerOf db monitor)
  retain now (results.map fun result => result.1.key) db tracker

/-- A tick that has the lease. -/
def run (db : Database) (monitor : Monitor) (now : Time) (online : Bool)
    (results : List (Target × CheckOutcome)) : Database × Monitor :=
  if online then
    let (db, tracker) := checks db monitor now results
    let prunes : Bool := PRUNE_EVERY_MS ≤ now - monitor.lastPrune
    (if prunes then db.prune now else db,
      { monitor with
        tracker := some tracker
        lastTick := some now
        lastPrune := if prunes then now else monitor.lastPrune })
  else (db, { monitor with tracker := some (trackerOf db monitor), lastTick := some now })

def step (s : Monitors) : Step → Option Monitors
  | .start owner => some { s with monitors := s.monitors ++ [{ owner }] }
  | .tick i now online results =>
      (s.monitors[i]?).map fun monitor =>
        match s.database.claim monitor.owner now (3 * INTERVAL_MS) with
        | (db, true) =>
            let (db, monitor) := run db monitor now online results
            { database := db, monitors := s.monitors.set i monitor }
        | (_, false) => s
  | .release i =>
      (s.monitors[i]?).map fun monitor =>
        { s with database := s.database.release monitor.owner }

end Monitors

end Teitunnel.Uptime
