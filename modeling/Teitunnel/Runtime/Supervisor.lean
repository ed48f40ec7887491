import Teitunnel.Runtime.Registry

/-!
# The supervisor and its connectors

The map of connectors, the task of each, and the registry, one step at a time: a start or a stop
from outside, a step of one task, an exit, a crash of the app, and its next launch, which reaps
before anything is started.
-/

namespace Teitunnel.Runtime

structure ConnectorSpec where
  id : ConnectorId
  /-- How long a nudge waits for a connection; `none` never restarts a running one. -/
  nudgeCheck : Option ℕ

inductive Outcome where
  | exited
  | stopRequested
  /-- Still without a connection after a nudge: start it again now. -/
  | restart
deriving DecidableEq

/-- Where a connector's task is. -/
inductive Stage where
  /-- At the top of the loop. -/
  | starting
  | spawning
  | spawned (pid : ℕ)
  | supervising (pid : ℕ)
  | stopping (pid : ℕ) (outcome : Outcome)
  | removing (outcome : Outcome)
  /-- Letting the readers drain. -/
  | draining (outcome : Outcome)
  /-- Waiting out a backoff or a crash loop. -/
  | waiting
  | finished
deriving DecidableEq

namespace Stage

/-- The child that hasn't been waited for. -/
def child : Stage → Option ℕ
  | spawned pid => some pid
  | supervising pid => some pid
  | stopping pid _ => some pid
  | _ => none

/-- A task asked to stop here does nothing more. -/
def idle : Stage → Bool
  | starting | draining _ | waiting => true
  | _ => false

end Stage

structure Task where
  spec : ConnectorSpec
  stop : Bool := false
  stage : Stage := .starting

namespace Task

def isFinished (task : Task) : Bool := task.stage = .finished

/-- It may still spawn a child, or has one, or has its record to remove. -/
def active (task : Task) : Bool := !task.isFinished && !(task.stop && task.stage.idle)

end Task

/-- A start that was accepted, a stop that took a connector out of the map, and its return. -/
inductive Event where
  | started (id : ConnectorId)
  | stopping (id : ConnectorId) (k : ℕ)
  | stopped (id : ConnectorId) (k : ℕ)

structure Supervisor where
  connectors : Table ConnectorId ℕ := Table.empty
  /-- Every task that was ever spawned. -/
  tasks : List Task := []
  /-- Calls of `stop` that wait for their task. -/
  calls : List (ConnectorId × ℕ) := []
  registry : PidRegistry := ⟨Table.empty⟩
  processes : Processes := Table.empty
  /-- Every pid and start time there was. -/
  born : List (ℕ × ℕ) := []
  /-- The app runs. -/
  up : Bool := true
  log : List Event := []

namespace Supervisor

/-- What a task does next, with what it finds outside. -/
inductive Move where
  | go
  | spawn (pid startTime : ℕ)
  | spawnFails
  | record (written : Bool)
  | seeExit
  | seeStop
  | restart

inductive Step where
  | start (spec : ConnectorSpec)
  | stop (id : ConnectorId)
  /-- The `i`-th call of `stop` returns. -/
  | stopReturns (i : ℕ)
  /-- The `k`-th task takes a step. -/
  | move (k : ℕ) (move : Move)
  | exit (pid : ℕ)
  /-- Another program's process starts. -/
  | other (pid startTime : ℕ)
  | crash
  /-- The app is launched again: it reaps, then there is a new supervisor. -/
  | reap

/-- A connector with this id is in use by a live task. -/
def alreadyRunning (s : Supervisor) (id : ConnectorId) : Bool :=
  match (s.connectors.find id).bind fun k => s.tasks[k]? with
  | some task => !task.isFinished
  | none => false

def start (s : Supervisor) (spec : ConnectorSpec) : Supervisor :=
  if s.alreadyRunning spec.id then s
  else
    { s with
      tasks := s.tasks ++ [{ spec }]
      connectors := s.connectors.insert spec.id s.tasks.length
      log := s.log ++ [.started spec.id] }

def stop (s : Supervisor) (id : ConnectorId) : Supervisor :=
  match s.connectors.find id with
  | none => s
  | some k =>
      { s with
        connectors := s.connectors.erase id
        tasks := s.tasks.modify k fun task => { task with stop := true }
        calls := s.calls ++ [(id, k)]
        log := s.log ++ [.stopping id k] }

def goto (s : Supervisor) (k : ℕ) (stage : Stage) : Supervisor :=
  { s with tasks := s.tasks.modify k fun task => { task with stage } }

/-- A new process under a pid that nobody has, with a start time that makes it new. -/
def begin' (s : Supervisor) (pid : ℕ) (process : Process) : Option Supervisor :=
  if s.processes.find pid = none ∧ (pid, process.startTime) ∉ s.born then
    some { s with
      processes := s.processes.insert pid process
      born := s.born ++ [(pid, process.startTime)] }
  else none

/-- The record step of the child `pid`. -/
def record (s : Supervisor) (id : ConnectorId) (pid : ℕ) (written : Bool) : Supervisor :=
  { s with
    registry := s.registry.record s.processes id pid written
    processes :=
      match s.processes.find pid with
      | none => s.processes
      | some process => s.processes.insert pid { process with recorded := true } }

/-- The child has ended and was waited for. -/
def wait (s : Supervisor) (pid : ℕ) : Supervisor :=
  { s with processes := s.processes.erase pid }

/-- One step of `run` and of `supervise`. -/
def move (s : Supervisor) (k : ℕ) (task : Task) : Move → Option Supervisor
  | .go =>
      match task.stage with
      | .starting => some (s.goto k (if task.stop then .finished else .spawning))
      | .stopping pid outcome => some ((s.wait pid).goto k (.removing outcome))
      | .removing outcome =>
          some (({ s with registry := s.registry.remove task.spec.id } : Supervisor).goto k
            (.draining outcome))
      | .draining .stopRequested => some (s.goto k .finished)
      | .draining .restart => some (s.goto k .starting)
      | .draining .exited => some (s.goto k .waiting)
      | .waiting => some (s.goto k .starting)
      | _ => none
  | .spawn pid startTime =>
      if task.stage = .spawning then
        (s.begin' pid { startTime, connector := some task.spec.id }).map fun s =>
          s.goto k (.spawned pid)
      else none
  | .spawnFails => if task.stage = .spawning then some (s.goto k .waiting) else none
  | .record written =>
      match task.stage with
      | .spawned pid => some ((s.record task.spec.id pid written).goto k (.supervising pid))
      | _ => none
  | .seeExit =>
      match task.stage with
      | .supervising pid =>
          if (s.processes.find pid).any Process.exited then
            some ((s.wait pid).goto k (.removing .exited))
          else none
      | _ => none
  | .seeStop =>
      if task.stop then
        match task.stage with
        | .supervising pid => some (s.goto k (.stopping pid .stopRequested))
        | .waiting => some (s.goto k .finished)
        | _ => none
      else none
  | .restart =>
      match task.stage with
      | .supervising pid =>
          if task.spec.nudgeCheck.isSome then some (s.goto k (.stopping pid .restart)) else none
      | _ => none

/-- A child whose task goes on stays until it is waited for. -/
def exit (s : Supervisor) (pid : ℕ) (process : Process) : Supervisor :=
  if s.tasks.any fun task => task.stage.child = some pid then
    { s with processes := s.processes.insert pid { process with exited := true } }
  else s.wait pid

/-- The tasks end where they are; their children go on. -/
def crash (s : Supervisor) : Supervisor :=
  { s with
    up := false
    connectors := Table.empty
    tasks := s.tasks.map fun task => { task with stage := .finished }
    calls := []
    processes := s.processes.retain fun _ process => !process.exited }

def reap (s : Supervisor) : Supervisor :=
  { s with
    up := true
    processes := (s.registry.reapOrphans s.processes).1
    registry := (s.registry.reapOrphans s.processes).2 }

def step (s : Supervisor) : Step → Option Supervisor
  | .start spec => if s.up then some (s.start spec) else none
  | .stop id => if s.up then some (s.stop id) else none
  | .stopReturns i =>
      match s.calls[i]? with
      | none => none
      | some (id, k) =>
          if (s.tasks[k]?).any Task.isFinished then
            some { s with
              calls := s.calls.eraseIdx i
              log := s.log ++ [.stopped id k] }
          else none
  | .move k move =>
      match s.tasks[k]? with
      | none => none
      | some task => s.move k task move
  | .exit pid => (s.processes.find pid).map fun process => s.exit pid process
  | .other pid startTime => s.begin' pid { startTime, connector := none }
  | .crash => if s.up then some s.crash else none
  | .reap => if s.up then none else some s.reap

end Supervisor

end Teitunnel.Runtime
