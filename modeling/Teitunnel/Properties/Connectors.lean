import Teitunnel.Lib.Lists
import Teitunnel.Lib.Runs
import Teitunnel.Runtime.Supervisor

/-!
# One child a connector, and each on record

A start that overlaps with a task of the same file name doubles the child and loses its record.
In a run without such a start, whose children are on record when the app crashes, there is one
child a connector, each has its file, and the next launch ends all of them and nothing else.
-/

namespace Teitunnel.Runtime

open Runs

/-- Why the task is ending its child, or has ended it. -/
def Stage.outcome : Stage → Option Outcome
  | .stopping _ outcome => some outcome
  | .removing outcome => some outcome
  | .draining outcome => some outcome
  | _ => none

namespace Supervisor

/-- The child of a connector, running. -/
def Live (s : Supervisor) (pid : ℕ) (id : ConnectorId) (process : Process) : Prop :=
  s.processes.find pid = some process ∧ process.connector = some id ∧ process.exited = false

/-- No two live children of one connector. -/
def OneEach (s : Supervisor) : Prop :=
  ∀ pid pid' id process process', s.Live pid id process → s.Live pid' id process' → pid = pid'

/-- A live child that has been recorded has a file that names it. -/
def OnRecord (s : Supervisor) : Prop :=
  ∀ pid id process, s.Live pid id process → process.recorded = true →
    s.registry.files.find (PidRegistry.path id) =
      some { marker := MARKER, pid, startTime := process.startTime, connector := id }

/-- After a stop that has returned no child is live unless a later start asked for it. -/
def Stopped (s : Supervisor) : Prop :=
  ∀ pre post id k, s.log = pre ++ .stopping id k :: post → .stopped id k ∈ post →
    .started id ∉ post → ∀ pid process, ¬ s.Live pid id process

/-- What a launch after a crash leaves are the processes of other programs, all of them. -/
def ReapsOrphans (s : Supervisor) : Prop :=
  ∀ t, s.step .reap = some t → ∀ pid process, t.processes.find pid = some process ↔
    s.processes.find pid = some process ∧ process.connector = none

/-- A start that is accepted finds no task that has to do with a file of its name, a live child
can be recorded, and the app doesn't crash between a spawn and its record. -/
def Careful (s : Supervisor) : Step → Prop
  | .start spec => s.alreadyRunning spec.id = false →
      ∀ task ∈ s.tasks, task.active = true →
        PidRegistry.path task.spec.id ≠ PidRegistry.path spec.id
  | .move k (.record written) => ∀ task pid process, s.tasks[k]? = some task →
      task.stage = .spawned pid → s.processes.find pid = some process →
        process.exited = false → written = true
  | .crash => ∀ pid id process, s.Live pid id process → process.recorded = true
  | _ => True

/-! ## What is kept -/

/-- The tasks and the children. -/
structure Tasks (s : Supervisor) : Prop where
  mapped : ∀ id k, s.connectors.find id = some k →
    ∃ task : Task, s.tasks[k]? = some task ∧ task.spec.id = id ∧ task.stop = false ∧
      task.stage ≠ .finished
  apart : ∀ (k k' : ℕ) (task task' : Task), s.tasks[k]? = some task → s.tasks[k']? = some task' →
    task.active = true → task'.active = true →
      PidRegistry.path task.spec.id = PidRegistry.path task'.spec.id → k = k'
  child : ∀ (k : ℕ) (task : Task) pid, s.tasks[k]? = some task → task.stage.child = some pid →
    ∃ process : Process, s.processes.find pid = some process ∧
      process.connector = some task.spec.id
  owned : s.up = true → ∀ pid (process : Process) id, s.processes.find pid = some process →
    process.connector = some id →
      ∃ (k : ℕ) (task : Task), s.tasks[k]? = some task ∧ task.spec.id = id ∧ task.stage.child = some pid
  requested : ∀ (k : ℕ) (task : Task), s.tasks[k]? = some task →
    task.stage.outcome = some .stopRequested → task.stop = true
  down : s.up = false → ∀ task ∈ s.tasks, task.stage = .finished

/-- The children and the files. -/
structure Files (s : Supervisor) : Prop where
  alone : ∀ pid pid' (process process' : Process) id id', s.processes.find pid = some process →
    s.processes.find pid' = some process' → process.connector = some id →
      process'.connector = some id' → PidRegistry.path id = PidRegistry.path id' → pid = pid'
  onRecord : s.OnRecord
  left : s.up = false → ∀ pid (process : Process) id, s.processes.find pid = some process →
    process.connector = some id → process.recorded = true ∧ process.exited = false
  born : ∀ pid (process : Process), s.processes.find pid = some process → (pid, process.startTime) ∈ s.born
  filed : ∀ name (record : PidRecord), s.registry.files.find name = some record →
    (record.pid, record.startTime) ∈ s.born
  children : ∀ name (record : PidRecord) (process : Process), s.registry.files.find name = some record →
    s.processes.find record.pid = some process → process.startTime = record.startTime →
      process.connector.isSome = true

/-- The stops so far. -/
structure Stops (s : Supervisor) : Prop where
  idle : s.up = false → s.calls = []
  asked : ∀ id k, (id, k) ∈ s.calls → .stopping id k ∈ s.log
  last : ∀ pre post id k, s.log = pre ++ .stopping id k :: post → .started id ∉ post →
    ∀ (k' : ℕ) (task : Task), s.tasks[k']? = some task → task.spec.id = id → task.active = true → k' = k
  finished : ∀ id k, .stopped id k ∈ s.log →
    ∃ task : Task, s.tasks[k]? = some task ∧ task.stage = .finished
  stopped : ∀ pre post id k, s.log = pre ++ .stopping id k :: post → .stopped id k ∈ post →
    .started id ∉ post → ∀ pid (process : Process), s.processes.find pid = some process →
      process.connector ≠ some id

structure Orderly (s : Supervisor) : Prop where
  tasks : s.Tasks
  files : s.Files
  stops : s.Stops

variable {s t : Supervisor} {k pid : ℕ} {task : Task} {stage : Stage}

/-! ## Tasks -/

lemma active_of_child (h : task.stage.child = some pid) : task.active = true := by
  rcases task with ⟨spec, stop, stage⟩
  cases stage <;> simp [Stage.child] at h <;> simp [Task.active, Task.isFinished, Stage.idle]

lemma getElem?_goto (k k' : ℕ) (stage : Stage) : (s.goto k stage).tasks[k']? =
    (s.tasks[k']?).map fun task => if k = k' then { task with stage } else task := by
  rw [goto, List.getElem?_modify]
  by_cases hk : k = k' <;> simp [hk]

/-- The tasks after one of them has moved on. -/
lemma goto_cases {k' : ℕ} {task' : Task} (h : (s.goto k stage).tasks[k']? = some task') :
    (k' = k ∧ ∃ old, s.tasks[k]? = some old ∧ task' = { old with stage }) ∨
      (k' ≠ k ∧ s.tasks[k']? = some task') := by
  exact List.getElem?_modify_eq_some h

lemma goto_self (h : s.tasks[k]? = some task) :
    (s.goto k stage).tasks[k]? = some { task with stage } := by
  rw [getElem?_goto, h, Option.map_some, if_pos rfl]

lemma goto_of_ne {k' : ℕ} (h : k' ≠ k) : (s.goto k stage).tasks[k']? = s.tasks[k']? := by
  rw [getElem?_goto]
  cases s.tasks[k']? with
  | none => rfl
  | some task => rw [Option.map_some, if_neg (Ne.symm h)]

/-- A task moves on with the child it has, or with none, and asks for nothing new. -/
structure Onward (task : Task) (stage : Stage) : Prop where
  child : stage.child = task.stage.child
  active : ({ task with stage } : Task).active = true → task.active = true
  running : task.stage ≠ .finished
  finished : stage = .finished → task.stop = true
  requested : stage.outcome = some .stopRequested → task.stop = true

lemma Tasks.isUp (h : s.Tasks) (hk : s.tasks[k]? = some task) (hrunning : task.stage ≠ .finished) :
    s.up = true := by
  cases hup : s.up with
  | true => rfl
  | false => exact absurd (h.down hup task (List.mem_of_getElem? hk)) hrunning

lemma Tasks.apart_goto (h : s.Tasks) (hk : s.tasks[k]? = some task)
    (hactive : ({ task with stage } : Task).active = true → task.active = true) :
    ∀ (k₁ k₂ : ℕ) (task₁ task₂ : Task), (s.goto k stage).tasks[k₁]? = some task₁ →
      (s.goto k stage).tasks[k₂]? = some task₂ → task₁.active = true → task₂.active = true →
        PidRegistry.path task₁.spec.id = PidRegistry.path task₂.spec.id → k₁ = k₂ := by
  intro k₁ k₂ task₁ task₂ h₁ h₂ hactive₁ hactive₂ hpath
  rcases goto_cases h₁ with ⟨rfl, old₁, hold₁, rfl⟩ | ⟨hne₁, hold₁⟩ <;>
    rcases goto_cases h₂ with ⟨rfl, old₂, hold₂, rfl⟩ | ⟨hne₂, hold₂⟩
  · rfl
  · obtain rfl := Option.some.inj (hk.symm.trans hold₁)
    exact h.apart k₁ k₂ task task₂ hk hold₂ (hactive hactive₁) hactive₂ hpath
  · obtain rfl := Option.some.inj (hk.symm.trans hold₂)
    exact h.apart k₁ k₂ task₁ task hold₁ hk hactive₁ (hactive hactive₂) hpath
  · exact h.apart k₁ k₂ task₁ task₂ hold₁ hold₂ hactive₁ hactive₂ hpath

lemma Tasks.mapped_goto (h : s.Tasks) (hk : s.tasks[k]? = some task)
    (hfinished : stage = .finished → task.stop = true) :
    ∀ id k', s.connectors.find id = some k' →
      ∃ task' : Task, (s.goto k stage).tasks[k']? = some task' ∧ task'.spec.id = id ∧
        task'.stop = false ∧ task'.stage ≠ .finished := by
  intro id k' hfind
  obtain ⟨old, hold, hid, hstop, hstage⟩ := h.mapped id k' hfind
  by_cases hkk : k' = k
  · subst hkk
    obtain rfl := Option.some.inj (hk.symm.trans hold)
    refine ⟨{ task with stage }, goto_self hk, hid, hstop, fun heq => ?_⟩
    rw [hfinished heq] at hstop
    cases hstop
  · exact ⟨old, by rw [goto_of_ne hkk]; exact hold, hid, hstop, hstage⟩

lemma Tasks.goto (h : s.Tasks) (hk : s.tasks[k]? = some task) (honward : Onward task stage) :
    (s.goto k stage).Tasks where
  mapped := h.mapped_goto hk honward.finished
  apart := h.apart_goto hk honward.active
  child k' task' pid hk' hpid := by
    rcases goto_cases hk' with ⟨rfl, old, hold, rfl⟩ | ⟨-, hold⟩
    · obtain rfl := Option.some.inj (hk.symm.trans hold)
      exact h.child k' task pid hk (honward.child ▸ hpid)
    · exact h.child k' task' pid hold hpid
  owned hup pid process id hfind hid := by
    obtain ⟨k', old, hold, hspec, hpid⟩ := h.owned hup pid process id hfind hid
    by_cases hkk : k' = k
    · subst hkk
      obtain rfl := Option.some.inj (hk.symm.trans hold)
      exact ⟨k', _, goto_self hk, hspec, honward.child.trans hpid⟩
    · exact ⟨k', old, by rw [goto_of_ne hkk]; exact hold, hspec, hpid⟩
  requested k' task' hk' houtcome := by
    rcases goto_cases hk' with ⟨rfl, old, hold, rfl⟩ | ⟨-, hold⟩
    · obtain rfl := Option.some.inj (hk.symm.trans hold)
      exact honward.requested houtcome
    · exact h.requested k' task' hold houtcome
  down hup := by
    have hup' := h.isUp hk honward.running
    have hdown : s.up = false := hup
    rw [hdown] at hup'
    cases hup'

lemma Stops.goto (h : s.Stops) (hk : s.tasks[k]? = some task)
    (hactive : ({ task with stage } : Task).active = true → task.active = true)
    (hrunning : task.stage ≠ .finished) : (s.goto k stage).Stops where
  idle := h.idle
  asked := h.asked
  last pre post id k₀ hlog hstart k' task' hk' hid hactive' := by
    rcases goto_cases hk' with ⟨rfl, old, hold, rfl⟩ | ⟨-, hold⟩
    · obtain rfl := Option.some.inj (hk.symm.trans hold)
      exact h.last pre post id k₀ hlog hstart k' task hk hid (hactive hactive')
    · exact h.last pre post id k₀ hlog hstart k' task' hold hid hactive'
  finished id k' hmem := by
    obtain ⟨old, hold, hstage⟩ := h.finished id k' hmem
    by_cases hkk : k' = k
    · subst hkk
      obtain rfl := Option.some.inj (hk.symm.trans hold)
      exact absurd hstage hrunning
    · exact ⟨old, by rw [goto_of_ne hkk]; exact hold, hstage⟩
  stopped := h.stopped

lemma Orderly.goto (h : s.Orderly) (hk : s.tasks[k]? = some task) (honward : Onward task stage) :
    (s.goto k stage).Orderly where
  tasks := h.tasks.goto hk honward
  files := { h.files with }
  stops := h.stops.goto hk honward.active honward.running

/-! ## Children -/

/-- Two tasks with children of one file name are one. -/
lemma Tasks.owner_unique (h : s.Tasks) {k' pid' : ℕ} {task' : Task} (hk : s.tasks[k]? = some task)
    (hk' : s.tasks[k']? = some task') (hactive : task.active = true)
    (hpid' : task'.stage.child = some pid')
    (hpath : PidRegistry.path task.spec.id = PidRegistry.path task'.spec.id) : k = k' :=
  h.apart k k' task task' hk hk' hactive (active_of_child hpid') hpath

/-- An active task without a child: nobody has a child of its file name. -/
lemma Tasks.none_of_childless (h : s.Tasks) (hk : s.tasks[k]? = some task)
    (hactive : task.active = true) (hchild : task.stage.child = none) (hup : s.up = true)
    {process : Process} {id : ConnectorId} (hfind : s.processes.find pid = some process)
    (hid : process.connector = some id) :
    PidRegistry.path id ≠ PidRegistry.path task.spec.id := by
  intro hpath
  obtain ⟨k', task', hk', rfl, hpid⟩ := h.owned hup pid process id hfind hid
  obtain rfl := h.owner_unique hk hk' hactive hpid hpath.symm
  obtain rfl := Option.some.inj (hk.symm.trans hk')
  rw [hchild] at hpid
  cases hpid

/-- Who holds a child alone. -/
lemma Tasks.holder (h : s.Tasks) (hk : s.tasks[k]? = some task)
    (hpid : task.stage.child = some pid) {k' : ℕ} {task' : Task} (hk' : s.tasks[k']? = some task')
    (hpid' : task'.stage.child = some pid) : k' = k := by
  obtain ⟨process, hfind, hid⟩ := h.child k task pid hk hpid
  obtain ⟨process', hfind', hid'⟩ := h.child k' task' pid hk' hpid'
  obtain rfl := Option.some.inj (hfind.symm.trans hfind')
  refine h.owner_unique hk' hk (active_of_child hpid') hpid ?_
  rw [Option.some.inj (hid.symm.trans hid')]

/-- Every process of `t` is one of `s`, marked or not. -/
def Names (s t : Supervisor) : Prop :=
  ∀ pid (process : Process), t.processes.find pid = some process →
    ∃ old : Process, s.processes.find pid = some old ∧ old.connector = process.connector ∧
      old.startTime = process.startTime

lemma Files.of_names (h : s.Files) (hnames : s.Names t) (hborn : t.born = s.born)
    (hfiles : ∀ name record, t.registry.files.find name = some record →
      s.registry.files.find name = some record ∨
        ∃ process : Process, s.processes.find record.pid = some process ∧
          process.startTime = record.startTime ∧ process.connector.isSome = true)
    (hrecord : t.OnRecord)
    (hleft : t.up = false → ∀ pid (process : Process) id, t.processes.find pid = some process →
      process.connector = some id → process.recorded = true ∧ process.exited = false) :
    t.Files where
  alone pid pid' process process' id id' hfind hfind' hid hid' hpath := by
    obtain ⟨old, hold, hconnector, -⟩ := hnames pid process hfind
    obtain ⟨old', hold', hconnector', -⟩ := hnames pid' process' hfind'
    exact h.alone pid pid' old old' id id' hold hold' (hconnector.trans hid)
      (hconnector'.trans hid') hpath
  onRecord := hrecord
  left := hleft
  born pid process hfind := by
    obtain ⟨old, hold, -, htime⟩ := hnames pid process hfind
    rw [hborn, ← htime]
    exact h.born pid old hold
  filed name record hfind := by
    rw [hborn]
    rcases hfiles name record hfind with hfile | ⟨process, hprocess, htime, -⟩
    · exact h.filed name record hfile
    · rw [← htime]
      exact h.born record.pid process hprocess
  children name record process hfind hprocess htime := by
    obtain ⟨old, hold, hconnector, htime'⟩ := hnames record.pid process hprocess
    rw [← hconnector]
    rcases hfiles name record hfind with hfile | ⟨process', hprocess', -, hsome⟩
    · exact h.children name record old hfile hold (htime'.trans htime)
    · obtain rfl := Option.some.inj (hold.symm.trans hprocess')
      exact hsome

lemma Stops.of_names (h : s.Stops) (hnames : s.Names t) (htasks : t.tasks = s.tasks)
    (hlog : t.log = s.log) (hcalls : t.calls = s.calls) (hup : t.up = s.up) : t.Stops where
  idle := by rw [hup, hcalls]; exact h.idle
  asked := by rw [hcalls, hlog]; exact h.asked
  last := by rw [hlog, htasks]; exact h.last
  finished := by rw [hlog, htasks]; exact h.finished
  stopped := by
    rw [hlog]
    intro pre post id k hsplit hstopped hstart pid process hfind hid
    obtain ⟨old, hold, hconnector, -⟩ := hnames pid process hfind
    exact h.stopped pre post id k hsplit hstopped hstart pid old hold (hconnector.trans hid)

/-- The processes are marked, and none is gone. -/
lemma Tasks.of_names (h : s.Tasks) (hnames : s.Names t) (hback : t.Names s)
    (hconnectors : t.connectors = s.connectors) (htasks : t.tasks = s.tasks) (hup : t.up = s.up) :
    t.Tasks where
  mapped := by rw [hconnectors, htasks]; exact h.mapped
  apart := by rw [htasks]; exact h.apart
  child := by
    rw [htasks]
    intro k task pid hk hpid
    obtain ⟨process, hfind, hid⟩ := h.child k task pid hk hpid
    obtain ⟨new, hnew, hconnector, -⟩ := hback pid process hfind
    exact ⟨new, hnew, hconnector.trans hid⟩
  owned := by
    rw [htasks, hup]
    intro hup pid process id hfind hid
    obtain ⟨old, hold, hconnector, -⟩ := hnames pid process hfind
    exact h.owned hup pid old id hold (hconnector.trans hid)
  requested := by rw [htasks]; exact h.requested
  down := by rw [htasks, hup]; exact h.down

lemma names_wait (pid : ℕ) : s.Names (s.wait pid) := by
  intro pid' process hfind
  rw [wait, Table.find_erase] at hfind
  split_ifs at hfind
  exact ⟨process, hfind, rfl, rfl⟩

/-- The child of a task has ended, by itself or stopped. -/
lemma Orderly.wait (h : s.Orderly) (hk : s.tasks[k]? = some task)
    (hpid : task.stage.child = some pid) (outcome : Outcome)
    (hstop : outcome = .stopRequested → task.stop = true) :
    ((s.wait pid).goto k (.removing outcome)).Orderly := by
  have hactive := active_of_child hpid
  have hrunning : task.stage ≠ .finished := fun heq => by rw [heq] at hpid; cases hpid
  have hup := h.tasks.isUp hk hrunning
  refine ⟨⟨?_, ?_, ?_, ?_, ?_, ?_⟩, ?_, ?_⟩
  · exact h.tasks.mapped_goto hk fun heq => by cases heq
  · exact h.tasks.apart_goto hk fun _ => hactive
  · intro k' task' pid' hk' hpid'
    rcases goto_cases hk' with ⟨rfl, old, hold, rfl⟩ | ⟨hne, hold⟩
    · cases hpid'
    · obtain ⟨process, hfind, hid⟩ := h.tasks.child k' task' pid' hold hpid'
      refine ⟨process, ?_, hid⟩
      show (s.processes.erase pid).find pid' = some process
      rw [Table.find_erase_of_ne]
      · exact hfind
      · rintro rfl
        exact hne (h.tasks.holder hk hpid hold hpid')
  · intro _ pid' process id hfind hid
    have hfind' : (s.processes.erase pid).find pid' = some process := hfind
    rw [Table.find_erase] at hfind'
    split_ifs at hfind' with hne
    obtain ⟨k', old, hold, hspec, hpid'⟩ := h.tasks.owned hup pid' process id hfind' hid
    have hkk : k' ≠ k := by
      rintro rfl
      obtain rfl := Option.some.inj (hk.symm.trans hold)
      exact hne (Option.some.inj (hpid'.symm.trans hpid))
    exact ⟨k', old, by rw [goto_of_ne hkk]; exact hold, hspec, hpid'⟩
  · intro k' task' hk' houtcome
    rcases goto_cases hk' with ⟨rfl, old, hold, rfl⟩ | ⟨-, hold⟩
    · obtain rfl := Option.some.inj (hk.symm.trans hold)
      exact hstop (Option.some.inj houtcome)
    · exact h.tasks.requested k' task' hold houtcome
  · intro hdown
    have hdown' : s.up = false := hdown
    rw [hup] at hdown'
    cases hdown'
  · refine h.files.of_names (names_wait pid) rfl (fun _ _ hfind => .inl hfind) ?_ ?_
    · intro pid' id process hlive hrecorded
      have hfind' : (s.processes.erase pid).find pid' = some process := hlive.1
      rw [Table.find_erase] at hfind'
      split_ifs at hfind'
      exact h.files.onRecord pid' id process ⟨hfind', hlive.2⟩ hrecorded
    · intro hdown
      have hdown' : s.up = false := hdown
      rw [hup] at hdown'
      cases hdown'
  · have hstops : (s.wait pid).Stops :=
      h.stops.of_names (names_wait pid) rfl rfl rfl rfl
    exact hstops.goto hk (fun _ => hactive) hrunning

/-- The file of a task without a child is nobody else's. -/
lemma Orderly.remove (h : s.Orderly) (hk : s.tasks[k]? = some task)
    (hactive : task.active = true) (hchild : task.stage.child = none)
    (hrunning : task.stage ≠ .finished) :
    ({ s with registry := s.registry.remove task.spec.id } : Supervisor).Orderly := by
  have hup := h.tasks.isUp hk hrunning
  refine ⟨{ h.tasks with }, ?_, { h.stops with }⟩
  refine h.files.of_names (fun _ process hfind => ⟨process, hfind, rfl, rfl⟩) rfl ?_ ?_
    h.files.left
  · intro name record hfind
    have hfind' : (s.registry.files.erase (PidRegistry.path task.spec.id)).find name =
        some record := hfind
    rw [Table.find_erase] at hfind'
    split_ifs at hfind'
    exact .inl hfind'
  · intro pid id process hlive hrecorded
    show (s.registry.files.erase (PidRegistry.path task.spec.id)).find (PidRegistry.path id) = _
    rw [Table.find_erase_of_ne]
    · exact h.files.onRecord pid id process hlive hrecorded
    · exact h.tasks.none_of_childless hk hactive hchild hup hlive.1 hlive.2.1

/-- A child's mark changes, and nothing else. -/
lemma names_insert {process : Process} (new : Process) (hfind : s.processes.find pid = some process)
    (hconnector : process.connector = new.connector) (htime : process.startTime = new.startTime)
    (hprocesses : t.processes = s.processes.insert pid new) : s.Names t ∧ t.Names s := by
  constructor
  · intro pid' process' hfind'
    rw [hprocesses, Table.find_insert] at hfind'
    split_ifs at hfind' with hpid
    · obtain rfl := Option.some.inj hfind'
      exact ⟨process, by rw [hpid]; exact hfind, hconnector, htime⟩
    · exact ⟨process', hfind', rfl, rfl⟩
  · intro pid' process' hfind'
    rw [hprocesses, Table.find_insert]
    split_ifs with hpid
    · subst hpid
      obtain rfl := Option.some.inj (hfind.symm.trans hfind')
      exact ⟨new, rfl, hconnector.symm, htime.symm⟩
    · exact ⟨process', hfind', rfl, rfl⟩

/-- The record step writes the child's file over none of another child. -/
lemma Orderly.record (h : s.Orderly) (hk : s.tasks[k]? = some task)
    (hpid : task.stage.child = some pid) (written : Bool)
    (hwritten : ∀ process : Process, s.processes.find pid = some process →
      process.exited = false → written = true) :
    (s.record task.spec.id pid written).Orderly := by
  have hrunning : task.stage ≠ .finished := fun heq => by rw [heq] at hpid; cases hpid
  have hup := h.tasks.isUp hk hrunning
  obtain ⟨process, hfind, hid⟩ := h.tasks.child k task pid hk hpid
  have htime : s.processes.startTime pid = some process.startTime := by
    rw [Processes.startTime, hfind]
    rfl
  have hprocesses : (s.record task.spec.id pid written).processes =
      s.processes.insert pid { process with recorded := true } := by
    simp only [Supervisor.record, hfind]
  have hfiles : (s.record task.spec.id pid written).registry.files =
      if written then s.registry.files.insert (PidRegistry.path task.spec.id)
        { marker := MARKER, pid, startTime := process.startTime, connector := task.spec.id }
      else s.registry.files := by
    simp only [Supervisor.record, PidRegistry.record, htime]
    split_ifs <;> rfl
  obtain ⟨hnames, hback⟩ := names_insert { process with recorded := true } hfind rfl rfl hprocesses
  refine ⟨h.tasks.of_names hnames hback rfl rfl rfl, ?_,
    h.stops.of_names hnames rfl rfl rfl rfl⟩
  refine h.files.of_names hnames rfl ?_ ?_ ?_
  · intro name entry hentry
    rw [hfiles] at hentry
    split_ifs at hentry
    · rw [Table.find_insert] at hentry
      split_ifs at hentry
      · obtain rfl := Option.some.inj hentry
        exact .inr ⟨process, hfind, rfl, by rw [hid]; rfl⟩
      · exact .inl hentry
    · exact .inl hentry
  · intro pid' id process' hlive hrecorded
    obtain ⟨hfind', hid', hexited⟩ := hlive
    rw [hprocesses, Table.find_insert] at hfind'
    rw [hfiles]
    split_ifs at hfind' with heq
    · obtain rfl := Option.some.inj hfind'
      have hid'' : process.connector = some id := hid'
      obtain rfl := Option.some.inj (hid.symm.trans hid'')
      rw [if_pos (hwritten process hfind hexited), Table.find_insert_self, heq]
    · have hfile := h.files.onRecord pid' id process' ⟨hfind', hid', hexited⟩ hrecorded
      split_ifs
      · rw [Table.find_insert_of_ne]
        · exact hfile
        · intro hpath
          exact heq (h.files.alone pid' pid process' process id task.spec.id hfind' hfind hid' hid
            hpath)
      · exact hfile
  · intro hdown
    have hdown' : s.up = false := hdown
    rw [hup] at hdown'
    cases hdown'

/-! ## New processes -/

lemma begin'_eq_some {process : Process} (h : s.begin' pid process = some t) :
    s.processes.find pid = none ∧ (pid, process.startTime) ∉ s.born ∧
      t = { s with
        processes := s.processes.insert pid process
        born := s.born ++ [(pid, process.startTime)] } := by
  rw [begin'] at h
  split_ifs at h with hfree
  exact ⟨hfree.1, hfree.2, (Option.some.inj h).symm⟩

/-- A new process of another program, or a child where no other has its file name. -/
lemma Files.begin' (h : s.Files) {process : Process} (hbegin : s.begin' pid process = some t)
    (hunrecorded : process.recorded = false)
    (hpath : ∀ id, process.connector = some id → s.up = true ∧ ∀ pid' (other : Process) id',
      s.processes.find pid' = some other → other.connector = some id' →
        PidRegistry.path id' ≠ PidRegistry.path id) : t.Files := by
  obtain ⟨hfree, hnew, rfl⟩ := begin'_eq_some hbegin
  refine ⟨?_, ?_, ?_, ?_, ?_, ?_⟩
  · intro pid₁ pid₂ process₁ process₂ id₁ id₂ hfind₁ hfind₂ hid₁ hid₂ heq
    rw [Table.find_insert] at hfind₁ hfind₂
    split_ifs at hfind₁ with h₁ <;> split_ifs at hfind₂ with h₂
    · rw [h₁, h₂]
    · obtain rfl := Option.some.inj hfind₁
      exact absurd heq.symm ((hpath id₁ hid₁).2 pid₂ process₂ id₂ hfind₂ hid₂)
    · obtain rfl := Option.some.inj hfind₂
      exact absurd heq ((hpath id₂ hid₂).2 pid₁ process₁ id₁ hfind₁ hid₁)
    · exact h.alone pid₁ pid₂ process₁ process₂ id₁ id₂ hfind₁ hfind₂ hid₁ hid₂ heq
  · intro pid' id process' hlive hrecorded
    obtain ⟨hfind', hlive⟩ := hlive
    rw [Table.find_insert] at hfind'
    split_ifs at hfind'
    · obtain rfl := Option.some.inj hfind'
      rw [hunrecorded] at hrecorded
      cases hrecorded
    · exact h.onRecord pid' id process' ⟨hfind', hlive⟩ hrecorded
  · intro hdown pid' process' id hfind' hid
    rw [Table.find_insert] at hfind'
    split_ifs at hfind'
    · obtain rfl := Option.some.inj hfind'
      have hup := (hpath id hid).1
      have hdown' : s.up = false := hdown
      rw [hup] at hdown'
      cases hdown'
    · exact h.left hdown pid' process' id hfind' hid
  · intro pid' process' hfind'
    rw [Table.find_insert] at hfind'
    split_ifs at hfind' with hpid
    · obtain rfl := Option.some.inj hfind'
      rw [hpid]
      exact List.mem_append_right _ List.mem_cons_self
    · exact List.mem_append_left _ (h.born pid' process' hfind')
  · intro name record hfind'
    exact List.mem_append_left _ (h.filed name record hfind')
  · intro name record process' hfind' hprocess htime
    rw [Table.find_insert] at hprocess
    split_ifs at hprocess with hpid
    · obtain rfl := Option.some.inj hprocess
      have hborn := h.filed name record hfind'
      rw [hpid, ← htime] at hborn
      exact absurd hborn hnew
    · exact h.children name record process' hfind' hprocess htime

lemma Orderly.other (h : s.Orderly) {startTime : ℕ}
    (hbegin : s.begin' pid { startTime, connector := none } = some t) : t.Orderly := by
  have hfiles := h.files.begin' hbegin rfl fun id hid => by cases hid
  obtain ⟨hfree, -, rfl⟩ := begin'_eq_some hbegin
  refine ⟨⟨h.tasks.mapped, h.tasks.apart, ?_, ?_, h.tasks.requested, h.tasks.down⟩, hfiles,
    ⟨h.stops.idle, h.stops.asked, h.stops.last, h.stops.finished, ?_⟩⟩
  · intro k task pid' hk hpid
    obtain ⟨process, hfind, hid⟩ := h.tasks.child k task pid' hk hpid
    refine ⟨process, ?_, hid⟩
    rw [Table.find_insert_of_ne]
    · exact hfind
    · rintro rfl
      rw [hfree] at hfind
      cases hfind
  · intro hup pid' process id hfind hid
    rw [Table.find_insert] at hfind
    split_ifs at hfind
    · obtain rfl := Option.some.inj hfind
      cases hid
    · exact h.tasks.owned hup pid' process id hfind hid
  · intro pre post id k hsplit hstopped hstart pid' process hfind hid
    rw [Table.find_insert] at hfind
    split_ifs at hfind
    · obtain rfl := Option.some.inj hfind
      cases hid
    · exact h.stops.stopped pre post id k hsplit hstopped hstart pid' process hfind hid

/-- A task spawns where no other task has a child of its file name. -/
lemma Orderly.spawn (h : s.Orderly) (hk : s.tasks[k]? = some task)
    (hstage : task.stage = .spawning) {startTime : ℕ} {u : Supervisor}
    (hbegin : s.begin' pid { startTime, connector := some task.spec.id } = some u) :
    (u.goto k (.spawned pid)).Orderly := by
  have hrunning : task.stage ≠ .finished := by rw [hstage]; simp
  have hactive : task.active = true := by
    simp [Task.active, Task.isFinished, hstage, Stage.idle]
  have hchild : task.stage.child = none := by rw [hstage]; rfl
  have hup := h.tasks.isUp hk hrunning
  have hfiles := h.files.begin' hbegin rfl fun id hid => by
    obtain rfl := Option.some.inj hid
    exact ⟨hup, fun pid' other id' hfind hid' =>
      h.tasks.none_of_childless hk hactive hchild hup hfind hid'⟩
  obtain ⟨hfree, -, rfl⟩ := begin'_eq_some hbegin
  have hstops : ∀ pre post id k₀, s.log = pre ++ .stopping id k₀ :: post →
      .stopped id k₀ ∈ post → .started id ∉ post → id ≠ task.spec.id := by
    rintro pre post id k₀ hsplit hstopped hstart rfl
    have hlast := h.stops.last pre post _ k₀ hsplit hstart k task hk rfl hactive
    obtain ⟨old, hold, hfinished⟩ := h.stops.finished _ k₀ (by
      rw [hsplit]
      exact List.mem_append_right _ (List.mem_cons_of_mem _ hstopped))
    rw [← hlast] at hold
    obtain rfl := Option.some.inj (hk.symm.trans hold)
    exact hrunning hfinished
  refine ⟨⟨?_, ?_, ?_, ?_, ?_, ?_⟩, { hfiles with }, ?_⟩
  · exact h.tasks.mapped_goto hk fun heq => by cases heq
  · exact h.tasks.apart_goto hk fun _ => hactive
  · intro k' task' pid' hk' hpid'
    rcases goto_cases hk' with ⟨rfl, old, hold, rfl⟩ | ⟨hne, hold⟩
    · have hold' : s.tasks[k']? = some old := hold
      obtain rfl := Option.some.inj (hk.symm.trans hold')
      obtain rfl := Option.some.inj hpid'
      exact ⟨_, Table.find_insert_self, rfl⟩
    · obtain ⟨process, hfind, hid⟩ := h.tasks.child k' task' pid' hold hpid'
      refine ⟨process, ?_, hid⟩
      show (s.processes.insert pid _).find pid' = some process
      rw [Table.find_insert_of_ne]
      · exact hfind
      · rintro rfl
        rw [hfree] at hfind
        cases hfind
  · intro _ pid' process id hfind hid
    have hfind' : (s.processes.insert pid _).find pid' = some process := hfind
    rw [Table.find_insert] at hfind'
    split_ifs at hfind' with hpid
    · obtain rfl := Option.some.inj hfind'
      exact ⟨k, _, goto_self hk, Option.some.inj hid, by rw [hpid]; rfl⟩
    · obtain ⟨k', old, hold, hspec, hpid'⟩ := h.tasks.owned hup pid' process id hfind' hid
      have hkk : k' ≠ k := by
        rintro rfl
        obtain rfl := Option.some.inj (hk.symm.trans hold)
        rw [hchild] at hpid'
        cases hpid'
      exact ⟨k', old, by rw [goto_of_ne hkk]; exact hold, hspec, hpid'⟩
  · intro k' task' hk' houtcome
    rcases goto_cases hk' with ⟨rfl, old, hold, rfl⟩ | ⟨-, hold⟩
    · cases houtcome
    · exact h.tasks.requested k' task' hold houtcome
  · intro hdown
    have hdown' : s.up = false := hdown
    rw [hup] at hdown'
    cases hdown'
  · refine Stops.goto ⟨h.stops.idle, h.stops.asked, h.stops.last, h.stops.finished, ?_⟩ hk
      (fun _ => hactive) hrunning
    intro pre post id k₀ hsplit hstopped hstart pid' process hfind hid
    rw [Table.find_insert] at hfind
    split_ifs at hfind
    · obtain rfl := Option.some.inj hfind
      exact hstops pre post id k₀ hsplit hstopped hstart (Option.some.inj hid).symm
    · exact h.stops.stopped pre post id k₀ hsplit hstopped hstart pid' process hfind hid

/-! ## Starts and stops -/

lemma Orderly.start (h : s.Orderly) {spec : ConnectorSpec} (hup : s.up = true)
    (hcareful : s.Careful (.start spec)) : (s.start spec).Orderly := by
  cases hrunning : s.alreadyRunning spec.id with
  | true => rw [Supervisor.start, if_pos hrunning]; exact h
  | false =>
  rw [Supervisor.start, if_neg (by rw [hrunning]; exact Bool.false_ne_true)]
  have hpath := hcareful hrunning
  have hold : ∀ {k' : ℕ} {task' : Task}, s.tasks[k']? = some task' →
      (s.tasks ++ [({ spec } : Task)])[k']? = some task' := fun hk' =>
    (List.getElem?_append_left (List.getElem?_eq_some_iff.mp hk').1).trans hk'
  have hdown : s.up ≠ false := by rw [hup]; simp
  refine ⟨⟨?_, ?_, ?_, ?_, ?_, fun hfalse => absurd hfalse hdown⟩, { h.files with },
    ⟨fun hfalse => absurd hfalse hdown, ?_, ?_, ?_, ?_⟩⟩
  · intro id k' hfind
    rw [Table.find_insert] at hfind
    split_ifs at hfind with hid
    · obtain rfl := Option.some.inj hfind
      exact ⟨{ spec }, List.getElem?_concat_length, hid.symm, rfl, by simp⟩
    · obtain ⟨task', hk', hrest⟩ := h.tasks.mapped id k' hfind
      exact ⟨task', hold hk', hrest⟩
  · intro k₁ k₂ task₁ task₂ h₁ h₂ hactive₁ hactive₂ heq
    rcases List.getElem?_snoc_eq_some h₁ with ⟨rfl, rfl⟩ | ⟨-, hold₁⟩ <;>
      rcases List.getElem?_snoc_eq_some h₂ with ⟨rfl, rfl⟩ | ⟨-, hold₂⟩
    · rfl
    · exact absurd heq.symm (hpath task₂ (List.mem_of_getElem? hold₂) hactive₂)
    · exact absurd heq (hpath task₁ (List.mem_of_getElem? hold₁) hactive₁)
    · exact h.tasks.apart k₁ k₂ task₁ task₂ hold₁ hold₂ hactive₁ hactive₂ heq
  · intro k' task' pid' hk' hpid'
    rcases List.getElem?_snoc_eq_some hk' with ⟨-, rfl⟩ | ⟨-, hk'⟩
    · cases hpid'
    · exact h.tasks.child k' task' pid' hk' hpid'
  · intro hup' pid' process id hfind hid
    obtain ⟨k', task', hk', hrest⟩ := h.tasks.owned hup' pid' process id hfind hid
    exact ⟨k', task', hold hk', hrest⟩
  · intro k' task' hk' houtcome
    rcases List.getElem?_snoc_eq_some hk' with ⟨-, rfl⟩ | ⟨-, hk'⟩
    · cases houtcome
    · exact h.tasks.requested k' task' hk' houtcome
  · intro id k' hmem
    exact List.mem_append_left _ (h.stops.asked id k' hmem)
  · intro pre post id k' hsplit hstart k'' task' hk' hid hactive
    rcases List.split_snoc hsplit with ⟨-, hevent, -⟩ | ⟨post', rfl, hsplit'⟩
    · cases hevent
    · rcases List.getElem?_snoc_eq_some hk' with ⟨-, rfl⟩ | ⟨-, hk'⟩
      · exact absurd (List.mem_append_right _ (by rw [← hid]; exact List.mem_cons_self)) hstart
      · exact h.stops.last pre post' id k' hsplit'
          (fun hmem => hstart (List.mem_append_left _ hmem)) k'' task' hk' hid hactive
  · intro id k' hmem
    rcases List.mem_append.mp hmem with hmem | hmem
    · obtain ⟨task', hk', hfinished⟩ := h.stops.finished id k' hmem
      exact ⟨task', hold hk', hfinished⟩
    · simp at hmem
  · intro pre post id k' hsplit hstopped hstart
    rcases List.split_snoc hsplit with ⟨-, hevent, -⟩ | ⟨post', rfl, hsplit'⟩
    · cases hevent
    · rcases List.mem_append.mp hstopped with hstopped | hstopped
      · exact h.stops.stopped pre post' id k' hsplit' hstopped
          fun hmem => hstart (List.mem_append_left _ hmem)
      · simp at hstopped

/-- Asked to stop, a task is no busier than before. -/
lemma active_of_stop (h : ({ task with stop := true } : Task).active = true) :
    task.active = true := by
  rcases task with ⟨spec, stop, stage⟩
  cases stage <;> simp_all [Task.active, Task.isFinished, Stage.idle]

lemma Orderly.stop (h : s.Orderly) {id : ConnectorId} (hup : s.up = true) :
    (s.stop id).Orderly := by
  rw [Supervisor.stop]
  cases hfind : s.connectors.find id with
  | none => exact h
  | some k =>
  obtain ⟨task, hk, hid, hstop, hstage⟩ := h.tasks.mapped id k hfind
  have hactive : task.active = true := by simp [Task.active, Task.isFinished, hstage, hstop]
  have hcases : ∀ {k' : ℕ} {task' : Task},
      (s.tasks.modify k fun task => { task with stop := true })[k']? = some task' →
      ∃ old : Task, s.tasks[k']? = some old ∧ task'.spec = old.spec ∧ task'.stage = old.stage ∧
        (task'.active = true → old.active = true) ∧ (old.stop = true → task'.stop = true) := by
    intro k' task' hk'
    rcases List.getElem?_modify_eq_some hk' with ⟨rfl, old, hold, rfl⟩ | ⟨-, hold⟩
    · exact ⟨old, hold, rfl, rfl, active_of_stop, fun _ => rfl⟩
    · exact ⟨task', hold, rfl, rfl, fun hactive => hactive, fun hstop => hstop⟩
  have hkeep : ∀ {k' : ℕ} {old : Task}, s.tasks[k']? = some old → ∃ task' : Task,
      (s.tasks.modify k fun task => { task with stop := true })[k']? = some task' ∧
        task'.spec = old.spec ∧ task'.stage = old.stage ∧ (k' ≠ k → task' = old) := by
    intro k' old hold
    by_cases hkk : k = k'
    · subst hkk
      exact ⟨{ old with stop := true }, by rw [List.getElem?_modify_eq, hold]; rfl, rfl, rfl,
        fun hne => absurd rfl hne⟩
    · exact ⟨old, by rw [List.getElem?_modify_ne _ _ hkk]; exact hold, rfl, rfl, fun _ => rfl⟩
  have hdown : s.up ≠ false := by rw [hup]; simp
  refine ⟨⟨?_, ?_, ?_, ?_, ?_, fun hfalse => absurd hfalse hdown⟩, { h.files with },
    ⟨fun hfalse => absurd hfalse hdown, ?_, ?_, ?_, ?_⟩⟩
  · intro id' k' hfind'
    rw [Table.find_erase] at hfind'
    split_ifs at hfind' with hne
    obtain ⟨old, hold, hid', hstop', hstage'⟩ := h.tasks.mapped id' k' hfind'
    have hkk : k' ≠ k := by
      rintro rfl
      obtain rfl := Option.some.inj (hk.symm.trans hold)
      exact hne (hid'.symm.trans hid)
    obtain ⟨task', hk', -, -, heq⟩ := hkeep hold
    obtain rfl := heq hkk
    exact ⟨task', hk', hid', hstop', hstage'⟩
  · intro k₁ k₂ task₁ task₂ h₁ h₂ hactive₁ hactive₂ heq
    obtain ⟨old₁, hold₁, hspec₁, -, hback₁, -⟩ := hcases h₁
    obtain ⟨old₂, hold₂, hspec₂, -, hback₂, -⟩ := hcases h₂
    rw [hspec₁, hspec₂] at heq
    exact h.tasks.apart k₁ k₂ old₁ old₂ hold₁ hold₂ (hback₁ hactive₁) (hback₂ hactive₂) heq
  · intro k' task' pid' hk' hpid'
    obtain ⟨old, hold, hspec, hstage', -, -⟩ := hcases hk'
    rw [hspec]
    exact h.tasks.child k' old pid' hold (hstage' ▸ hpid')
  · intro hup' pid' process id' hfind' hid'
    obtain ⟨k', old, hold, hspec, hpid'⟩ := h.tasks.owned hup' pid' process id' hfind' hid'
    obtain ⟨task', hk', hspec', hstage', -⟩ := hkeep hold
    exact ⟨k', task', hk', by rw [hspec', hspec], by rw [hstage', hpid']⟩
  · intro k' task' hk' houtcome
    obtain ⟨old, hold, -, hstage', -, hstop'⟩ := hcases hk'
    exact hstop' (h.tasks.requested k' old hold (hstage' ▸ houtcome))
  · intro id' k' hmem
    rcases List.mem_append.mp hmem with hmem | hmem
    · exact List.mem_append_left _ (h.stops.asked id' k' hmem)
    · obtain ⟨rfl, rfl⟩ := Prod.mk.inj (List.mem_singleton.mp hmem)
      exact List.mem_append_right _ List.mem_cons_self
  · intro pre post id' k' hsplit hstart k'' task' hk' hid' hactive'
    obtain ⟨old, hold, hspec, -, hback, -⟩ := hcases hk'
    rw [hspec] at hid'
    rcases List.split_snoc hsplit with ⟨-, hevent, -⟩ | ⟨post', rfl, hsplit'⟩
    · rw [Event.stopping.injEq] at hevent
      obtain ⟨rfl, rfl⟩ := hevent
      exact h.tasks.apart k'' k old task hold hk (hback hactive') hactive (by rw [hid', hid])
    · exact h.stops.last pre post' id' k' hsplit'
        (fun hmem => hstart (List.mem_append_left _ hmem)) k'' old hold hid' (hback hactive')
  · intro id' k' hmem
    rcases List.mem_append.mp hmem with hmem | hmem
    · obtain ⟨old, hold, hfinished⟩ := h.stops.finished id' k' hmem
      obtain ⟨task', hk', -, hstage', -⟩ := hkeep hold
      exact ⟨task', hk', hstage'.trans hfinished⟩
    · simp at hmem
  · intro pre post id' k' hsplit hstopped hstart
    rcases List.split_snoc hsplit with ⟨rfl, -, -⟩ | ⟨post', rfl, hsplit'⟩
    · simp at hstopped
    · rcases List.mem_append.mp hstopped with hstopped | hstopped
      · exact h.stops.stopped pre post' id' k' hsplit' hstopped
          fun hmem => hstart (List.mem_append_left _ hmem)
      · simp at hstopped

lemma Orderly.stopReturns (h : s.Orderly) {i : ℕ} {id : ConnectorId}
    (hcall : s.calls[i]? = some (id, k)) (hk : s.tasks[k]? = some task)
    (hfinished : task.stage = .finished) :
    ({ s with calls := s.calls.eraseIdx i, log := s.log ++ [Event.stopped id k] } :
      Supervisor).Orderly := by
  have hup : s.up ≠ false := by
    intro hdown
    rw [h.stops.idle hdown] at hcall
    cases hcall
  refine ⟨{ h.tasks with }, { h.files with }, ⟨fun hdown => absurd hdown hup, ?_, ?_, ?_, ?_⟩⟩
  · intro id' k' hmem
    exact List.mem_append_left _ (h.stops.asked id' k' (List.mem_of_mem_eraseIdx hmem))
  · intro pre post id' k' hsplit hstart
    rcases List.split_snoc hsplit with ⟨-, hevent, -⟩ | ⟨post', rfl, hsplit'⟩
    · cases hevent
    · exact h.stops.last pre post' id' k' hsplit'
        fun hmem => hstart (List.mem_append_left _ hmem)
  · intro id' k' hmem
    rcases List.mem_append.mp hmem with hmem | hmem
    · exact h.stops.finished id' k' hmem
    · have hevent := List.mem_singleton.mp hmem
      rw [Event.stopped.injEq] at hevent
      obtain ⟨rfl, rfl⟩ := hevent
      exact ⟨task, hk, hfinished⟩
  · intro pre post id' k' hsplit hstopped hstart pid' process hfind hid
    rcases List.split_snoc hsplit with ⟨-, hevent, -⟩ | ⟨post', rfl, hsplit'⟩
    · cases hevent
    have hstart' : .started id' ∉ post' := fun hmem => hstart (List.mem_append_left _ hmem)
    rcases List.mem_append.mp hstopped with hstopped | hstopped
    · exact h.stops.stopped pre post' id' k' hsplit' hstopped hstart' pid' process hfind hid
    · have hevent := List.mem_singleton.mp hstopped
      rw [Event.stopped.injEq] at hevent
      obtain ⟨rfl, rfl⟩ := hevent
      -- the child's task is the one that has ended
      obtain ⟨k', old, hold, hspec, hpid'⟩ :=
        h.tasks.owned (by simpa using hup) pid' process _ hfind hid
      obtain rfl := h.stops.last pre post' _ _ hsplit' hstart' k' old hold hspec
        (active_of_child hpid')
      obtain rfl := Option.some.inj (hk.symm.trans hold)
      rw [hfinished] at hpid'
      cases hpid'

/-! ## Exits, crashes and launches -/

lemma Orderly.exit (h : s.Orderly) {process : Process}
    (hfind : s.processes.find pid = some process) : (s.exit pid process).Orderly := by
  rw [Supervisor.exit]
  split_ifs with hheld
  · obtain ⟨hnames, hback⟩ := names_insert
      (t := { s with processes := s.processes.insert pid { process with exited := true } })
      { process with exited := true } hfind rfl rfl rfl
    refine ⟨h.tasks.of_names hnames hback rfl rfl rfl, ?_,
      h.stops.of_names hnames rfl rfl rfl rfl⟩
    refine h.files.of_names hnames rfl (fun _ _ hfile => .inl hfile) ?_ ?_
    · intro pid' id process' hlive hrecorded
      obtain ⟨hfind', hid, hexited⟩ := hlive
      rw [Table.find_insert] at hfind'
      split_ifs at hfind'
      · obtain rfl := Option.some.inj hfind'
        cases hexited
      · exact h.files.onRecord pid' id process' ⟨hfind', hid, hexited⟩ hrecorded
    · intro hdown
      obtain ⟨task, hmem, hpid⟩ := List.any_eq_true.mp hheld
      rw [h.tasks.down hdown task hmem] at hpid
      simp [Stage.child] at hpid
  · have hnobody : ∀ (k' : ℕ) (task' : Task), s.tasks[k']? = some task' →
        task'.stage.child ≠ some pid := by
      intro k' task' hk' hpid
      exact hheld (List.any_eq_true.mpr
        ⟨task', List.mem_of_getElem? hk', decide_eq_true hpid⟩)
    refine ⟨⟨h.tasks.mapped, h.tasks.apart, ?_, ?_, h.tasks.requested, h.tasks.down⟩, ?_,
      h.stops.of_names (names_wait pid) rfl rfl rfl rfl⟩
    · intro k' task' pid' hk' hpid
      obtain ⟨process', hfind', hid⟩ := h.tasks.child k' task' pid' hk' hpid
      refine ⟨process', ?_, hid⟩
      show (s.processes.erase pid).find pid' = some process'
      rw [Table.find_erase_of_ne]
      · exact hfind'
      · rintro rfl
        exact hnobody k' task' hk' hpid
    · intro hup pid' process' id hfind' hid
      obtain ⟨old, hold, hconnector, -⟩ := names_wait pid pid' process' hfind'
      exact h.tasks.owned hup pid' old id hold (hconnector.trans hid)
    · refine h.files.of_names (names_wait pid) rfl (fun _ _ hfile => .inl hfile) ?_ ?_
      · intro pid' id process' hlive hrecorded
        have hfind' : (s.processes.erase pid).find pid' = some process' := hlive.1
        rw [Table.find_erase] at hfind'
        split_ifs at hfind'
        exact h.files.onRecord pid' id process' ⟨hfind', hlive.2⟩ hrecorded
      · intro hdown pid' process' id hfind' hid
        rw [Supervisor.wait, Table.find_erase] at hfind'
        split_ifs at hfind'
        exact h.files.left hdown pid' process' id hfind' hid

lemma Orderly.crash (h : s.Orderly) (hcareful : s.Careful .crash) : s.crash.Orderly := by
  have hfinished : ∀ (k' : ℕ) (task' : Task), s.crash.tasks[k']? = some task' →
      ∃ old : Task, s.tasks[k']? = some old ∧ task' = { old with stage := .finished } := by
    intro k' task' hk'
    rw [Supervisor.crash, List.getElem?_map, Option.map_eq_some_iff] at hk'
    obtain ⟨old, hold, rfl⟩ := hk'
    exact ⟨old, hold, rfl⟩
  have hnames : s.Names s.crash := fun pid process hfind =>
    ⟨process, (Table.find_retain_eq_some_iff.mp hfind).1, rfl, rfl⟩
  have hidle : ∀ (old : Task), ({ old with stage := .finished } : Task).active = false := by
    intro old
    simp [Task.active, Task.isFinished]
  refine ⟨⟨fun id k' hfind => (nomatch hfind), ?_, ?_, fun hup => (nomatch hup), ?_, ?_⟩, ?_,
    ⟨fun _ => rfl, fun id k' hmem => (nomatch hmem), ?_, ?_, ?_⟩⟩
  · intro k₁ k₂ task₁ task₂ h₁ h₂ hactive₁
    obtain ⟨old, -, rfl⟩ := hfinished k₁ task₁ h₁
    rw [hidle] at hactive₁
    cases hactive₁
  · intro k' task' pid' hk' hpid
    obtain ⟨old, -, rfl⟩ := hfinished k' task' hk'
    cases hpid
  · intro k' task' hk' houtcome
    obtain ⟨old, -, rfl⟩ := hfinished k' task' hk'
    cases houtcome
  · intro _ task' hmem
    obtain ⟨old, -, rfl⟩ := List.mem_map.mp hmem
    rfl
  · refine h.files.of_names hnames rfl (fun _ _ hfile => .inl hfile) ?_ ?_
    · intro pid' id process' hlive hrecorded
      exact h.files.onRecord pid' id process'
        ⟨(Table.find_retain_eq_some_iff.mp hlive.1).1, hlive.2⟩ hrecorded
    · intro _ pid' process' id hfind hid
      obtain ⟨hfind', hexited⟩ := Table.find_retain_eq_some_iff.mp hfind
      have hexited' : process'.exited = false := by simpa using hexited
      exact ⟨hcareful pid' id process' ⟨hfind', hid, hexited'⟩, hexited'⟩
  · intro pre post id k' hsplit hstart k'' task' hk' hid hactive
    obtain ⟨old, -, rfl⟩ := hfinished k'' task' hk'
    rw [hidle] at hactive
    cases hactive
  · intro id k' hmem
    obtain ⟨old, hold, -⟩ := h.stops.finished id k' hmem
    refine ⟨{ old with stage := .finished }, ?_, rfl⟩
    rw [Supervisor.crash, List.getElem?_map, hold]
    rfl
  · intro pre post id k' hsplit hstopped hstart pid' process' hfind
    exact h.stops.stopped pre post id k' hsplit hstopped hstart pid' process'
      (Table.find_retain_eq_some_iff.mp hfind).1

/-- The next launch ends the children that were left, and no other process. -/
lemma Orderly.find_reap (h : s.Orderly) (hup : s.up = false) {process : Process} :
    s.reap.processes.find pid = some process ↔
      s.processes.find pid = some process ∧ process.connector = none := by
  rw [Supervisor.reap, PidRegistry.find_reapOrphans]
  refine and_congr_right fun hfind => ⟨fun hnames => ?_, fun hnone name record hfile _ hpid => ?_⟩
  · cases hid : process.connector with
    | none => rfl
    | some id =>
        obtain ⟨hrecorded, hexited⟩ := h.files.left hup pid process id hfind hid
        have hfile := h.files.onRecord pid id process ⟨hfind, hid, hexited⟩ hrecorded
        exact absurd rfl (hnames _ _ hfile rfl rfl)
  · intro htime
    subst hpid
    have hsome := h.files.children name record process hfile hfind htime.symm
    rw [hnone] at hsome
    cases hsome

lemma Orderly.reap (h : s.Orderly) (hup : s.up = false) : s.reap.Orderly := by
  have hnames : s.Names s.reap := fun pid process hfind =>
    ⟨process, ((h.find_reap hup).mp hfind).1, rfl, rfl⟩
  have hother : ∀ pid (process : Process) id, s.reap.processes.find pid = some process →
      process.connector ≠ some id := by
    intro pid process id hfind hid
    rw [((h.find_reap hup).mp hfind).2] at hid
    cases hid
  refine ⟨⟨h.tasks.mapped, h.tasks.apart, ?_, ?_, h.tasks.requested,
    fun hdown => (nomatch hdown)⟩, ?_, ⟨fun hdown => (nomatch hdown), h.stops.asked, h.stops.last, h.stops.finished, ?_⟩⟩
  · intro k' task' pid' hk' hpid
    rw [h.tasks.down hup task' (List.mem_of_getElem? hk')] at hpid
    cases hpid
  · intro _ pid' process id hfind hid
    exact absurd hid (hother pid' process id hfind)
  · refine h.files.of_names hnames rfl (fun name record hfind => by cases hfind) ?_
      fun hdown => by cases hdown
    intro pid' id process hlive
    exact absurd hlive.2.1 (hother pid' process id hlive.1)
  · intro pre post id k' _ _ _ pid' process hfind
    exact hother pid' process id hfind

/-! ## Every step -/

lemma onward_of_stage {next : Stage} (hstage : task.stage = stage) (hchild : next.child = stage.child)
    (hactive : ({ task with stage := next } : Task).active = true → task.active = true)
    (hrunning : stage ≠ .finished) (hfinished : next = .finished → task.stop = true)
    (hrequested : next.outcome = some .stopRequested → task.stop = true) : Onward task next where
  child := by rw [hstage, hchild]
  active := hactive
  running := by rw [hstage]; exact hrunning
  finished := hfinished
  requested := hrequested

lemma Orderly.go (h : s.Orderly) (hk : s.tasks[k]? = some task)
    (hmove : s.move k task .go = some t) : t.Orderly := by
  rcases hstage : task.stage with _ | _ | pid | pid | ⟨pid, outcome⟩ | outcome | outcome | _ | _
  all_goals simp only [Supervisor.move, hstage] at hmove
  case starting =>
    obtain rfl := Option.some.inj hmove
    cases hstop : task.stop with
    | true =>
        refine h.goto hk (onward_of_stage hstage rfl (fun hactive => ?_) (by simp)
          (fun _ => hstop) fun _ => hstop)
        simp [Task.active, Task.isFinished] at hactive
    | false =>
        refine h.goto hk (onward_of_stage hstage rfl (fun _ => ?_) (by simp)
          (fun heq => by cases heq) fun heq => by cases heq)
        simp [Task.active, Task.isFinished, hstage, hstop]
  case stopping =>
    obtain rfl := Option.some.inj hmove
    refine h.wait hk (by rw [hstage]; rfl) outcome fun heq => ?_
    exact h.tasks.requested k task hk (by rw [hstage, heq]; rfl)
  case removing =>
    obtain rfl := Option.some.inj hmove
    have hactive : task.active = true := by
      simp [Task.active, Task.isFinished, hstage, Stage.idle]
    have hremoved := h.remove hk hactive (by rw [hstage]; rfl) (by rw [hstage]; simp)
    refine hremoved.goto hk (onward_of_stage hstage rfl (fun _ => hactive) (by simp)
      (fun heq => by cases heq) fun heq => ?_)
    exact h.tasks.requested k task hk (by rw [hstage]; exact heq)
  case draining =>
    have hactive : ∀ next : Stage, next.idle = true ∨ next = .finished →
        ({ task with stage := next } : Task).active = true → task.active = true := by
      rintro next (hidle | rfl) hactive
      · simp_all [Task.active, Task.isFinished, Stage.idle]
      · simp [Task.active, Task.isFinished] at hactive
    cases outcome with
    | exited =>
        obtain rfl := Option.some.inj hmove
        exact h.goto hk (onward_of_stage hstage rfl (hactive _ (.inl rfl)) (by simp)
          (fun heq => by cases heq) fun heq => by cases heq)
    | stopRequested =>
        obtain rfl := Option.some.inj hmove
        have hstop := h.tasks.requested k task hk (by rw [hstage]; rfl)
        exact h.goto hk (onward_of_stage hstage rfl (hactive _ (.inr rfl)) (by simp)
          (fun _ => hstop) fun _ => hstop)
    | restart =>
        obtain rfl := Option.some.inj hmove
        exact h.goto hk (onward_of_stage hstage rfl (hactive _ (.inl rfl)) (by simp)
          (fun heq => by cases heq) fun heq => by cases heq)
  case waiting =>
    obtain rfl := Option.some.inj hmove
    refine h.goto hk (onward_of_stage hstage rfl (fun hactive => ?_) (by simp)
      (fun heq => by cases heq) fun heq => by cases heq)
    simp_all [Task.active, Task.isFinished, Stage.idle]
  all_goals cases hmove

lemma Orderly.move (h : s.Orderly) (hk : s.tasks[k]? = some task) {move : Move}
    (hcareful : s.Careful (.move k move)) (hmove : s.move k task move = some t) : t.Orderly := by
  cases move with
  | go => exact h.go hk hmove
  | spawn pid startTime =>
      simp only [Supervisor.move] at hmove
      split_ifs at hmove with hstage
      obtain ⟨u, hbegin, rfl⟩ := Option.map_eq_some_iff.mp hmove
      exact h.spawn hk hstage hbegin
  | spawnFails =>
      simp only [Supervisor.move] at hmove
      split_ifs at hmove with hstage
      obtain rfl := Option.some.inj hmove
      refine h.goto hk (onward_of_stage hstage rfl (fun _ => ?_) (by simp)
        (fun heq => by cases heq) fun heq => by cases heq)
      simp [Task.active, Task.isFinished, hstage, Stage.idle]
  | record written =>
      simp only [Supervisor.move] at hmove
      split at hmove
      · rename_i pid hstage
        obtain rfl := Option.some.inj hmove
        have hrecord := h.record hk (by rw [hstage]; rfl) written fun process hfind =>
          hcareful task pid process hk hstage hfind
        refine hrecord.goto hk (onward_of_stage hstage rfl (fun _ => ?_) (by simp)
          (fun heq => by cases heq) fun heq => by cases heq)
        exact active_of_child (show task.stage.child = some pid by rw [hstage]; rfl)
      · cases hmove
  | seeExit =>
      simp only [Supervisor.move] at hmove
      split at hmove
      · rename_i pid hstage
        split_ifs at hmove
        obtain rfl := Option.some.inj hmove
        exact h.wait hk (by rw [hstage]; rfl) .exited fun heq => by cases heq
      · cases hmove
  | seeStop =>
      simp only [Supervisor.move] at hmove
      split_ifs at hmove with hstop
      split at hmove
      · rename_i pid hstage
        obtain rfl := Option.some.inj hmove
        refine h.goto hk (onward_of_stage hstage rfl (fun _ => ?_) (by simp)
          (fun _ => hstop) fun _ => hstop)
        exact active_of_child (show task.stage.child = some pid by rw [hstage]; rfl)
      · rename_i hstage
        obtain rfl := Option.some.inj hmove
        refine h.goto hk (onward_of_stage hstage rfl (fun hactive => ?_) (by simp)
          (fun _ => hstop) fun _ => hstop)
        simp [Task.active, Task.isFinished] at hactive
      · cases hmove
  | restart =>
      simp only [Supervisor.move] at hmove
      split at hmove
      · rename_i pid hstage
        split_ifs at hmove
        obtain rfl := Option.some.inj hmove
        refine h.goto hk (onward_of_stage hstage rfl (fun _ => ?_) (by simp)
          (fun heq => by cases heq) fun heq => by cases heq)
        exact active_of_child (show task.stage.child = some pid by rw [hstage]; rfl)
      · cases hmove

lemma Orderly.step {action : Step} (h : s.Orderly) (hcareful : s.Careful action)
    (hstep : s.step action = some t) : t.Orderly := by
  cases action with
  | start spec =>
      simp only [Supervisor.step] at hstep
      split_ifs at hstep with hup
      exact Option.some.inj hstep ▸ h.start hup hcareful
  | stop id =>
      simp only [Supervisor.step] at hstep
      split_ifs at hstep with hup
      exact Option.some.inj hstep ▸ h.stop hup
  | stopReturns i =>
      simp only [Supervisor.step] at hstep
      split at hstep
      · cases hstep
      · rename_i id k hcall
        split_ifs at hstep with hfinished
        obtain rfl := Option.some.inj hstep
        obtain ⟨task, hk, hstage⟩ := (Option.any_eq_true _ _).mp hfinished
        exact h.stopReturns hcall hk (by simpa [Task.isFinished] using hstage)
  | move k move =>
      simp only [Supervisor.step] at hstep
      split at hstep
      · cases hstep
      · rename_i task hk
        exact h.move hk hcareful hstep
  | exit pid =>
      obtain ⟨process, hfind, rfl⟩ := Option.map_eq_some_iff.mp hstep
      exact h.exit hfind
  | other pid startTime => exact h.other hstep
  | crash =>
      simp only [Supervisor.step] at hstep
      split_ifs at hstep with hup
      exact Option.some.inj hstep ▸ h.crash hcareful
  | reap =>
      simp only [Supervisor.step] at hstep
      split_ifs at hstep with hup
      exact Option.some.inj hstep ▸ h.reap (by simpa using hup)

lemma orderly_empty : ({} : Supervisor).Orderly := by
  refine ⟨⟨?_, ?_, ?_, ?_, ?_, ?_⟩, ⟨?_, ?_, ?_, ?_, ?_, ?_⟩, ⟨?_, ?_, ?_, ?_, ?_⟩⟩
  all_goals simp [OnRecord, Live]

/-- At most one child a connector, each on record, none after its stop, and a launch after a
crash ends those that were left and no other process. -/
theorem one_child_each {steps : List Step} (hrun : run Supervisor.step {} steps = some s)
    (hcareful : Meets Supervisor.step Careful {} steps) :
    s.OneEach ∧ s.OnRecord ∧ s.Stopped ∧ s.ReapsOrphans := by
  have h : s.Orderly := run_invariant (I := fun _ s => s.Orderly) orderly_empty
    (fun _ _ _ _ _ hs hP hstep => hs.step hP hstep) hrun hcareful
  refine ⟨?_, h.files.onRecord, ?_, ?_⟩
  · intro pid pid' id process process' hlive hlive'
    exact h.files.alone pid pid' process process' id id hlive.1 hlive'.1 hlive.2.1 hlive'.2.1 rfl
  · intro pre post id k hsplit hstopped hstart pid process hlive
    exact h.stops.stopped pre post id k hsplit hstopped hstart pid process hlive.1 hlive.2.1
  · intro t hreap pid process
    simp only [Supervisor.step] at hreap
    split_ifs at hreap with hup
    obtain rfl := Option.some.inj hreap
    exact h.find_reap (by simpa using hup)

/-- A quick share, started and recorded when the app crashes, and the launch that follows. -/
def crashing : List Step :=
  [.start ⟨"qs", none⟩, .move 0 .go, .move 0 (.spawn 10 1), .move 0 (.record true),
    .other 20 1, .crash, .reap]

theorem one_child_each_crashing : ∃ s, run Supervisor.step {} crashing = some s ∧
    (s.processes.find 10).isNone = true ∧ (s.processes.find 20).isSome = true ∧
      s.OneEach ∧ s.OnRecord ∧ s.Stopped ∧ s.ReapsOrphans := by
  have hrun : run Supervisor.step {} crashing = some _ := rfl
  refine ⟨_, hrun, by decide, by decide, one_child_each hrun ?_⟩
  refine meets_cons rfl (fun _ task hmem => ?_) ?_
  · cases hmem
  refine meets_cons rfl trivial (meets_cons rfl trivial ?_)
  refine meets_cons rfl (fun _ _ _ _ _ _ _ => rfl) (meets_cons rfl trivial ?_)
  refine meets_cons rfl (fun pid id process hlive => ?_) (meets_cons rfl trivial trivial)
  have hmem := Table.find_eq_some_iff.mp hlive.1
  rcases List.mem_cons.mp hmem with heq | hmem
  · obtain ⟨rfl, rfl⟩ := Prod.mk.inj heq
    cases hlive.2.1
  · obtain ⟨rfl, rfl⟩ := Prod.mk.inj (List.mem_singleton.mp hmem)
    rfl

/-- A start while the stopped task still has its child. -/
def overlapping : List Step :=
  [.start ⟨"qs", none⟩, .move 0 .go, .move 0 (.spawn 10 1), .move 0 (.record true), .stop "qs",
    .start ⟨"qs", none⟩, .move 1 .go, .move 1 (.spawn 11 2), .move 1 (.record true),
    .move 0 .seeStop]

/-- Then two children of the connector are live, and the old one has lost its file. -/
theorem one_child_each_overlapping : ¬ ∀ steps s, run Supervisor.step {} steps = some s →
    s.OneEach ∧ s.OnRecord ∧ s.Stopped ∧ s.ReapsOrphans := by
  intro hall
  obtain ⟨hone, -⟩ := hall overlapping _ rfl
  have h := hone 10 11 "qs" _ _ ⟨rfl, rfl, rfl⟩ ⟨rfl, rfl, rfl⟩
  cases h

end Supervisor

end Teitunnel.Runtime
