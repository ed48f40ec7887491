import Teitunnel.Lib.Table

/-!
# Processes and their pidfiles

The processes of the computer as far as the registry looks at them, and the registry's
directory: one file a connector, named after its cleaned-up id.
-/

namespace Teitunnel.Runtime

abbrev ConnectorId := String

def MARKER : String := "teitunnel"

/-- A record of a process we started, so it can be found again after a force-quit. -/
structure PidRecord where
  marker : String
  pid : ℕ
  /-- Process start time, which makes PID reuse harmless. -/
  startTime : ℕ
  connector : ConnectorId
deriving DecidableEq

/-- A process: the child of a connector, or of some other program. -/
structure Process where
  startTime : ℕ
  connector : Option ConnectorId
  /-- It has exited, and its parent hasn't waited for it. -/
  exited : Bool := false
  /-- Its connector has been through `record`. -/
  recorded : Bool := false

abbrev Processes := Table ℕ Process

/-- What the system says of a pid; a process stays until it has been waited for. -/
def Processes.startTime (processes : Processes) (pid : ℕ) : Option ℕ :=
  (processes.find pid).map Process.startTime

structure PidRegistry where
  files : Table String PidRecord

namespace PidRegistry

def safe (c : Char) : Char := if c.isAlphanum || c = '-' then c else '_'

def path (id : ConnectorId) : String := String.ofList (id.toList.map safe) ++ ".json"

/-- Records a freshly spawned process; `written` says whether the file could be written. -/
def record (registry : PidRegistry) (processes : Processes) (id : ConnectorId) (pid : ℕ)
    (written : Bool) : PidRegistry :=
  match processes.startTime pid with
  | none => registry
  | some startTime =>
      if written then
        ⟨registry.files.insert (path id) { marker := MARKER, pid, startTime, connector := id }⟩
      else registry

/-- Forgets a process that has exited or been stopped. -/
def remove (registry : PidRegistry) (id : ConnectorId) : PidRegistry :=
  ⟨registry.files.erase (path id)⟩

/-- One entry of the directory: its process is stopped when pid and start time match. -/
def reapEntry (processes : Processes) (record : PidRecord) : Processes :=
  if record.marker = MARKER ∧ processes.startTime record.pid = some record.startTime then
    processes.erase record.pid
  else processes

/-- Stops processes recorded by a previous run that are still alive; the files go. -/
def reapOrphans (registry : PidRegistry) (processes : Processes) : Processes × PidRegistry :=
  (registry.files.entries.foldl (fun processes entry => reapEntry processes entry.2) processes,
    ⟨Table.empty⟩)

example : path "../qs/1" = "___qs_1.json" := by decide

/-! ## What reaping ends -/

variable {processes : Processes} {pid : ℕ} {p : Process}

lemma find_reapEntry (record : PidRecord) (pid : ℕ) :
    (reapEntry processes record).find pid =
      if record.marker = MARKER ∧ record.pid = pid ∧
          processes.startTime pid = some record.startTime then none
      else processes.find pid := by
  rw [reapEntry]
  by_cases hpid : record.pid = pid
  · subst hpid
    simp only [true_and]
    split_ifs with h
    · exact Table.find_erase_self
    · rfl
  · simp only [hpid, false_and, and_false, if_false]
    split_ifs with h
    · exact Table.find_erase_of_ne (Ne.symm hpid)
    · rfl

/-- What is left was there, and no entry names it. -/
lemma find_foldl_reapEntry {l : List (String × PidRecord)} :
    (l.foldl (fun processes entry => reapEntry processes entry.2) processes).find pid = some p ↔
      processes.find pid = some p ∧
        ∀ entry ∈ l, entry.2.marker = MARKER → entry.2.pid = pid →
          entry.2.startTime ≠ p.startTime := by
  induction l generalizing processes with
  | nil => simp
  | cons entry rest ih =>
      rw [List.foldl_cons, ih, find_reapEntry, List.forall_mem_cons]
      constructor
      · rintro ⟨hfind, hrest⟩
        split_ifs at hfind with hmatch
        refine ⟨hfind, fun hmarker hpid htime => hmatch ⟨hmarker, hpid, ?_⟩, hrest⟩
        rw [Processes.startTime, hfind, htime]
        rfl
      · rintro ⟨hfind, hentry, hrest⟩
        refine ⟨?_, hrest⟩
        rw [if_neg]
        · exact hfind
        · rintro ⟨hmarker, hpid, htime⟩
          rw [Processes.startTime, hfind] at htime
          exact hentry hmarker hpid (Option.some.inj htime).symm

/-- A process is left exactly when no record names it. -/
lemma find_reapOrphans {registry : PidRegistry} :
    (registry.reapOrphans processes).1.find pid = some p ↔
      processes.find pid = some p ∧
        ∀ name record, registry.files.find name = some record → record.marker = MARKER →
          record.pid = pid → record.startTime ≠ p.startTime := by
  rw [reapOrphans, find_foldl_reapEntry]
  refine and_congr_right fun _ => ⟨fun h name record hfind => ?_, fun h entry hmem => ?_⟩
  · exact h (name, record) (Table.find_eq_some_iff.mp hfind)
  · exact h entry.1 entry.2 (Table.find_eq_some_iff.mpr hmem)

end PidRegistry

end Teitunnel.Runtime
