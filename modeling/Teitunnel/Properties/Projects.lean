import Teitunnel.Lib.Lists
import Teitunnel.Lib.Runs
import Teitunnel.Project.Apply
import Teitunnel.Properties.DomainShares

/-!
# What a project is known to have created

A route is recorded as created by a project exactly when an apply of the project gave its place
the first rule that is there: as long as no apply finds a route that the project didn't record,
loses its record to a later refusal, or leaves what it can't undo, and nobody else removes what a
project added.
-/

namespace Teitunnel.Project

open Ledger Runs Except

namespace Task

def project : Task → Option String
  | applying project .. | removing project .. => some project
  | done => none

/-- What an apply of the project created and hasn't recorded. -/
def pending (P : String) : Task → List CreatedRoute
  | applying project _ created _ => if project = P then created else []
  | _ => []

/-- What a take-down of the project removed and hasn't forgotten. -/
def gone (P : String) : Task → List CreatedRoute
  | removing project _ _ gone => if project = P then gone else []
  | _ => []

lemma mem_pending {task : Task} {P : String} {r : CreatedRoute} : r ∈ task.pending P ↔
    ∃ account created stopped, task = .applying P account created stopped ∧ r ∈ created := by
  cases task with
  | applying project account created stopped =>
      dsimp only [pending]
      split_ifs with hproject
      · subst hproject
        exact ⟨fun hr => ⟨account, created, stopped, rfl, hr⟩, fun ⟨_, _, _, heq, hr⟩ => by
          cases heq; exact hr⟩
      · exact ⟨fun hr => absurd hr List.not_mem_nil, fun ⟨_, _, _, heq, _⟩ => by
          cases heq; exact absurd rfl hproject⟩
  | removing | done =>
      exact ⟨fun hr => absurd hr List.not_mem_nil, fun ⟨_, _, _, heq, _⟩ => by cases heq⟩

lemma mem_gone {task : Task} {P : String} {r : CreatedRoute} : r ∈ task.gone P ↔
    ∃ account todo gone, task = .removing P account todo gone ∧ r ∈ gone := by
  cases task with
  | removing project account todo gone =>
      dsimp only [Task.gone]
      split_ifs with hproject
      · subst hproject
        exact ⟨fun hr => ⟨account, todo, gone, rfl, hr⟩, fun ⟨_, _, _, heq, hr⟩ => by
          cases heq; exact hr⟩
      · exact ⟨fun hr => absurd hr List.not_mem_nil, fun ⟨_, _, _, heq, _⟩ => by
          cases heq; exact absurd rfl hproject⟩
  | applying | done =>
      exact ⟨fun hr => absurd hr List.not_mem_nil, fun ⟨_, _, _, heq, _⟩ => by cases heq⟩

/-- A task that holds a route of a project is about the project. -/
lemma project_of_pending {task : Task} {P : String} {r : CreatedRoute} (h : r ∈ task.pending P) :
    task.project = some P := by
  obtain ⟨_, _, _, rfl, -⟩ := mem_pending.mp h
  rfl

lemma project_of_gone {task : Task} {P : String} {r : CreatedRoute} (h : r ∈ task.gone P) :
    task.project = some P := by
  obtain ⟨_, _, _, rfl, -⟩ := mem_gone.mp h
  rfl

end Task

namespace Projects

variable [External]

/-- The project is recorded to have created a route at a place. -/
def Records (m : Projects) (P account : String) (place : Place) : Prop :=
  ∃ r ∈ m.created P, r.accountId = account ∧ r.place = .ok place

omit [External] in
/-- An apply of the project gave the place of a tunnel that did not have it its first rule, and
it has had one ever since. -/
def Added (m : Projects) (P account : String) (place : Place) : Prop :=
  ∃ tunnel, m.founder (account, tunnel) place = some (.project P)

/-- What is recorded is what was added. -/
def Exact (m : Projects) (P : String) : Prop :=
  ∀ account hostname path,
    m.Records P account (some hostname, path) ↔ m.Added P account (some hostname, path)

omit [External] in
/-- Nothing is being done about the project. -/
def Idle (m : Projects) (P : String) : Prop := ∀ task ∈ m.tasks, task.project ≠ some P

/-- Where a change of a route goes wrong: an apply is given up with routes it hasn't recorded, a
route that is there already is none of the project's (or one it knows is written otherwise), or a
new rule is left by a failed change. -/
def CarefulRoute (m : Projects) (P account : String) (created : List CreatedRoute)
    (change : Change) (tunnel : String) :
    Except ProjectError (Option (List IngressRule) × Ending) → Prop
  | .error _ => ∀ r ∈ created, r ∈ m.created P
  | .ok (after, ending) =>
      ((∃ ran, ending = .cut ran) → ∀ r ∈ created, r ∈ m.created P) ∧
      ∀ input place, change = .addRoute input →
        CreatedRoute.place ⟨account, input.hostname, input.path⟩ = .ok place →
        if ending = .applied then
          if m.rulesAt (account, tunnel) place = [] then
            ∀ r ∈ created ++ m.created P, r.accountId = account → r.place = .ok place →
              r = ⟨account, input.hostname, input.path⟩
          else ⟨account, input.hostname, input.path⟩ ∈ created ++ m.created P
        else m.rulesAt (account, tunnel) place = [] → Teitunnel.rulesAt after place = []

/-- Where a removal goes wrong: a route is taken from a tunnel the project didn't add it to, or
from one of several, or a failed removal leaves it removed. -/
def CarefulRemoval (m : Projects) (P account : String) (route : CreatedRoute)
    (gone : List CreatedRoute) (tunnel : String) :
    Except EngineError (Option (List IngressRule) × Ending) → Prop
  | .error _ => True
  | .ok (after, ending) =>
      ((∃ ran, ending = .cut ran) → gone = []) ∧
      ∀ place, route.place = .ok place →
        if ending = .applied then
          ∀ other, m.founder (account, other) place = some (.project P) ↔ other = tunnel
        else Teitunnel.rulesAt after place = [] → m.rulesAt (account, tunnel) place = []

/-- What every step meets for the record to stay exact. -/
def Careful (m : Projects) : Step → Prop
  | .apply P _ | .down P _ => m.Idle P
  | .route i change tunnel shown confirmed seen ending => ∀ P account created result,
      m.tasks[i]? = some (.applying P account created false) →
        applyRoute change shown confirmed seen ending = result →
          m.CarefulRoute P account created change tunnel result
  | .record i written => ∀ P account created stopped,
      m.tasks[i]? = some (.applying P account created stopped) → written = false →
        ∀ r ∈ created, r ∈ m.created P
  | .remove i tunnel previewed seen ending => ∀ P account route todo gone result,
      m.tasks[i]? = some (.removing P account (route :: todo) gone) →
        removeRoute route previewed seen ending = result →
          m.CarefulRemoval P account route gone tunnel result
  | .forget i written => ∀ P account gone,
      m.tasks[i]? = some (.removing P account [] gone) → written = false → gone = []
  | .crash i => ∀ task : Task, m.tasks[i]? = some task →
      ∀ P, (∀ r ∈ task.pending P, r ∈ m.created P) ∧ task.gone P = []
  | .outside account tunnel intent approval seen ending => ∀ after,
      Engine.apply intent approval ending seen = .ok after → ∀ P hostname path,
        m.founder (account, tunnel) (some hostname, path) = some (.project P) →
          Teitunnel.rulesAt after (some hostname, path) ≠ []

/-- An apply of the project added the route. -/
def Holds (m : Projects) (P : String) (r : CreatedRoute) : Prop :=
  ∃ hostname path, r.place = .ok (some hostname, path) ∧
    m.Added P r.accountId (some hostname, path)

/-- What an apply or a take-down on its way relies on. -/
def Sound (m : Projects) : Task → Prop
  | .applying P account created _ => ∀ r ∈ created, r.accountId = account ∧ m.Holds P r
  | .removing P account todo gone =>
      (∀ r ∈ todo, r.accountId = account ∧ r ∈ m.created P ∧ m.Holds P r) ∧ todo.Nodup ∧
        ∀ r ∈ gone, ¬ m.Holds P r
  | .done => True

omit [External] in
/-- The route is recorded as the project's, or about to be. -/
def Knows (m : Projects) (P : String) (r : CreatedRoute) : Prop :=
  r ∈ m.created P ∨ ∃ task ∈ m.tasks, r ∈ task.pending P

structure Orderly (m : Projects) : Prop where
  present : ∀ tunnel place by_, m.founder tunnel place = some by_ → m.rulesAt tunnel place ≠ []
  added : ∀ P account hostname path, m.Added P account (some hostname, path) →
    ∃ r, r.accountId = account ∧ r.place = .ok (some hostname, path) ∧ m.Knows P r
  recorded : ∀ P, ∀ r ∈ m.created P, m.Holds P r ∨ ∃ task ∈ m.tasks, r ∈ task.gone P
  tasks : ∀ (i : ℕ) (task : Task), m.tasks[i]? = some task → m.Sound task
  distinct : ∀ P r r', m.Knows P r → m.Knows P r' → r.accountId = r'.accountId →
    r.place = r'.place → r = r'
  nodup : ∀ P, (m.created P).Nodup
  apart : ∀ (i j : ℕ) (task task' : Task) (P : String), m.tasks[i]? = some task →
    m.tasks[j]? = some task' → task.project = some P → task'.project = some P → i = j

/-- Where nothing is being done about a project, its record is exact. -/
lemma Orderly.exact {m : Projects} {P : String} (h : Orderly m) (hidle : m.Idle P) :
    m.Exact P := by
  intro account hostname path
  constructor
  · rintro ⟨r, hr, rfl, hplace⟩
    rcases h.recorded P r hr with ⟨hostname', path', hplace', hadded⟩ | ⟨task, htask, hgone⟩
    · rw [hplace] at hplace'
      cases hplace'
      exact hadded
    · exact absurd (Task.project_of_gone hgone) (hidle task htask)
  · intro hadded
    obtain ⟨r, hacc, hplace, hknown⟩ := h.added _ _ _ _ hadded
    rcases hknown with hr | ⟨task, htask, hpending⟩
    · exact ⟨r, hr, hacc, hplace⟩
    · exact absurd (Task.project_of_pending hpending) (hidle task htask)

variable {m : Projects} {i : ℕ} {task : Task} {P account tunnel : String}
  {after : Option (List IngressRule)} {by_ : Maker}

/-! ## Changes of a tunnel -/

omit [External] in
lemma founder_change {hostname : String} {path : Option String} :
    (m.change account tunnel by_ after).founder (account, tunnel) (some hostname, path) =
      if Teitunnel.rulesAt after (some hostname, path) = [] then none
      else if m.rulesAt (account, tunnel) (some hostname, path) = [] then some by_
      else m.founder (account, tunnel) (some hostname, path) := Tunnels.founder_change

omit [External] in
lemma founder_change_of_ne {other : String × String} {place : Place}
    (hother : other ≠ (account, tunnel)) :
    (m.change account tunnel by_ after).founder other place = m.founder other place :=
  Tunnels.founder_change_of_ne hother

/-- The rules that stand at a place have someone who put the first of them there. -/
lemma Orderly.present_change (h : Orderly m) (other : String × String) (place : Place)
    (maker : Maker) (hmaker : (m.change account tunnel by_ after).founder other place = some maker) :
    (m.change account tunnel by_ after).rulesAt other place ≠ [] := by
  by_cases hother : other = (account, tunnel)
  · subst hother
    show Tunnels.rulesAt (m.toTunnels.change _ _ _) _ _ ≠ []
    rw [Tunnels.rulesAt_change]
    intro hnil
    rw [show (m.change account tunnel by_ after).founder (account, tunnel) place = _ from
      Tunnels.founder_change, if_pos hnil] at hmaker
    cases hmaker
  · show Tunnels.rulesAt (m.toTunnels.change _ _ _) _ _ ≠ []
    rw [Tunnels.rulesAt_change_of_ne hother]
    rw [founder_change_of_ne hother] at hmaker
    exact h.present _ _ _ hmaker

/-- At a place that a change gave no first rule and took no last one from, what the projects added
is what they had added before. -/
lemma Orderly.founder_kept {hostname : String} {path : Option String} (h : Orderly m)
    (hkept : m.rulesAt (account, tunnel) (some hostname, path) = [] ↔
      Teitunnel.rulesAt after (some hostname, path) = []) (P : String) :
    (m.change account tunnel by_ after).founder (account, tunnel) (some hostname, path) =
        some (.project P) ↔
      m.founder (account, tunnel) (some hostname, path) = some (.project P) := by
  rw [founder_change]
  by_cases hnil : Teitunnel.rulesAt after (some hostname, path) = []
  · rw [if_pos hnil]
    constructor
    · rintro ⟨⟩
    · intro hfounder
      exact absurd (hkept.mpr hnil) (h.present _ _ _ hfounder)
  · rw [if_neg hnil, if_neg fun hbefore => hnil (hkept.mp hbefore)]

/-- A change after which the projects added what they had added before. -/
lemma Orderly.change (h : Orderly m)
    (hsame : ∀ P hostname path,
      (m.change account tunnel by_ after).founder (account, tunnel) (some hostname, path) =
          some (.project P) ↔
        m.founder (account, tunnel) (some hostname, path) = some (.project P)) :
    Orderly (m.change account tunnel by_ after) := by
  have hfounder : ∀ P other hostname path,
      (m.change account tunnel by_ after).founder other (some hostname, path) =
          some (.project P) ↔
        m.founder other (some hostname, path) = some (.project P) := by
    intro P other hostname path
    by_cases hother : other = (account, tunnel)
    · rw [hother]
      exact hsame P hostname path
    · rw [founder_change_of_ne hother]
  have hadded : ∀ P acc hostname path,
      (m.change account tunnel by_ after).Added P acc (some hostname, path) ↔
        m.Added P acc (some hostname, path) :=
    fun P acc hostname path => exists_congr fun other => hfounder P (acc, other) hostname path
  have hholds : ∀ P r, (m.change account tunnel by_ after).Holds P r ↔ m.Holds P r :=
    fun P r => exists_congr fun hostname => exists_congr fun path =>
      and_congr_right fun _ => hadded P r.accountId hostname path
  refine ⟨h.present_change, ?_, ?_, ?_, h.distinct, h.nodup, h.apart⟩
  · intro P acc hostname path hadd
    exact h.added P acc hostname path ((hadded _ _ _ _).mp hadd)
  · intro P r hr
    exact (h.recorded P r hr).imp_left (hholds P r).mpr
  · intro j task hj
    have hsound := h.tasks j task hj
    cases task with
    | applying project acc created stopped =>
        exact fun r hr => ⟨(hsound r hr).1, (hholds _ r).mpr (hsound r hr).2⟩
    | removing project acc todo gone =>
        obtain ⟨htodo, hnodup, hgone⟩ := hsound
        exact ⟨fun r hr => ⟨(htodo r hr).1, (htodo r hr).2.1, (hholds _ r).mpr (htodo r hr).2.2⟩,
          hnodup, fun r hr hheld => hgone r hr ((hholds _ r).mp hheld)⟩
    | done => trivial

/-- No place with a hostname gets its first rule, or loses its last. -/
lemma Orderly.change_kept (h : Orderly m) (by_ : Maker)
    (hsame : ∀ hostname path, m.rulesAt (account, tunnel) (some hostname, path) = [] ↔
      Teitunnel.rulesAt after (some hostname, path) = []) :
    Orderly (m.change account tunnel by_ after) :=
  h.change fun P hostname path => h.founder_kept (hsame hostname path) P

/-! ## Tasks -/

omit [External] in
lemma goto_cases {j : ℕ} {task' : Task} (h : (m.goto i task).tasks[j]? = some task') :
    (j = i ∧ task' = task) ∨ (j ≠ i ∧ m.tasks[j]? = some task') := by
  rw [goto, List.getElem?_set] at h
  split_ifs at h with hij hlen
  · exact .inl ⟨hij.symm, (Option.some.inj h).symm⟩
  · exact .inr ⟨Ne.symm hij, h⟩

omit [External] in
lemma getElem?_goto {old : Task} (hi : m.tasks[i]? = some old) :
    (m.goto i task).tasks[i]? = some task :=
  List.getElem?_set_self (List.getElem?_eq_some_iff.mp hi).1

omit [External] in
/-- A task that another than the one that went on stays. -/
lemma mem_goto {old other : Task} (task : Task) (hi : m.tasks[i]? = some old) (hother : other ∈ m.tasks) :
    other = old ∨ other ∈ (m.goto i task).tasks := by
  obtain ⟨j, hj⟩ := List.mem_iff_getElem?.mp hother
  by_cases hij : j = i
  · subst hij
    exact .inl (Option.some.inj (hj.symm.trans hi))
  · refine .inr (List.mem_of_getElem? (i := j) ?_)
    rw [goto, List.getElem?_set_ne (Ne.symm hij)]
    exact hj

omit [External] in
lemma mem_goto_self {old : Task} (hi : m.tasks[i]? = some old) : task ∈ (m.goto i task).tasks :=
  List.mem_of_getElem? (getElem?_goto hi)

omit [External] in
/-- What is known when a task went on is what was, when it holds what it held or what is
recorded. -/
lemma knows_goto {old : Task} {Q : String} {r : CreatedRoute} (hi : m.tasks[i]? = some old)
    (hold : r ∈ old.pending Q → r ∈ m.created Q ∨ r ∈ task.pending Q)
    (hnew : r ∈ task.pending Q → m.Knows Q r) : (m.goto i task).Knows Q r ↔ m.Knows Q r := by
  constructor
  · rintro (hr | ⟨other, hother, hr⟩)
    · exact .inl hr
    · obtain ⟨j, hj⟩ := List.mem_iff_getElem?.mp hother
      rcases goto_cases hj with ⟨-, rfl⟩ | ⟨-, hbefore⟩
      · exact hnew hr
      · exact .inr ⟨other, List.mem_of_getElem? hbefore, hr⟩
  · rintro (hr | ⟨other, hother, hr⟩)
    · exact .inl hr
    · rcases mem_goto task hi hother with rfl | hstays
      · exact (hold hr).imp_right fun hr => ⟨task, mem_goto_self hi, hr⟩
      · exact .inr ⟨other, hstays, hr⟩

omit [External] in
/-- Two tasks are about different projects after one of them went on. -/
lemma apart_goto {old : Task} (hi : m.tasks[i]? = some old)
    (hproject : ∀ Q, task.project = some Q → old.project = some Q)
    (h : ∀ (i j : ℕ) (task task' : Task) (P : String), m.tasks[i]? = some task →
      m.tasks[j]? = some task' → task.project = some P → task'.project = some P → i = j)
    (j k : ℕ) (task₁ task₂ : Task) (Q : String) (hj : (m.goto i task).tasks[j]? = some task₁)
    (hk : (m.goto i task).tasks[k]? = some task₂) (hQ₁ : task₁.project = some Q)
    (hQ₂ : task₂.project = some Q) : j = k := by
  rcases goto_cases hj with ⟨rfl, rfl⟩ | ⟨-, hold₁⟩ <;>
    rcases goto_cases hk with ⟨rfl, rfl⟩ | ⟨-, hold₂⟩
  · rfl
  · exact h _ _ _ _ Q hi hold₂ (hproject Q hQ₁) hQ₂
  · exact h _ _ _ _ Q hold₁ hi hQ₁ (hproject Q hQ₂)
  · exact h _ _ _ _ Q hold₁ hold₂ hQ₁ hQ₂

/-- A task goes on with the routes it held or that are recorded. -/
lemma Orderly.goto {old : Task} (h : Orderly m) (hi : m.tasks[i]? = some old)
    (hsound : m.Sound task) (hproject : ∀ Q, task.project = some Q → old.project = some Q)
    (hold : ∀ Q, ∀ r ∈ old.pending Q, r ∈ m.created Q ∨ r ∈ task.pending Q)
    (hnew : ∀ Q, ∀ r ∈ task.pending Q, m.Knows Q r)
    (hgone : ∀ Q, ∀ r ∈ old.gone Q, r ∈ m.created Q → r ∈ task.gone Q) :
    Orderly (m.goto i task) := by
  have hknows : ∀ Q r, (m.goto i task).Knows Q r ↔ m.Knows Q r :=
    fun Q r => knows_goto hi (hold Q r) (hnew Q r)
  refine ⟨h.present, ?_, ?_, ?_, ?_, h.nodup, apart_goto hi hproject h.apart⟩
  · intro Q acc hostname path hadded
    obtain ⟨r, hacc, hplace, hr⟩ := h.added Q acc hostname path hadded
    exact ⟨r, hacc, hplace, (hknows Q r).mpr hr⟩
  · intro Q r hr
    rcases h.recorded Q r hr with hheld | ⟨other, hother, hrgone⟩
    · exact .inl hheld
    · rcases mem_goto task hi hother with rfl | hstays
      · exact .inr ⟨task, mem_goto_self hi, hgone Q r hrgone hr⟩
      · exact .inr ⟨other, hstays, hrgone⟩
  · intro j other hj
    rcases goto_cases hj with ⟨-, rfl⟩ | ⟨-, hbefore⟩
    · exact hsound
    · exact h.tasks j other hbefore
  · intro Q r r' hr hr'
    exact h.distinct Q r r' ((hknows Q r).mp hr) ((hknows Q r').mp hr')

/-- A task ends with nothing left to record or to forget. -/
lemma Orderly.finish {old : Task} (h : Orderly m) (hi : m.tasks[i]? = some old)
    (hpending : ∀ Q, ∀ r ∈ old.pending Q, r ∈ m.created Q)
    (hgone : ∀ Q, ∀ r ∈ old.gone Q, r ∉ m.created Q) : Orderly (m.goto i .done) := by
  refine h.goto hi trivial ?_ ?_ ?_ ?_
  · rintro Q ⟨⟩
  · exact fun Q r hr => .inl (hpending Q r hr)
  · exact fun Q r hr => absurd hr List.not_mem_nil
  · exact fun Q r hr hcreated => absurd hcreated (hgone Q r hr)

/-- An apply or a take-down begins of a project that nothing is done about. -/
lemma Orderly.push (h : Orderly m) (hsound : m.Sound task)
    (hidle : ∀ Q, task.project = some Q → m.Idle Q) (hpending : ∀ Q, task.pending Q = []) :
    Orderly { m with tasks := m.tasks ++ [task] } := by
  have hknows : ∀ Q r, Knows { m with tasks := m.tasks ++ [task] } Q r ↔ m.Knows Q r := by
    intro Q r
    refine or_congr_right ?_
    constructor
    · rintro ⟨other, hother, hr⟩
      rcases List.mem_append.mp hother with hother | hlast
      · exact ⟨other, hother, hr⟩
      · rw [List.mem_singleton.mp hlast, hpending] at hr
        exact absurd hr List.not_mem_nil
    · rintro ⟨other, hother, hr⟩
      exact ⟨other, List.mem_append_left _ hother, hr⟩
  refine ⟨h.present, ?_, ?_, ?_, ?_, h.nodup, ?_⟩
  · intro Q acc hostname path hadded
    obtain ⟨r, hacc, hplace, hr⟩ := h.added Q acc hostname path hadded
    exact ⟨r, hacc, hplace, (hknows Q r).mpr hr⟩
  · intro Q r hr
    refine (h.recorded Q r hr).imp_right ?_
    rintro ⟨other, hother, hrgone⟩
    exact ⟨other, List.mem_append_left _ hother, hrgone⟩
  · intro j other hj
    rcases List.getElem?_snoc_eq_some hj with ⟨-, rfl⟩ | ⟨-, hbefore⟩
    · exact hsound
    · exact h.tasks j other hbefore
  · intro Q r r' hr hr'
    exact h.distinct Q r r' ((hknows Q r).mp hr) ((hknows Q r').mp hr')
  · intro j k task₁ task₂ Q hj hk hQ₁ hQ₂
    rcases List.getElem?_snoc_eq_some hj with ⟨rfl, rfl⟩ | ⟨-, hold₁⟩ <;>
      rcases List.getElem?_snoc_eq_some hk with ⟨rfl, rfl⟩ | ⟨-, hold₂⟩
    · rfl
    · exact absurd hQ₂ (hidle Q hQ₁ task₂ (List.mem_of_getElem? hold₂))
    · exact absurd hQ₁ (hidle Q hQ₂ task₁ (List.mem_of_getElem? hold₁))
    · exact h.apart j k task₁ task₂ Q hold₁ hold₂ hQ₁ hQ₂

/-! ## Routes that are added and removed -/

section moved

variable {hostname : String} {path : Option String} {r : CreatedRoute} {stopped : Bool}
  {created todo gone : List CreatedRoute}

/-- A change of what stands at one place of a tunnel leaves who founded every other. -/
lemma Orderly.founder_elsewhere (h : Orderly m)
    (helse : ∀ name path', (some name, path') ≠ (some hostname, path) →
      (m.rulesAt (account, tunnel) (some name, path') = [] ↔
        Teitunnel.rulesAt after (some name, path') = []))
    {other : String × String} {name : String} {path' : Option String}
    (hne : ¬ (other = (account, tunnel) ∧ (some name, path') = (some hostname, path)))
    (Q : String) : (m.change account tunnel by_ after).founder other (some name, path') =
        some (.project Q) ↔ m.founder other (some name, path') = some (.project Q) := by
  by_cases hother : other = (account, tunnel)
  · rw [hother]
    exact h.founder_kept (helse name path' fun hplace => hne ⟨hother, hplace⟩) Q
  · rw [founder_change_of_ne hother]

/-- What a project that is applied is known to have created is what its apply or its record
says. -/
lemma Orderly.mem_of_knows (h : Orderly m)
    (hi : m.tasks[i]? = some (.applying P account created stopped)) (hr : m.Knows P r) :
    r ∈ created ++ m.created P := by
  rcases hr with hr | ⟨other, hother, hpending⟩
  · exact List.mem_append_right _ hr
  · obtain ⟨j, hj⟩ := List.mem_iff_getElem?.mp hother
    have hsame := h.apart _ _ _ _ P hj hi (Task.project_of_pending hpending) rfl
    rw [hsame, hi] at hj
    cases hj
    obtain ⟨_, _, _, heq, hr⟩ := Task.mem_pending.mp hpending
    cases heq
    exact List.mem_append_left _ hr

/-- What a project that is applied is recorded to have created, it added. -/
lemma Orderly.holds_of_recorded (h : Orderly m)
    (hi : m.tasks[i]? = some (.applying P account created stopped)) (hr : r ∈ m.created P) :
    m.Holds P r := by
  rcases h.recorded P r hr with hheld | ⟨other, hother, hgone⟩
  · exact hheld
  · obtain ⟨j, hj⟩ := List.mem_iff_getElem?.mp hother
    have hsame := h.apart _ _ _ _ P hj hi (Task.project_of_gone hgone) rfl
    rw [hsame, hi] at hj
    cases hj
    exact absurd hgone List.not_mem_nil

omit [External] in
/-- An apply knows one route more that it created. -/
lemma knows_new (hi : m.tasks[i]? = some (.applying P account created stopped)) (Q : String)
    (r' : CreatedRoute) :
    (m.goto i (.applying P account (created ++ [r]) false)).Knows Q r' ↔
      m.Knows Q r' ∨ (Q = P ∧ r' = r) := by
  constructor
  · rintro (hr' | ⟨other, hother, hr'⟩)
    · exact .inl (.inl hr')
    · obtain ⟨j, hj⟩ := List.mem_iff_getElem?.mp hother
      rcases goto_cases hj with ⟨-, rfl⟩ | ⟨-, hbefore⟩
      · obtain ⟨_, _, _, heq, hr'⟩ := Task.mem_pending.mp hr'
        cases heq
        rcases List.mem_append.mp hr' with hr' | hlast
        · exact .inl (.inr ⟨_, List.mem_of_getElem? hi, Task.mem_pending.mpr ⟨_, _, _, rfl, hr'⟩⟩)
        · exact .inr ⟨rfl, List.mem_singleton.mp hlast⟩
      · exact .inl (.inr ⟨other, List.mem_of_getElem? hbefore, hr'⟩)
  · rintro ((hr' | ⟨other, hother, hr'⟩) | ⟨rfl, rfl⟩)
    · exact .inl hr'
    · rcases mem_goto (m := m) (.applying P account (created ++ [r]) false) hi hother
        with rfl | hstays
      · obtain ⟨_, _, _, heq, hr'⟩ := Task.mem_pending.mp hr'
        cases heq
        exact .inr ⟨_, mem_goto_self (m := m) hi,
          Task.mem_pending.mpr ⟨_, _, _, rfl, List.mem_append_left _ hr'⟩⟩
      · exact .inr ⟨other, hstays, hr'⟩
    · exact .inr ⟨_, mem_goto_self (m := m) hi, Task.mem_pending.mpr
        ⟨_, _, _, rfl, List.mem_append_right _ (List.mem_singleton_self _)⟩⟩

/-- What the projects added once one of them gave a place its first rule. -/
lemma Orderly.added_new (h : Orderly m)
    (hfree : m.rulesAt (account, tunnel) (some hostname, path) = [])
    (hset : Teitunnel.rulesAt after (some hostname, path) ≠ [])
    (helse : ∀ name path', (some name, path') ≠ (some hostname, path) →
      (m.rulesAt (account, tunnel) (some name, path') = [] ↔
        Teitunnel.rulesAt after (some name, path') = []))
    (Q other acc name : String) (path' : Option String) :
    (m.change account tunnel (.project P) after).founder (acc, other) (some name, path') =
        some (.project Q) ↔
      m.founder (acc, other) (some name, path') = some (.project Q) ∨
        (Q = P ∧ (acc, other) = (account, tunnel) ∧
          (some name, path') = (some hostname, path)) := by
  by_cases hhere : (acc, other) = (account, tunnel) ∧ (some name, path') = (some hostname, path)
  · obtain ⟨hother, hplace⟩ := hhere
    rw [hother, hplace, founder_change, if_neg hset, if_pos hfree]
    constructor
    · intro hmaker
      cases hmaker
      exact .inr ⟨rfl, rfl, rfl⟩
    · rintro (hbefore | ⟨rfl, -, -⟩)
      · exact absurd hfree (h.present _ _ _ hbefore)
      · rfl
  · rw [h.founder_elsewhere helse hhere]
    exact ⟨.inl, fun hmaker => hmaker.resolve_right fun hnew => hhere hnew.2⟩

/-- What the projects added once a place that one of them added has no rule any more. -/
lemma Orderly.added_gone (h : Orderly m) (by_ : Maker)
    (hunset : Teitunnel.rulesAt after (some hostname, path) = [])
    (helse : ∀ name path', (some name, path') ≠ (some hostname, path) →
      (m.rulesAt (account, tunnel) (some name, path') = [] ↔
        Teitunnel.rulesAt after (some name, path') = []))
    (Q other acc name : String) (path' : Option String) :
    (m.change account tunnel by_ after).founder (acc, other) (some name, path') =
        some (.project Q) ↔
      m.founder (acc, other) (some name, path') = some (.project Q) ∧
        ¬ ((acc, other) = (account, tunnel) ∧ (some name, path') = (some hostname, path)) := by
  by_cases hhere : (acc, other) = (account, tunnel) ∧ (some name, path') = (some hostname, path)
  · have hgone : (m.change account tunnel by_ after).founder (acc, other) (some name, path') =
        none := by
      rw [hhere.1, hhere.2, founder_change, if_pos hunset]
    rw [hgone]
    exact ⟨nofun, fun hkept => absurd hhere hkept.2⟩
  · rw [h.founder_elsewhere helse hhere]
    exact ⟨fun hmaker => ⟨hmaker, hhere⟩, fun hmaker => hmaker.1⟩

/-- An apply adds a route that the tunnel did not have. -/
lemma Orderly.addNew (h : Orderly m)
    (hi : m.tasks[i]? = some (.applying P account created stopped))
    (hacc : r.accountId = account) (hplace : r.place = .ok (some hostname, path))
    (hfree : m.rulesAt (account, tunnel) (some hostname, path) = [])
    (hset : Teitunnel.rulesAt after (some hostname, path) ≠ [])
    (helse : ∀ name path', (some name, path') ≠ (some hostname, path) →
      (m.rulesAt (account, tunnel) (some name, path') = [] ↔
        Teitunnel.rulesAt after (some name, path') = []))
    (hnew : ∀ r' ∈ created ++ m.created P, r'.accountId = account → r'.place = r.place → r' = r) :
    Orderly ((m.change account tunnel (.project P) after).goto i
      (.applying P account (created ++ [r]) false)) := by
  set m' := (m.change account tunnel (.project P) after).goto i
    (.applying P account (created ++ [r]) false) with hm'
  have hfounder := h.added_new (P := P) hfree hset helse
  have hfounded : m'.founder (account, tunnel) (some hostname, path) = some (.project P) :=
    (hfounder P tunnel account hostname path).mpr (.inr ⟨rfl, rfl, rfl⟩)
  -- what was added is added still
  have hmono : ∀ Q r', m.Holds Q r' → m'.Holds Q r' := by
    rintro Q r' ⟨name, path', hplace', other, hmaker⟩
    exact ⟨name, path', hplace', other, (hfounder _ _ _ _ _).mpr (.inl hmaker)⟩
  have hheld : m'.Holds P r := ⟨hostname, path, hplace, tunnel, by rw [hacc]; exact hfounded⟩
  have hother : ∀ Q r', Q ≠ P → m'.Holds Q r' → m.Holds Q r' := by
    rintro Q r' hQ ⟨name, path', hplace', other, hmaker⟩
    rcases (hfounder _ _ _ _ _).mp hmaker with hbefore | ⟨hP, -, -⟩
    · exact ⟨name, path', hplace', other, hbefore⟩
    · exact absurd hP hQ
  -- the project is known to have created what it was, and the route
  have hknows : ∀ Q r', m'.Knows Q r' ↔ m.Knows Q r' ∨ (Q = P ∧ r' = r) := knows_new hi
  refine ⟨h.present_change, ?_, ?_, ?_, ?_, h.nodup, ?_⟩
  · rintro Q acc name path' ⟨other, hmaker⟩
    rcases (hfounder _ _ _ _ _).mp hmaker with hbefore | ⟨rfl, hat, hq⟩
    · obtain ⟨r', hacc', hplace', hr'⟩ := h.added Q acc name path' ⟨other, hbefore⟩
      exact ⟨r', hacc', hplace', (hknows Q r').mpr (.inl hr')⟩
    · cases hat
      exact ⟨r, hacc, hplace.trans (congrArg _ hq.symm), (hknows _ _).mpr (.inr ⟨rfl, rfl⟩)⟩
  · intro Q r' hr'
    rcases h.recorded Q r' hr' with hheld' | ⟨other, hother, hgone⟩
    · exact .inl (hmono Q r' hheld')
    · rcases mem_goto (m := m) (.applying P account (created ++ [r]) false) hi hother
        with rfl | hstays
      · exact absurd hgone List.not_mem_nil
      · exact .inr ⟨other, hstays, hgone⟩
  · intro j other hj
    rcases goto_cases hj with ⟨-, rfl⟩ | ⟨hne, hbefore⟩
    · intro r' hr'
      rcases List.mem_append.mp hr' with hr' | hlast
      · obtain ⟨hacc', hheld'⟩ := h.tasks _ _ hi r' hr'
        exact ⟨hacc', hmono P r' hheld'⟩
      · rw [List.mem_singleton.mp hlast]
        exact ⟨hacc, hheld⟩
    · have hsound := h.tasks j other hbefore
      cases other with
      | applying Q acc created' stopped' =>
          exact fun r' hr' => ⟨(hsound r' hr').1, hmono _ r' (hsound r' hr').2⟩
      | removing Q acc todo gone =>
          obtain ⟨htodo, hnodup, hgone⟩ := hsound
          refine ⟨fun r' hr' => ?_, hnodup, fun r' hr' hheld' => hgone r' hr' ?_⟩
          · exact ⟨(htodo r' hr').1, (htodo r' hr').2.1, hmono _ r' (htodo r' hr').2.2⟩
          · refine hother Q r' ?_ hheld'
            rintro rfl
            exact hne (h.apart _ _ _ _ Q hbefore hi rfl rfl)
      | done => trivial
  · intro Q r₁ r₂ hr₁ hr₂ hacc' hplace'
    rcases (hknows _ _).mp hr₁ with hold₁ | ⟨hQ₁, hnew₁⟩ <;>
      rcases (hknows _ _).mp hr₂ with hold₂ | ⟨hQ₂, hnew₂⟩
    · exact h.distinct Q r₁ r₂ hold₁ hold₂ hacc' hplace'
    · subst hQ₂ hnew₂
      exact hnew r₁ (h.mem_of_knows hi hold₁) (hacc'.trans hacc) hplace'
    · subst hQ₁ hnew₁
      exact (hnew r₂ (h.mem_of_knows hi hold₂) (hacc'.symm.trans hacc) hplace'.symm).symm
    · exact hnew₁.trans hnew₂.symm
  · exact apart_goto hi (fun _ hQ => hQ) h.apart

/-- A take-down removes a route from the tunnel that the project added it to. -/
lemma Orderly.removeOld (h : Orderly m)
    (hi : m.tasks[i]? = some (.removing P account (r :: todo) gone))
    (hplace : r.place = .ok (some hostname, path))
    (hfounder : ∀ other, m.founder (account, other) (some hostname, path) = some (.project P) ↔
      other = tunnel)
    (hunset : Teitunnel.rulesAt after (some hostname, path) = [])
    (helse : ∀ name path', (some name, path') ≠ (some hostname, path) →
      (m.rulesAt (account, tunnel) (some name, path') = [] ↔
        Teitunnel.rulesAt after (some name, path') = [])) :
    Orderly ((m.change account tunnel (.project P) after).goto i
      (.removing P account todo (gone ++ [r]))) := by
  set m' := (m.change account tunnel (.project P) after).goto i
    (.removing P account todo (gone ++ [r]))
  have hadded := h.added_gone (.project P) hunset helse
  obtain ⟨htodo, hnodup, hgone⟩ := h.tasks _ _ hi
  obtain ⟨hr, hnodup⟩ := List.nodup_cons.mp hnodup
  obtain ⟨hacc, hrecorded, -⟩ := htodo r (List.mem_cons_self ..)
  have hmono : ∀ Q r', m'.Holds Q r' → m.Holds Q r' := by
    rintro Q r' ⟨name, path', hplace', other, hmaker⟩
    exact ⟨name, path', hplace', other, ((hadded _ _ _ _ _).mp hmaker).1⟩
  -- what another project added, or at another place, is there still
  have hkept : ∀ Q r', m.Holds Q r' → (Q = P → r'.accountId = account → r'.place ≠ r.place) →
      m'.Holds Q r' := by
    rintro Q r' ⟨name, path', hplace', other, hmaker⟩ hne
    refine ⟨name, path', hplace', other, (hadded _ _ _ _ _).mpr ⟨hmaker, ?_⟩⟩
    rintro ⟨hat, hq⟩
    rw [hat, hq, (hfounder tunnel).mpr rfl] at hmaker
    cases hmaker
    exact hne rfl (congrArg Prod.fst hat) (by rw [hplace', hplace, hq])
  have hremoved : ¬ m'.Holds P r := by
    rintro ⟨name, path', hplace', other, hmaker⟩
    rw [hplace] at hplace'
    cases hplace'
    rw [hacc] at hmaker
    obtain ⟨hmaker, hne⟩ := (hadded _ _ _ _ _).mp hmaker
    exact hne ⟨by rw [(hfounder other).mp hmaker], rfl⟩
  have hknows : ∀ Q r', m'.Knows Q r' ↔ m.Knows Q r' := fun Q r' =>
    knows_goto (m := m.change account tunnel (.project P) after) hi
      (fun hr' => absurd hr' List.not_mem_nil) fun hr' => absurd hr' List.not_mem_nil
  refine ⟨h.present_change, ?_, ?_, ?_, ?_, h.nodup, ?_⟩
  · rintro Q acc name path' ⟨other, hmaker⟩
    obtain ⟨r', hacc', hplace', hr'⟩ :=
      h.added Q acc name path' ⟨other, ((hadded _ _ _ _ _).mp hmaker).1⟩
    exact ⟨r', hacc', hplace', (hknows Q r').mpr hr'⟩
  · intro Q r' hr'
    rcases h.recorded Q r' hr' with hheld | ⟨other, hother, hrgone⟩
    · by_cases hthis : Q = P ∧ r' = r
      · obtain ⟨rfl, rfl⟩ := hthis
        exact .inr ⟨_, mem_goto_self (m := m) hi, Task.mem_gone.mpr
          ⟨_, _, _, rfl, List.mem_append_right _ (List.mem_singleton_self _)⟩⟩
      · refine .inl (hkept Q r' hheld ?_)
        rintro rfl hacc' hsame
        exact hthis ⟨rfl, h.distinct Q r' r (.inl hr') (.inl hrecorded) (hacc'.trans hacc.symm) hsame⟩
    · rcases mem_goto (m := m) (.removing P account todo (gone ++ [r])) hi hother
        with rfl | hstays
      · obtain ⟨_, _, _, heq, hrgone⟩ := Task.mem_gone.mp hrgone
        cases heq
        exact .inr ⟨_, mem_goto_self (m := m) hi,
          Task.mem_gone.mpr ⟨_, _, _, rfl, List.mem_append_left _ hrgone⟩⟩
      · exact .inr ⟨other, hstays, hrgone⟩
  · intro j other hj
    rcases goto_cases hj with ⟨-, rfl⟩ | ⟨hne, hbefore⟩
    · refine ⟨fun r' hr' => ?_, hnodup, fun r' hr' => ?_⟩
      · obtain ⟨hacc', hrecorded', hheld⟩ := htodo r' (List.mem_cons_of_mem _ hr')
        refine ⟨hacc', hrecorded', hkept P r' hheld fun _ _ hsame => ?_⟩
        have heq := h.distinct P r' r (.inl hrecorded') (.inl hrecorded) (hacc'.trans hacc.symm) hsame
        rw [heq] at hr'
        exact hr hr'
      · rcases List.mem_append.mp hr' with hr' | hlast
        · exact fun hheld => hgone r' hr' (hmono P r' hheld)
        · rw [List.mem_singleton.mp hlast]
          exact hremoved
    · have hsound := h.tasks j other hbefore
      have hothers : ∀ Q r', other.project = some Q → m.Holds Q r' → m'.Holds Q r' := by
        intro Q r' hQ hheld
        refine hkept Q r' hheld ?_
        rintro rfl
        exact absurd (h.apart _ _ _ _ Q hbefore hi hQ rfl) hne
      cases other with
      | applying Q acc created' stopped' =>
          exact fun r' hr' => ⟨(hsound r' hr').1, hothers Q r' rfl (hsound r' hr').2⟩
      | removing Q acc todo' gone' =>
          obtain ⟨htodo', hnodup', hgone'⟩ := hsound
          refine ⟨fun r' hr' => ?_, hnodup', fun r' hr' hheld' => hgone' r' hr' (hmono Q r' hheld')⟩
          exact ⟨(htodo' r' hr').1, (htodo' r' hr').2.1, hothers Q r' rfl (htodo' r' hr').2.2⟩
      | done => trivial
  · intro Q r₁ r₂ hr₁ hr₂
    exact h.distinct Q r₁ r₂ ((hknows Q r₁).mp hr₁) ((hknows Q r₂).mp hr₂)
  · exact apart_goto hi (fun _ hQ => hQ) h.apart

end moved

/-! ## The registry -/

section registry

variable {created gone : List CreatedRoute} {stopped : Bool} {r : CreatedRoute}

omit [External] in
lemma mem_remember {known : List CreatedRoute} :
    r ∈ remember known created ↔ r ∈ known ∨ r ∈ created := by
  unfold remember
  induction created generalizing known with
  | nil => simp
  | cons first rest ih =>
      rw [List.foldl_cons, ih]
      split_ifs with hknown
      · constructor
        · exact Or.imp_right (List.mem_cons_of_mem _)
        · rintro (hr | hr)
          · exact .inl hr
          · rcases List.mem_cons.mp hr with rfl | hr
            · exact .inl hknown
            · exact .inr hr
      · rw [List.mem_append, List.mem_singleton, List.mem_cons, or_assoc]

omit [External] in
lemma nodup_remember {known : List CreatedRoute} (h : known.Nodup) :
    (remember known created).Nodup := by
  unfold remember
  induction created generalizing known with
  | nil => exact h
  | cons first rest ih =>
      rw [List.foldl_cons]
      split_ifs with hknown
      · exact ih h
      · refine ih (List.nodup_append.mpr ⟨h, List.nodup_singleton _, ?_⟩)
        intro a ha b hb hab
        rw [hab, List.mem_singleton.mp hb] at ha
        exact hknown ha

omit [External] in
lemma created_applied (Q : String) : (m.applied P created).created Q =
    if Q = P then remember (m.created P) created else m.created Q := by
  show Function.update m.created P _ Q = _
  rw [Function.update_apply]

omit [External] in
lemma created_removed (Q : String) : (m.removed P gone).created Q =
    if Q = P then (m.created P).filter (fun route => route ∉ gone) else m.created Q := by
  show Function.update m.created P _ Q = _
  rw [Function.update_apply]

/-- An apply's routes are recorded. -/
lemma Orderly.applied (h : Orderly m)
    (hi : m.tasks[i]? = some (.applying P account created stopped)) :
    Orderly (m.applied P created) := by
  have hcreated : ∀ Q r, r ∈ (m.applied P created).created Q ↔
      r ∈ m.created Q ∨ (Q = P ∧ r ∈ created) := by
    intro Q r
    rw [created_applied]
    split_ifs with hQ
    · subst hQ
      rw [mem_remember]
      simp
    · simp [hQ]
  have hknows : ∀ Q r, (m.applied P created).Knows Q r ↔ m.Knows Q r := by
    intro Q r
    constructor
    · rintro (hr | hr)
      · rcases (hcreated Q r).mp hr with hbefore | ⟨rfl, hnew⟩
        · exact .inl hbefore
        · exact .inr ⟨_, List.mem_of_getElem? hi, Task.mem_pending.mpr ⟨_, _, _, rfl, hnew⟩⟩
      · exact .inr hr
    · rintro (hr | hr)
      · exact .inl ((hcreated Q r).mpr (.inl hr))
      · exact .inr hr
  refine ⟨h.present, ?_, ?_, ?_, ?_, ?_, h.apart⟩
  · intro Q acc hostname path hadded
    obtain ⟨r, hacc, hplace, hr⟩ := h.added Q acc hostname path hadded
    exact ⟨r, hacc, hplace, (hknows Q r).mpr hr⟩
  · intro Q r hr
    rcases (hcreated Q r).mp hr with hbefore | ⟨rfl, hnew⟩
    · exact h.recorded Q r hbefore
    · exact .inl (h.tasks _ _ hi r hnew).2
  · intro j task hj
    have hsound := h.tasks j task hj
    cases task with
    | applying Q acc created' stopped' => exact hsound
    | removing Q acc todo gone =>
        refine ⟨fun r hr => ?_, hsound.2⟩
        obtain ⟨hacc, hrecorded, hheld⟩ := hsound.1 r hr
        exact ⟨hacc, (hcreated Q r).mpr (.inl hrecorded), hheld⟩
    | done => trivial
  · intro Q r r' hr hr'
    exact h.distinct Q r r' ((hknows Q r).mp hr) ((hknows Q r').mp hr')
  · intro Q
    rw [created_applied]
    split_ifs
    · exact nodup_remember (h.nodup P)
    · exact h.nodup Q

/-- The routes that a take-down removed are forgotten. -/
lemma Orderly.removed (h : Orderly m)
    (hi : m.tasks[i]? = some (.removing P account [] gone)) : Orderly (m.removed P gone) := by
  have hgone := (h.tasks _ _ hi).2.2
  have hcreated : ∀ Q r, r ∈ (m.removed P gone).created Q ↔
      r ∈ m.created Q ∧ (Q = P → r ∉ gone) := by
    intro Q r
    rw [created_removed]
    split_ifs with hQ
    · subst hQ
      rw [List.mem_filter]
      simp
    · simp [hQ]
  have hknows : ∀ Q r, (m.removed P gone).Knows Q r → m.Knows Q r :=
    fun Q r hr => hr.imp_left fun hr => ((hcreated Q r).mp hr).1
  refine ⟨h.present, ?_, ?_, ?_, ?_, ?_, h.apart⟩
  · intro Q acc hostname path hadded
    obtain ⟨r, hacc, hplace, hr⟩ := h.added Q acc hostname path hadded
    refine ⟨r, hacc, hplace, hr.imp_left fun hr => (hcreated Q r).mpr ⟨hr, ?_⟩⟩
    rintro rfl hrgone
    exact hgone r hrgone ⟨hostname, path, hplace, hacc ▸ hadded⟩
  · intro Q r hr
    exact h.recorded Q r ((hcreated Q r).mp hr).1
  · intro j task hj
    have hsound := h.tasks j task hj
    cases task with
    | applying Q acc created' stopped' => exact hsound
    | removing Q acc todo gone' =>
        refine ⟨fun r hr => ?_, hsound.2⟩
        obtain ⟨hacc, hrecorded, hheld⟩ := hsound.1 r hr
        refine ⟨hacc, (hcreated Q r).mpr ⟨hrecorded, ?_⟩, hheld⟩
        rintro rfl hrgone
        exact hgone r hrgone hheld
    | done => trivial
  · intro Q r r' hr hr'
    exact h.distinct Q r r' (hknows Q r hr) (hknows Q r' hr')
  · intro Q
    rw [created_removed]
    split_ifs
    · exact (h.nodup P).filter _
    · exact h.nodup Q

end registry

/-! ## Steps -/

section steps

variable {created todo gone : List CreatedRoute} {route : CreatedRoute} {change : Change}
  {shown confirmed : Bool} {seen : Option Snapshot} {ending : Ending}

/-- The place that a created route's input is for. -/
lemma place_of_toSpec {input : RouteInput} {spec : RouteSpec} (account : String)
    (h : input.toSpec = .ok spec) :
    CreatedRoute.place ⟨account, input.hostname, input.path⟩ =
      .ok (some spec.hostname.asStr, spec.path.map PathRule.asStr) := by
  obtain ⟨hparse, hpath⟩ := toSpec_ok h
  have hhostname : parseHostname input.hostname = .ok spec.hostname := mapError_eq_ok.mpr hparse
  unfold CreatedRoute.place
  simp only [hhostname, hpath]
  rfl

lemma toIntent_updateRoute {input : RouteInput} {intent : Intent}
    (h : (Change.updateRoute input).toIntent = .ok intent) :
    ∃ spec, input.toSpec = .ok spec ∧
      intent = .updateRoute spec.hostname spec.path spec := by
  unfold Change.toIntent at h
  obtain ⟨spec, hspec, rfl⟩ := map_eq_ok.mp h
  exact ⟨spec, hspec, rfl⟩

lemma toIntent_addRoute {input : RouteInput} {intent : Intent}
    (h : (Change.addRoute input).toIntent = .ok intent) :
    ∃ spec, input.toSpec = .ok spec ∧ intent = .addRoute spec := by
  unfold Change.toIntent at h
  obtain ⟨spec, hspec, rfl⟩ := map_eq_ok.mp h
  exact ⟨spec, hspec, rfl⟩

omit [External] in
lemma rulesAt_of_sees {s : Snapshot} {tunnel : String × String} (h : m.Sees tunnel (some s))
    (place : Place) : Teitunnel.rulesAt s.ingress place = m.rulesAt tunnel place := by
  rw [Tunnels.rulesAt, h s rfl]

/-- An apply of a route leaves the tunnel as a run of the route's plan leaves it. -/
lemma applyRoute_ok {ended : Ending}
    (h : applyRoute change shown confirmed seen ending = .ok (after, ended)) :
    ∃ intent s p, change.toIntent = .ok intent ∧ seen = some s ∧ plan intent s = .ok p ∧
      after = ended.ingress s p := by
  unfold applyRoute at h
  obtain ⟨intent, hintent, h⟩ := bind_eq_ok.mp h
  obtain ⟨p, hpreview, h⟩ := bind_eq_ok.mp h
  have hintent := mapError_eq_ok.mp hintent
  obtain ⟨s, rfl, hplan⟩ := preview_ok (mapError_eq_ok.mp hpreview)
  refine ⟨intent, s, p, hintent, rfl, hplan, ?_⟩
  split_ifs at h with hsteps
  · cases h
    refine (ingress_of_isEmpty ?_).symm
    rw [Plan.isEmpty, hsteps]
    rfl
  · simp only [bind_eq_ok, pure_eq_ok, Prod.mk.injEq] at h
    obtain ⟨-, -, after', happly, rfl, rfl⟩ := h
    obtain ⟨s', p', hs, hplan', rfl⟩ := apply_ok (mapError_eq_ok.mp happly)
    cases hs
    rw [hplan] at hplan'
    cases hplan'
    rfl

/-- A removal leaves the tunnel as a run of its plan leaves it. -/
lemma removeRoute_ok {previewed : Option Snapshot} {ended : Ending}
    (h : removeRoute route previewed seen ending = .ok (after, ended)) :
    ∃ hostname path s p, route.place = .ok (some hostname.asStr, path.map PathRule.asStr) ∧
      seen = some s ∧ plan (.removeRoute hostname path) s = .ok p ∧ after = ended.ingress s p := by
  unfold removeRoute at h
  obtain ⟨hostname, hhostname, h⟩ := bind_eq_ok.mp h
  obtain ⟨path, hpath, h⟩ := bind_eq_ok.mp h
  obtain ⟨p, hpreview, hrun⟩ := bind_eq_ok.mp h
  obtain ⟨s, rfl, hplan⟩ := preview_ok hpreview
  -- the plan takes away a rule that is there
  have hsteps : ¬ p.isEmpty = true := by
    intro hempty
    have hgone := removeRoute_applied hplan
    rw [ingress_of_isEmpty hempty] at hgone
    exact removeRoute_there hplan hgone
  rw [if_neg hsteps] at hrun
  simp only [bind_eq_ok, pure_eq_ok, Prod.mk.injEq] at hrun
  obtain ⟨after', happly, rfl, rfl⟩ := hrun
  obtain ⟨s', p', rfl, hplan', rfl⟩ := apply_ok happly
  refine ⟨hostname, path, s', p', ?_, rfl, hplan', rfl⟩
  unfold CreatedRoute.place
  simp only [hhostname, hpath]
  rfl

/-- An apply of a project goes on. -/
lemma Orderly.applyNext (h : Orderly m)
    (hi : m.tasks[i]? = some (.applying P account created false))
    (hsees : m.Sees (account, tunnel) seen)
    (hcareful : ∀ result, applyRoute change shown confirmed seen ending = result →
      m.CarefulRoute P account created change tunnel result) :
    Orderly (m.applyNext i P account created change tunnel shown confirmed seen ending) := by
  unfold Projects.applyNext
  have hsound := h.tasks _ _ hi
  have hfinish : ∀ {m' : Projects}, Orderly m' →
      m'.tasks[i]? = some (.applying P account created false) →
      (∀ r ∈ created, r ∈ m'.created P) → Orderly (m'.goto i .done) := by
    intro m' h' hi' hrecorded
    refine h'.finish hi' (fun Q r hr => ?_) fun Q r hr => absurd hr List.not_mem_nil
    obtain ⟨_, _, _, heq, hr⟩ := Task.mem_pending.mp hr
    cases heq
    exact hrecorded r hr
  cases hroute : applyRoute change shown confirmed seen ending with
  | error e =>
      exact hfinish h hi (hcareful _ hroute)
  | ok result =>
      obtain ⟨after, ended⟩ := result
      obtain ⟨hcut, hadd⟩ := hcareful _ hroute
      obtain ⟨intent, s, p, hintent, rfl, hplan, rfl⟩ := applyRoute_ok hroute
      -- a change after which every place has rules, or none, as before
      have hkept : (∀ hostname path, m.rulesAt (account, tunnel) (some hostname, path) = [] ↔
          Teitunnel.rulesAt (ended.ingress s p) (some hostname, path) = []) → ∀ stopped new,
          (∀ r ∈ new, r ∈ created ∨ r ∈ m.created P ∧ r.accountId = account) →
          (∀ r ∈ created, r ∈ new) →
          Orderly ((m.change account tunnel (.project P) (ended.ingress s p)).goto i
            (.applying P account new stopped)) := by
        intro hsame stopped new hnew hold
        have hchange := h.change_kept (.project P) hsame
        refine hchange.goto hi (fun r hr => ?_) (fun _ hQ => hQ) ?_ ?_ fun Q r hr =>
          absurd hr List.not_mem_nil
        · rcases hnew r hr with hr | ⟨hr, hacc⟩
          · exact hchange.tasks _ _ hi r hr
          · exact ⟨hacc, hchange.holds_of_recorded hi hr⟩
        · intro Q r hr
          obtain ⟨_, _, _, heq, hr⟩ := Task.mem_pending.mp hr
          cases heq
          exact .inr (Task.mem_pending.mpr ⟨_, _, _, rfl, hold r hr⟩)
        · intro Q r hr
          obtain ⟨_, _, _, heq, hr⟩ := Task.mem_pending.mp hr
          cases heq
          rcases hnew r hr with hr | ⟨hr, -⟩
          · exact .inr ⟨_, List.mem_of_getElem? hi, Task.mem_pending.mpr ⟨_, _, _, rfl, hr⟩⟩
          · exact .inl hr
      cases change with
      | updateRoute input =>
          obtain ⟨spec, -, rfl⟩ := toIntent_updateRoute hintent
          have hsame : ∀ hostname path, m.rulesAt (account, tunnel) (some hostname, path) = [] ↔
              Teitunnel.rulesAt (ended.ingress s p) (some hostname, path) = [] := by
            intro hostname path
            rw [← rulesAt_of_sees hsees]
            exact updateRoute_places hplan ended (Option.some_ne_none _)
          have hchange := h.change_kept (.project P) hsame
          cases ended with
          | applied => exact hkept hsame false created (fun _ hr => .inl hr) fun _ hr => hr
          | rolledBack | partiallyApplied =>
              exact hkept hsame true created (fun _ hr => .inl hr) fun _ hr => hr
          | cut ran => exact hfinish hchange hi (hcut ⟨ran, rfl⟩)
      | addRoute input =>
          obtain ⟨spec, hspec, rfl⟩ := toIntent_addRoute hintent
          have hplace := place_of_toSpec account hspec
          have helse : ∀ name path', (some name, path') ≠ spec.toRule.key →
              (m.rulesAt (account, tunnel) (some name, path') = [] ↔
                Teitunnel.rulesAt (ended.ingress s p) (some name, path') = []) := by
            intro name path' hne
            rw [← rulesAt_of_sees hsees]
            exact (addRoute_elsewhere hplan ended (Option.some_ne_none _) hne).eq_nil
          have hthere : m.rulesAt (account, tunnel) spec.toRule.key ≠ [] →
              Teitunnel.rulesAt (ended.ingress s p) spec.toRule.key ≠ [] := by
            intro hrules hnil
            rw [← rulesAt_of_sees hsees] at hrules
            exact hrules ((addRoute_kept hplan ended hrules).eq_nil.mpr hnil)
          have hhere := hadd input spec.toRule.key rfl hplace
          have hsame : (m.rulesAt (account, tunnel) spec.toRule.key = [] →
              Teitunnel.rulesAt (ended.ingress s p) spec.toRule.key = []) →
              ∀ hostname path, m.rulesAt (account, tunnel) (some hostname, path) = [] ↔
                Teitunnel.rulesAt (ended.ingress s p) (some hostname, path) = [] := by
            intro hnil hostname path
            by_cases hat : (some hostname, path) = spec.toRule.key
            · rw [hat]
              exact ⟨hnil, fun hafter => not_not.mp fun hrules => hthere hrules hafter⟩
            · exact helse hostname path hat
          cases ended with
          | applied =>
              rw [if_pos rfl] at hhere
              split_ifs at hhere with hrules
              · refine h.addNew hi rfl hplace hrules (addRoute_applied hplan) helse ?_
                intro r hr hacc hsame
                exact hhere r hr hacc (hsame.trans hplace)
              · refine hkept (hsame fun hnil => absurd hnil hrules) false _ (fun r hr => ?_)
                  fun r hr => List.mem_append_left _ hr
                rcases List.mem_append.mp hr with hr | hlast
                · exact .inl hr
                · rw [List.mem_singleton.mp hlast]
                  exact (List.mem_append.mp hhere).imp_right fun hr => ⟨hr, rfl⟩
          | rolledBack | partiallyApplied =>
              exact hkept (hsame hhere) true created (fun _ hr => .inl hr) fun _ hr => hr
          | cut ran =>
              have hchange := h.change_kept (.project P) (hsame hhere)
              exact hfinish hchange hi (hcut ⟨ran, rfl⟩)

/-- A take-down of a project goes on. -/
lemma Orderly.removeNext {previewed : Option Snapshot} (h : Orderly m)
    (hi : m.tasks[i]? = some (.removing P account (route :: todo) gone))
    (hsees : m.Sees (account, tunnel) seen)
    (hcareful : ∀ result, removeRoute route previewed seen ending = result →
      m.CarefulRemoval P account route gone tunnel result) :
    Orderly (m.removeNext i P account route todo gone tunnel previewed seen ending) := by
  unfold Projects.removeNext
  have hstays : ∀ {m' : Projects}, Orderly m' →
      m'.tasks[i]? = some (.removing P account (route :: todo) gone) →
      Orderly (m'.goto i (.removing P account todo gone)) := by
    intro m' h' hi'
    obtain ⟨htodo, hnodup, hgone⟩ := h'.tasks _ _ hi'
    refine h'.goto hi' ⟨fun r hr => htodo r (List.mem_cons_of_mem _ hr),
      (List.nodup_cons.mp hnodup).2, hgone⟩ (fun _ hQ => hQ) ?_ ?_ ?_
    · exact fun Q r hr => absurd hr List.not_mem_nil
    · exact fun Q r hr => absurd hr List.not_mem_nil
    · intro Q r hr _
      obtain ⟨_, _, _, heq, hr⟩ := Task.mem_gone.mp hr
      cases heq
      exact Task.mem_gone.mpr ⟨_, _, _, rfl, hr⟩
  cases hremove : removeRoute route previewed seen ending with
  | error e => exact hstays h hi
  | ok result =>
      obtain ⟨after, ended⟩ := result
      obtain ⟨hcut, hat⟩ := hcareful _ hremove
      obtain ⟨hostname, path, s, p, hplace, rfl, hplan, rfl⟩ := removeRoute_ok hremove
      have hhere := hat _ hplace
      have helse : ∀ name path', (some name, path') ≠
          (some hostname.asStr, path.map PathRule.asStr) →
          (m.rulesAt (account, tunnel) (some name, path') = [] ↔
            Teitunnel.rulesAt (ended.ingress s p) (some name, path') = []) := by
        intro name path' hne
        rw [← rulesAt_of_sees hsees]
        exact (removeRoute_elsewhere hplan ended (Option.some_ne_none _) hne).eq_nil
      have hthere : m.rulesAt (account, tunnel)
          (some hostname.asStr, path.map PathRule.asStr) ≠ [] := by
        rw [← rulesAt_of_sees hsees]
        exact removeRoute_there hplan
      have hkept : (Teitunnel.rulesAt (ended.ingress s p)
            (some hostname.asStr, path.map PathRule.asStr) = [] →
          m.rulesAt (account, tunnel) (some hostname.asStr, path.map PathRule.asStr) = []) →
          Orderly (m.change account tunnel (.project P) (ended.ingress s p)) := by
        intro hnil
        refine h.change_kept _ fun name path' => ?_
        by_cases hsame : (some name, path') = (some hostname.asStr, path.map PathRule.asStr)
        · rw [hsame]
          exact ⟨fun hbefore => absurd hbefore hthere, hnil⟩
        · exact helse name path' hsame
      cases ended with
      | applied => exact h.removeOld hi hplace hhere (removeRoute_applied hplan) helse
      | rolledBack | partiallyApplied => exact hstays (hkept hhere) hi
      | cut ran =>
          refine (hkept hhere).finish hi ?_ ?_
          · exact fun Q r hr => absurd hr List.not_mem_nil
          · intro Q r hr
            obtain ⟨_, _, _, heq, hr⟩ := Task.mem_gone.mp hr
            cases heq
            rw [hcut ⟨ran, rfl⟩] at hr
            exact absurd hr List.not_mem_nil

/-- What the step of a run keeps. -/
lemma Orderly.step {m' : Projects} {next : Step} (h : Orderly m) (hcareful : m.Careful next)
    (hstep : m.step next = some m') : Orderly m' := by
  cases next with
  | apply project account =>
      rw [← Option.some.inj hstep]
      refine h.push (fun r hr => absurd hr List.not_mem_nil) ?_ ?_
      · rintro Q ⟨⟩
        exact hcareful
      · intro Q
        exact ite_self _
  | route i change tunnel shown confirmed seen ending =>
      unfold Projects.step at hstep
      dsimp only at hstep
      split at hstep
      · rename_i P account created hi
        split_ifs at hstep with hsees
        rw [← Option.some.inj hstep]
        exact h.applyNext hi hsees fun result => hcareful P account created result hi
      · cases hstep
  | record i written =>
      unfold Projects.step at hstep
      dsimp only at hstep
      split at hstep
      · rename_i P account created stopped hi
        rw [← Option.some.inj hstep]
        have hpending : ∀ {m' : Projects}, (∀ r ∈ created, r ∈ m'.created P) → ∀ Q,
            ∀ r ∈ (Task.applying P account created stopped).pending Q, r ∈ m'.created Q := by
          intro m' hrecorded Q r hr
          obtain ⟨_, _, _, heq, hr⟩ := Task.mem_pending.mp hr
          cases heq
          exact hrecorded r hr
        have hgone : ∀ {m' : Projects} Q,
            ∀ r ∈ (Task.applying P account created stopped).gone Q, r ∉ m'.created Q :=
          fun Q r hr => absurd hr List.not_mem_nil
        cases written with
        | false => exact h.finish hi (hpending (hcareful P account created stopped hi rfl)) hgone
        | true =>
            refine (h.applied hi).finish hi (hpending fun r hr => ?_) hgone
            rw [created_applied, if_pos rfl]
            exact mem_remember.mpr (.inr hr)
      · cases hstep
  | down project account =>
      rw [← Option.some.inj hstep]
      refine h.push ⟨fun r hr => ?_, (h.nodup project).filter _, ?_⟩ ?_ fun Q => rfl
      · obtain ⟨hr, hacc⟩ := List.mem_filter.mp hr
        refine ⟨of_decide_eq_true hacc, hr, ?_⟩
        exact (h.recorded project r hr).resolve_right fun ⟨task, htask, hgone⟩ =>
          hcareful task htask (Task.project_of_gone hgone)
      · exact fun r hr => absurd hr List.not_mem_nil
      · rintro Q ⟨⟩
        exact hcareful
  | remove i tunnel previewed seen ending =>
      unfold Projects.step at hstep
      dsimp only at hstep
      split at hstep
      · rename_i P account route todo gone hi
        split_ifs at hstep with hsees
        rw [← Option.some.inj hstep]
        exact h.removeNext hi hsees fun result => hcareful P account route todo gone result hi
      · cases hstep
  | forget i written =>
      unfold Projects.step at hstep
      dsimp only at hstep
      split at hstep
      · rename_i P account gone hi
        rw [← Option.some.inj hstep]
        have hpending : ∀ {m' : Projects} Q,
            ∀ r ∈ (Task.removing P account [] gone).pending Q, r ∈ m'.created Q :=
          fun Q r hr => absurd hr List.not_mem_nil
        cases written with
        | false =>
            refine h.finish hi hpending fun Q r hr => ?_
            obtain ⟨_, _, _, heq, hr⟩ := Task.mem_gone.mp hr
            cases heq
            rw [hcareful P account gone hi rfl] at hr
            exact absurd hr List.not_mem_nil
        | true =>
            refine (h.removed hi).finish hi hpending fun Q r hr => ?_
            obtain ⟨_, _, _, heq, hr⟩ := Task.mem_gone.mp hr
            cases heq
            rw [created_removed, if_pos rfl, List.mem_filter]
            exact fun hkept => of_decide_eq_true hkept.2 hr
      · cases hstep
  | crash i =>
      rw [← Option.some.inj hstep]
      cases hi : m.tasks[i]? with
      | none =>
          have hsame : m.goto i .done = m := by
            rw [Projects.goto, List.set_eq_of_length_le (List.getElem?_eq_none_iff.mp hi)]
          rw [hsame]
          exact h
      | some task =>
          refine h.finish hi (fun Q => (hcareful task hi Q).1) fun Q r hr => ?_
          rw [(hcareful task hi Q).2] at hr
          exact absurd hr List.not_mem_nil
  | outside account tunnel intent approval seen ending =>
      unfold Projects.step at hstep
      dsimp only at hstep
      split_ifs at hstep with hguard
      split at hstep
      · rename_i after happly
        rw [← Option.some.inj hstep]
        refine h.change fun P hostname path => ?_
        have hkeeps := hcareful after happly P hostname path
        rw [founder_change]
        by_cases hnil : Teitunnel.rulesAt after (some hostname, path) = []
        · rw [if_pos hnil]
          exact ⟨nofun, fun hfounder => absurd hnil (hkeeps hfounder)⟩
        · rw [if_neg hnil]
          by_cases hbefore : m.rulesAt (account, tunnel) (some hostname, path) = []
          · rw [if_pos hbefore]
            constructor
            · rintro ⟨⟩
            · intro hfounder
              exact absurd hbefore (h.present _ _ _ hfounder)
          · rw [if_neg hbefore]
      · rw [← Option.some.inj hstep]
        exact h

end steps

/-! ## Runs -/

/-- Some accounts whose projects did nothing yet. -/
def before (ingress : String × String → Option (List IngressRule)) : Projects where
  ingress
  log := []
  created := fun _ => []
  tasks := []

variable {ingress : String × String → Option (List IngressRule)}

lemma Orderly.before : Orderly (before ingress) where
  present := nofun
  added := nofun
  recorded := fun _ _ hr => absurd hr List.not_mem_nil
  tasks := nofun
  distinct := by
    rintro P r r' (hr | ⟨task, htask, -⟩)
    · exact absurd hr List.not_mem_nil
    · exact absurd htask List.not_mem_nil
  nodup := fun _ => List.nodup_nil
  apart := nofun

/-- In every run whose steps are careful, where nothing is being done about a project its record
is exact. -/
theorem created_exact {steps : List Step} {m : Projects}
    (hrun : run step (Projects.before ingress) steps = some m)
    (hcareful : Meets step Careful (Projects.before ingress) steps) (P : String)
    (hidle : m.Idle P) : m.Exact P := by
  have h : Orderly m := run_invariant (I := fun _ m => Orderly m) Orderly.before
    (fun _ _ _ _ _ h hcareful hstep => h.step hcareful hstep) hrun hcareful
  exact h.exact hidle

/-! ### A project of one route -/

section alone

variable {input : RouteInput} {spec : RouteSpec} {s : Snapshot} {p : Plan}

lemma applyRoute_of_plan (hspec : input.toSpec = .ok spec)
    (hplan : plan (.addRoute spec) s = .ok p) (hconfirm : p.requiresConfirmation = false) :
    applyRoute (.addRoute input) true false (some s) .applied =
      .ok (Ending.applied.ingress s p, .applied) := by
  have hintent : (Change.addRoute input).toIntent = .ok (.addRoute spec) := by
    unfold Change.toIntent
    exact map_eq_ok.mpr ⟨spec, hspec, rfl⟩
  have hpreview : Engine.preview (.addRoute spec) (some s) = .ok p := mapError_eq_ok.mpr hplan
  unfold applyRoute
  refine bind_eq_ok.mpr ⟨_, mapError_eq_ok.mpr hintent, ?_⟩
  refine bind_eq_ok.mpr ⟨p, mapError_eq_ok.mpr hpreview, ?_⟩
  split_ifs with hsteps
  · have hempty : p.isEmpty = true := by
      rw [Plan.isEmpty, hsteps]
      rfl
    rw [ingress_of_isEmpty hempty]
    rfl
  · simp only [bind_eq_ok]
    exact ⟨(), rfl, _, mapError_eq_ok.mpr (apply_reviewed _ hplan hconfirm), rfl⟩

lemma applyRoute_unread (hspec : input.toSpec = .ok spec) :
    applyRoute (.addRoute input) true false none .applied = .error (.engine .observe) := by
  have hintent : (Change.addRoute input).toIntent = .ok (.addRoute spec) := by
    unfold Change.toIntent
    exact map_eq_ok.mpr ⟨spec, hspec, rfl⟩
  unfold applyRoute
  rw [hintent]
  rfl

/-- The account while the project is applied. -/
def applying (s : Snapshot) : Projects :=
  { before fun _ => s.ingress with tasks := [.applying "/w/app" "acc" [] false] }

/-- After the project's route was applied. -/
def routed (s : Snapshot) (p : Plan) (input : RouteInput) : Projects :=
  ((applying s).change "acc" "tunnel" (.project "/w/app") (Ending.applied.ingress s p)).goto 0
    (.applying "/w/app" "acc" [⟨"acc", input.hostname, input.path⟩] false)

/-- Who gave the places of the tunnel their first rule. -/
lemma founder_routed (input : RouteInput) {hostname : String} {path : Option String} :
    (routed s p input).founder ("acc", "tunnel") (some hostname, path) =
      if Teitunnel.rulesAt (Ending.applied.ingress s p) (some hostname, path) = [] then none
      else if Teitunnel.rulesAt s.ingress (some hostname, path) = [] then
        some (.project "/w/app")
      else none := founder_change

/-- Applies the project's route. -/
def routeSteps (s : Snapshot) (input : RouteInput) : List Step :=
  [.apply "/w/app" "acc", .route 0 (.addRoute input) "tunnel" true false (some s) .applied]

lemma route_eq (hspec : input.toSpec = .ok spec) (hplan : plan (.addRoute spec) s = .ok p)
    (hconfirm : p.requiresConfirmation = false) :
    step (applying s) (.route 0 (.addRoute input) "tunnel" true false (some s) .applied) =
      some (routed s p input) := by
  have hsees : (applying s).Sees ("acc", "tunnel") (some s) := by
    rintro s' ⟨⟩
    rfl
  show (if _ then some _ else none) = _
  rw [if_pos hsees]
  unfold applyNext
  rw [applyRoute_of_plan hspec hplan hconfirm]
  rfl

lemma run_routed (hspec : input.toSpec = .ok spec) (hplan : plan (.addRoute spec) s = .ok p)
    (hconfirm : p.requiresConfirmation = false) :
    run step (before fun _ => s.ingress) (routeSteps s input) = some (routed s p input) :=
  run_cons.mpr ⟨applying s, rfl, run_cons.mpr ⟨_, route_eq hspec hplan hconfirm, run_nil⟩⟩

/-- The apply goes on where nothing can be read. -/
lemma unread_eq (s : Snapshot) (p : Plan) (hspec : input.toSpec = .ok spec) :
    step (routed s p input) (.route 0 (.addRoute input) "tunnel" true false none .applied) =
      some ((routed s p input).goto 0 .done) := by
  have hsees : (routed s p input).Sees ("acc", "tunnel") none := Tunnels.sees_none
  have hnext : step (routed s p input)
      (.route 0 (.addRoute input) "tunnel" true false none .applied) =
      if (routed s p input).Sees ("acc", "tunnel") none then
        some ((routed s p input).applyNext 0 "/w/app" "acc" [⟨"acc", input.hostname, input.path⟩]
          (.addRoute input) "tunnel" true false none .applied)
      else none := rfl
  rw [hnext, if_pos hsees]
  unfold applyNext
  rw [applyRoute_unread hspec]

/-- After the route was recorded. -/
def recordedProject (s : Snapshot) (p : Plan) (input : RouteInput) : Projects :=
  ((routed s p input).applied "/w/app" [⟨"acc", input.hostname, input.path⟩]).goto 0 .done

lemma record_eq (s : Snapshot) (p : Plan) (input : RouteInput) :
    step (routed s p input) (.record 0 true) = some (recordedProject s p input) := rfl

end alone

end Projects

section reference

open Projects

local instance projectsReference : External := reference

open Sharing.DomainShares (appShareRoute sharingAccount appShare_parse)

/-- The route of `app.example.com`, as the project declares it. -/
def declaredRoute : RouteInput where
  hostname := "app.example.com"
  path := none
  origin := ⟨"http://localhost:3000"⟩
  options := []
  access := none

lemma declaredRoute_toSpec : declaredRoute.toSpec = .ok appShareRoute := by
  have hparse : Hostname.parse declaredRoute.hostname = .ok appHostname := appShare_parse
  unfold RouteInput.toSpec parseHostname
  rw [hparse]
  rfl

lemma declaredRoute_place :
    CreatedRoute.place ⟨"acc", declaredRoute.hostname, declaredRoute.path⟩ =
      .ok (some appHostname.asStr, none) :=
  place_of_toSpec "acc" declaredRoute_toSpec

/-- A project that adds its route. -/
theorem created_exact_declaredRoute :
    ∃ m, run step (before fun _ => newAccount.ingress)
        (routeSteps newAccount declaredRoute ++ [.record 0 true]) = some m ∧
      m.Exact "/w/app" := by
  obtain ⟨p, hplan, hconfirm, hrules⟩ := plan_of_any (.addRoute appShareRoute) newAccount
      sharingAccount.ingress .applied (by decide +kernel)
  have hrouted := run_routed declaredRoute_toSpec hplan hconfirm
  have hrun := run_append.mpr ⟨_, hrouted,
    run_cons.mpr ⟨_, record_eq newAccount p declaredRoute, run_nil⟩⟩
  refine ⟨_, hrun, created_exact hrun ?_ "/w/app" ?_⟩
  · refine meets_append_of ?_ fun u hu => ?_
    · refine meets_cons (u := applying newAccount) rfl (fun _ h => absurd h List.not_mem_nil) ?_
      refine meets_cons (route_eq declaredRoute_toSpec hplan hconfirm) ?_ trivial
      intro P account created result hi hresult
      cases hi
      rw [applyRoute_of_plan declaredRoute_toSpec hplan hconfirm] at hresult
      rw [← hresult]
      refine ⟨fun ⟨_, hcut⟩ => Ending.noConfusion hcut, fun input place hinput hplace => ?_⟩
      have hfree : (applying newAccount).rulesAt ("acc", "tunnel") place = [] := rfl
      rw [if_pos rfl, if_pos hfree]
      exact fun r hr => absurd hr List.not_mem_nil
    · rw [hrouted] at hu
      cases hu
      refine meets_cons (record_eq _ _ _) ?_ trivial
      intro P account created stopped _ hwritten
      cases hwritten
  · intro task htask
    rw [List.mem_singleton.mp htask]
    exact (Option.some_ne_none _).symm

/-- A route that was there is recorded as created, and one that was added isn't when a later
route's plan can't be made. -/
theorem created_wrong :
    (¬ ∀ steps ingress m P account place, run step (before ingress) steps = some m → m.Idle P →
        m.Records P account place → m.Added P account place) ∧
      ¬ ∀ steps ingress m P account place, run step (before ingress) steps = some m →
        m.Idle P → m.Added P account place → m.Records P account place := by
  constructor
  · intro h
    obtain ⟨p, hplan, hconfirm, hrules⟩ := plan_of_any (.addRoute appShareRoute) sharingAccount
      sharingAccount.ingress .applied (by decide +kernel)
    have hrouted := run_routed declaredRoute_toSpec hplan hconfirm
    have hrun := run_append.mpr ⟨_, hrouted,
      run_cons.mpr ⟨_, record_eq sharingAccount p declaredRoute, run_nil⟩⟩
    obtain ⟨tunnel, hfounder⟩ := h _ _ _ "/w/app" "acc" (some appHostname.asStr, none) hrun
      (fun task htask => by
        rw [List.mem_singleton.mp htask]
        exact (Option.some_ne_none _).symm)
      ⟨_, List.mem_singleton_self _, rfl, declaredRoute_place⟩
    have hthere : Teitunnel.rulesAt sharingAccount.ingress (some appHostname.asStr, none) ≠ [] := by
      decide +kernel
    by_cases htunnel : tunnel = "tunnel"
    · rw [htunnel, show (recordedProject sharingAccount p declaredRoute).founder
        ("acc", "tunnel") (some appHostname.asStr, none) = _ from founder_routed declaredRoute,
        if_neg hthere]
        at hfounder
      split_ifs at hfounder
    · rw [show (recordedProject sharingAccount p declaredRoute).founder ("acc", tunnel)
        (some appHostname.asStr, none) = (applying sharingAccount).founder ("acc", tunnel)
          (some appHostname.asStr, none) from founder_change_of_ne fun heq =>
            htunnel (congrArg Prod.snd heq)] at hfounder
      cases hfounder
  · intro h
    obtain ⟨p, hplan, hconfirm, hrules⟩ := plan_of_any (.addRoute appShareRoute) newAccount
      sharingAccount.ingress .applied (by decide +kernel)
    have hrouted := run_routed declaredRoute_toSpec hplan hconfirm
    have hlost := unread_eq newAccount p declaredRoute_toSpec
    obtain ⟨r, hr, -⟩ := h _ _ _ "/w/app" "acc" (some appHostname.asStr, none)
      (run_append.mpr ⟨_, hrouted, run_cons.mpr ⟨_, hlost, run_nil⟩⟩)
      (fun task htask => by
        rw [List.mem_singleton.mp htask]
        exact (Option.some_ne_none _).symm)
      ⟨"tunnel", by
        have hset : Teitunnel.rulesAt sharingAccount.ingress
          (some appHostname.asStr, none) ≠ [] := by decide +kernel
        have hfree : Teitunnel.rulesAt newAccount.ingress (some appHostname.asStr, none) = [] := rfl
        rw [show ((Projects.routed newAccount p declaredRoute).goto 0 .done).founder ("acc", "tunnel")
          (some appHostname.asStr, none) = _ from founder_routed declaredRoute, hrules,
          if_neg hset,
          if_pos hfree]⟩
    exact absurd hr List.not_mem_nil

end reference

end Teitunnel.Project
