import Mathlib

/-!
# Runs

What holds along a run: of a step relation (a property that every step keeps holds in every
state reached), of a list of steps applied one after the other (a part of the state that only
some steps change is read off those steps), and of actions that may be refused (a property of
the state and of the actions so far that every action keeps, when each meets a condition on the
state before it).
-/

namespace Runs

variable {σ τ α : Type*}

/-- Every step of `R` keeps `P`. -/
def Preserves (R : σ → σ → Prop) (P : σ → Prop) : Prop :=
  ∀ s s', R s s' → P s → P s'

/-- A property that every step keeps holds in every state reached. -/
lemma Preserves.reached {R : σ → σ → Prop} {P : σ → Prop} (hR : Preserves R P) {s s' : σ}
    (hrun : Relation.ReflTransGen R s s') (hs : P s) : P s' := by
  induction hrun with
  | refl => exact hs
  | tail _ hstep ih => exact hR _ _ hstep ih

/-- The part of the state that `view` shows, when only the steps satisfying `p` change it, each
by `g`. -/
lemma foldl_view (view : σ → τ) {f : σ → α → σ} {g : τ → α → τ} {p : α → Bool}
    (hchange : ∀ s a, p a → view (f s a) = g (view s) a)
    (hkeep : ∀ s a, p a = false → view (f s a) = view s) (l : List α) (s : σ) :
    view (l.foldl f s) = (l.filter p).foldl g (view s) := by
  induction l generalizing s with
  | nil => rfl
  | cons a l ih =>
      rw [List.foldl_cons, ih]
      cases hp : p a with
      | true => rw [List.filter_cons_of_pos hp, List.foldl_cons, hchange s a hp]
      | false =>
          rw [List.filter_cons_of_neg (by rw [hp]; exact Bool.false_ne_true), hkeep s a hp]

/-! ## Actions that may be refused -/

/-- The state after the actions, when none is refused. -/
def run (step : σ → α → Option σ) (s : σ) : List α → Option σ
  | [] => some s
  | a :: rest => (step s a).bind fun t => run step t rest

/-- Every action of the run meets `P` in the state before it. -/
def Meets (step : σ → α → Option σ) (P : σ → α → Prop) (s : σ) : List α → Prop
  | [] => True
  | a :: rest => P s a ∧ ∀ t, step s a = some t → Meets step P t rest

/-- Whether every action of the run meets `p`, decided along the run. -/
def check (step : σ → α → Option σ) (p : σ → α → Bool) (s : σ) : List α → Bool
  | [] => true
  | a :: rest => p s a && (step s a).all fun t => check step p t rest

section actions

variable {step : σ → α → Option σ} {P : σ → α → Prop} {s t : σ}

@[simp] lemma run_nil : run step s [] = some s := rfl

lemma run_cons {a : α} {rest : List α} :
    run step s (a :: rest) = some t ↔ ∃ u, step s a = some u ∧ run step u rest = some t := by
  rw [run, Option.bind_eq_some_iff]

lemma run_append {l l' : List α} :
    run step s (l ++ l') = some t ↔ ∃ u, run step s l = some u ∧ run step u l' = some t := by
  induction l generalizing s with
  | nil => simp
  | cons a rest ih =>
      rw [List.cons_append, run_cons]
      constructor
      · rintro ⟨u, hu, hrest⟩
        obtain ⟨v, hv, hl'⟩ := ih.mp hrest
        exact ⟨v, run_cons.mpr ⟨u, hu, hv⟩, hl'⟩
      · rintro ⟨v, hv, hl'⟩
        obtain ⟨u, hu, hrest⟩ := run_cons.mp hv
        exact ⟨u, hu, ih.mpr ⟨v, hrest, hl'⟩⟩

lemma run_snoc {l : List α} {a : α} :
    run step s (l ++ [a]) = some t ↔ ∃ u, run step s l = some u ∧ step u a = some t := by
  rw [run_append]
  refine exists_congr fun u => and_congr_right fun _ => ?_
  rw [run_cons]
  constructor
  · rintro ⟨v, hv, hnil⟩
    exact Option.some.inj hnil ▸ hv
  · exact fun ht => ⟨t, ht, rfl⟩

lemma meets_append {l l' : List α} (h : Meets step P s (l ++ l')) :
    Meets step P s l ∧ ∀ u, run step s l = some u → Meets step P u l' := by
  induction l generalizing s with
  | nil => exact ⟨trivial, fun u hu => Option.some.inj hu ▸ h⟩
  | cons a rest ih =>
      obtain ⟨hP, hrest⟩ := h
      refine ⟨⟨hP, fun u hu => (ih (hrest u hu)).1⟩, fun v hv => ?_⟩
      obtain ⟨u, hu, hv⟩ := run_cons.mp hv
      exact (ih (hrest u hu)).2 v hv

lemma meets_append_of {l l' : List α} (h : Meets step P s l)
    (h' : ∀ u, run step s l = some u → Meets step P u l') : Meets step P s (l ++ l') := by
  induction l generalizing s with
  | nil => exact h' s rfl
  | cons a rest ih =>
      refine ⟨h.1, fun u hu => ih (h.2 u hu) fun v hv => ?_⟩
      exact h' v (run_cons.mpr ⟨u, hu, hv⟩)

lemma meets_and {Q : σ → α → Prop} {l : List α} (hP : Meets step P s l) (hQ : Meets step Q s l) :
    Meets step (fun s a => P s a ∧ Q s a) s l := by
  induction l generalizing s with
  | nil => trivial
  | cons a rest ih =>
      exact ⟨⟨hP.1, hQ.1⟩, fun t ht => ih (hP.2 t ht) (hQ.2 t ht)⟩

lemma meets_cons {u : σ} {a : α} {rest : List α} (hu : step s a = some u) (hP : P s a)
    (h : Meets step P u rest) : Meets step P s (a :: rest) := by
  refine ⟨hP, fun t ht => ?_⟩
  rw [hu] at ht
  exact Option.some.inj ht ▸ h

lemma meets_of_check {p : σ → α → Bool} (hp : ∀ s a, p s a = true → P s a) {l : List α}
    (h : check step p s l = true) : Meets step P s l := by
  induction l generalizing s with
  | nil => trivial
  | cons a rest ih =>
      obtain ⟨ha, hrest⟩ := (Bool.and_eq_true _ _).mp h
      refine ⟨hp s a ha, fun t ht => ih ?_⟩
      rw [ht] at hrest
      exact hrest

/-- What every action keeps holds after every run. -/
lemma run_keeps {I : σ → Prop} (h₀ : I s) (hstep : ∀ s a t, I s → step s a = some t → I t)
    {l : List α} (hrun : run step s l = some t) : I t := by
  induction l generalizing s with
  | nil => exact Option.some.inj hrun ▸ h₀
  | cons a rest ih =>
      obtain ⟨u, hu, hrest⟩ := run_cons.mp hrun
      exact ih (hstep s a u h₀ hu) hrest

/-- What holds at first and is kept by every action that meets the condition holds after every
run of such actions; it may speak of the actions so far. -/
lemma run_invariant {I : List α → σ → Prop} {s₀ : σ} (h₀ : I [] s₀)
    (hstep : ∀ past s a t, run step s₀ past = some s → I past s → P s a → step s a = some t →
      I (past ++ [a]) t)
    {l : List α} (hrun : run step s₀ l = some t) (hmeets : Meets step P s₀ l) : I l t := by
  induction l using List.reverseRecOn generalizing t with
  | nil => exact Option.some.inj hrun ▸ h₀
  | append_singleton past a ih =>
      obtain ⟨s, hs, ht⟩ := run_snoc.mp hrun
      obtain ⟨hpast, hlast⟩ := meets_append hmeets
      exact hstep past s a t hs (ih hs hpast) (hlast s hs).1 ht

end actions

end Runs
