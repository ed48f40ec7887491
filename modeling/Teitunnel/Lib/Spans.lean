import Mathlib

/-!
# Spans

A list of half-open spans says of every instant whether one of them holds.  The run of spans that
touch or overlap is followed from an instant to where it ends, and the next flip of the list is
where that run ends, or where the first span begins.  A list says nothing about what is behind its
last end: a run that goes up to it has no flip.
-/

namespace Spans

variable {α : Type*} [LinearOrder α] {l : List (α × α)} {now stop t u : α}

/-- A span of the list holds. -/
def Holds (l : List (α × α)) (u : α) : Prop :=
  ∃ s ∈ l, s.1 ≤ u ∧ u < s.2

instance (l : List (α × α)) (u : α) : Decidable (Holds l u) :=
  inferInstanceAs (Decidable (∃ s ∈ l, _))

/-- The latest end of the spans that hold at `stop`. -/
def later (l : List (α × α)) (stop : α) : Option α :=
  ((l.filter fun s => s.1 ≤ stop ∧ stop < s.2).map Prod.snd).max?

/-- Where the run of spans at `stop` ends, after so many spans. -/
def follow (l : List (α × α)) : ℕ → α → α
  | 0, stop => stop
  | fuel + 1, stop =>
      match later l stop with
      | some next => follow l fuel next
      | none => stop

/-- The list says something else at `t` than from `now` until then. -/
structure Flips (l : List (α × α)) (now t : α) : Prop where
  after : now < t
  same : ∀ u, now ≤ u → u < t → (Holds l u ↔ Holds l now)
  other : ¬ (Holds l t ↔ Holds l now)

lemma later_eq_some (h : later l stop = some t) : ∃ s ∈ l, s.1 ≤ stop ∧ stop < s.2 ∧ s.2 = t := by
  have hmem := List.max?_mem h
  obtain ⟨s, hs, rfl⟩ := List.mem_map.mp hmem
  obtain ⟨hmem, hholds⟩ := List.mem_filter.mp hs
  obtain ⟨hstart, hstop⟩ := of_decide_eq_true hholds
  exact ⟨s, hmem, hstart, hstop, rfl⟩

lemma le_follow (l : List (α × α)) (fuel : ℕ) (stop : α) : stop ≤ follow l fuel stop := by
  induction fuel generalizing stop with
  | zero => exact le_rfl
  | succ fuel ih =>
      rw [follow]
      cases hlater : later l stop with
      | none => exact le_rfl
      | some next =>
          obtain ⟨s, -, -, hlt, rfl⟩ := later_eq_some hlater
          exact hlt.le.trans (ih s.2)

/-- The end of a run is the end of a span. -/
lemma follow_mem {fuel : ℕ} (h : stop < follow l fuel stop) : ∃ s ∈ l, s.2 = follow l fuel stop := by
  induction fuel generalizing stop with
  | zero => exact absurd h (lt_irrefl stop)
  | succ fuel ih =>
      rw [follow] at h ⊢
      cases hlater : later l stop with
      | none =>
          rw [hlater] at h
          exact absurd h (lt_irrefl stop)
      | some next =>
          obtain ⟨s, hs, -, -, rfl⟩ := later_eq_some hlater
          rcases (le_follow l fuel s.2).lt_or_eq with hlt | heq
          · exact ih hlt
          · exact ⟨s, hs, heq⟩

/-- A list flips at one place first. -/
lemma Flips.unique (h : Flips l now t) (h' : Flips l now u) : t = u := by
  rcases lt_trichotomy t u with hlt | heq | hgt
  · exact absurd (h'.same t h.after.le hlt) h.other
  · exact heq
  · exact absurd (h.same u h'.after.le hgt) h'.other

section tells

variable {P : α → Prop}

end tells

end Spans
