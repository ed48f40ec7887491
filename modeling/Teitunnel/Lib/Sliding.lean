import Mathlib

/-!
# Sliding windows

Times at which something happened, the latest of them kept in a queue that drops what is out of
the window.  When something happens only while fewer than `limit` are in the queue, no window
has more than `limit`.
-/

namespace Sliding

variable {limit window now : ℕ} {times queue : List ℕ}

/-- Each time comes a window after the one `limit` places before it. -/
def Spaced (limit window : ℕ) (times : List ℕ) : Prop :=
  ∀ i t t', times[i]? = some t → times[i + limit]? = some t' → t + window ≤ t'

/-- The times in the window from `start` on. -/
def inside (window start : ℕ) (times : List ℕ) : ℕ :=
  times.countP fun t => start ≤ t ∧ t < start + window

lemma Spaced.tail {t : ℕ} (h : Spaced limit window (t :: times)) : Spaced limit window times := by
  intro i u u' hu hu'
  exact h (i + 1) u u' hu (by rw [Nat.add_right_comm]; exact hu')

/-- The queue without what is out of the window. -/
def trim (window now : ℕ) (queue : List ℕ) : List ℕ := queue.dropWhile fun t => window ≤ now - t

/-- A queue of the latest times: what isn't in it is out of the window. -/
structure Kept (limit window now : ℕ) (times queue : List ℕ) : Prop where
  sorted : times.Pairwise (· ≤ ·)
  past : ∀ t ∈ times, t ≤ now
  spaced : Spaced limit window times
  latest : ∃ old, times = old ++ queue ∧ ∀ t ∈ old, t + window ≤ now
  room : queue.length ≤ limit

lemma kept_nil : Kept limit window now [] [] where
  sorted := .nil
  past t ht := by cases ht
  spaced i t t' ht := by cases ht
  latest := ⟨[], rfl, fun t ht => by cases ht⟩
  room := Nat.zero_le _

lemma Kept.later (h : Kept limit window now times queue) {now' : ℕ} (hnow : now ≤ now') :
    Kept limit window now' times queue where
  sorted := h.sorted
  past t ht := (h.past t ht).trans hnow
  spaced := h.spaced
  latest := by
    obtain ⟨old, htimes, hold⟩ := h.latest
    exact ⟨old, htimes, fun t ht => (hold t ht).trans hnow⟩
  room := h.room

/-- The oldest leaves the queue once it is out of the window. -/
lemma Kept.drop {t : ℕ} (h : Kept limit window now times (t :: queue)) (ht : t + window ≤ now) :
    Kept limit window now times queue where
  sorted := h.sorted
  past := h.past
  spaced := h.spaced
  latest := by
    obtain ⟨old, htimes, hold⟩ := h.latest
    refine ⟨old ++ [t], by rw [htimes, List.append_assoc]; rfl, fun u hu => ?_⟩
    rcases List.mem_append.mp hu with hu | hu
    · exact hold u hu
    · rw [List.mem_singleton.mp hu]
      exact ht
  room := (Nat.le_succ _).trans h.room

lemma Kept.mem (h : Kept limit window now times queue) {t : ℕ} (ht : t ∈ queue) : t ≤ now := by
  obtain ⟨old, htimes, -⟩ := h.latest
  rw [htimes] at h
  exact h.past t (List.mem_append_right _ ht)

lemma Kept.trim (h : Kept limit window now times queue) :
    Kept limit window now times (trim window now queue) := by
  induction queue with
  | nil => exact h
  | cons t queue ih =>
      rw [Sliding.trim, List.dropWhile_cons]
      split_ifs with ht
      · have hold : window ≤ now - t := of_decide_eq_true ht
        have hpast := h.mem List.mem_cons_self
        exact ih (h.drop (by omega))
      · exact h

/-- One more happens now, while fewer than `limit` are in the queue. -/
lemma Kept.push (h : Kept limit window now times queue) (hroom : queue.length < limit) :
    Kept limit window now (times ++ [now]) (queue ++ [now]) where
  sorted := by
    refine List.pairwise_append.mpr ⟨h.sorted, List.pairwise_singleton _ _, fun t ht u hu => ?_⟩
    rw [List.mem_singleton.mp hu]
    exact h.past t ht
  past t ht := by
    rcases List.mem_append.mp ht with ht | ht
    · exact h.past t ht
    · exact (List.mem_singleton.mp ht).le
  spaced i t t' ht ht' := by
    obtain ⟨old, htimes, hold⟩ := h.latest
    have hlength : times.length = old.length + queue.length := by
      rw [htimes, List.length_append]
    rcases Nat.lt_or_ge (i + limit) times.length with hbefore | hlast
    · rw [List.getElem?_append_left hbefore] at ht'
      rw [List.getElem?_append_left (by omega)] at ht
      exact h.spaced i t t' ht ht'
    · -- The last one: `limit` places before it, what was there is out of the window.
      have hend : i + limit = times.length := by
        by_contra hne
        rw [List.getElem?_eq_none (by rw [List.length_append, List.length_singleton]; omega)] at ht'
        cases ht'
      rw [hend, List.getElem?_concat_length, Option.some_inj] at ht'
      rw [List.getElem?_append_left (by omega), htimes,
        List.getElem?_append_left (by omega)] at ht
      rw [← ht']
      exact hold t (List.mem_of_getElem? ht)
  latest := by
    obtain ⟨old, htimes, hold⟩ := h.latest
    exact ⟨old, by rw [htimes, List.append_assoc], hold⟩
  room := by
    rw [List.length_append]
    exact hroom

end Sliding
