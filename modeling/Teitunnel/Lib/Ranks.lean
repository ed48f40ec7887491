import Mathlib.Tactic
import Mathlib.Data.List.Sort

/-!
# The values of a list by rank

How many values are below the one of a rank, and how many aren't above it.
-/

namespace Ranks

variable {α β : Type*} [LinearOrder α] [LinearOrder β]

/-- The value with `k` places before it when the list is sorted. -/
def nth (l : List α) (k : ℕ) : Option α := (l.mergeSort)[k]?

lemma pairwise_sorted (l : List α) : l.mergeSort.Pairwise (· ≤ ·) := by
  refine (List.pairwise_mergeSort ?_ ?_ l).imp fun h => of_decide_eq_true h
  · intro a b c hab hbc
    exact decide_eq_true ((of_decide_eq_true hab).trans (of_decide_eq_true hbc))
  · intro a b
    rcases le_total a b with h | h
    · rw [decide_eq_true h, Bool.true_or]
    · rw [decide_eq_true h, Bool.or_true]

lemma exists_nth {l : List α} {k : ℕ} (h : k < l.length) : ∃ v, nth l k = some v := by
  have hlength : k < l.mergeSort.length := by rwa [List.length_mergeSort]
  exact ⟨_, List.getElem?_eq_getElem hlength⟩

lemma nth_mem {l : List α} {k : ℕ} {v : α} (h : nth l k = some v) : v ∈ l :=
  List.mem_mergeSort.mp (List.mem_of_getElem? h)

/-- The values come in order. -/
lemma nth_mono {l : List α} {k k' : ℕ} {v v' : α} (h : nth l k = some v)
    (h' : nth l k' = some v') (hle : k ≤ k') : v ≤ v' := by
  obtain ⟨hk, rfl⟩ := List.getElem?_eq_some_iff.mp h
  obtain ⟨hk', rfl⟩ := List.getElem?_eq_some_iff.mp h'
  rcases hle.eq_or_lt with rfl | hlt
  · exact le_rfl
  · exact List.pairwise_iff_getElem.mp (pairwise_sorted l) k k' hk hk' hlt

/-- No more than its rank are below. -/
lemma countP_lt_le {l : List α} {k : ℕ} {v : α} (h : nth l k = some v) :
    l.countP (· < v) ≤ k := by
  obtain ⟨hk, rfl⟩ := List.getElem?_eq_some_iff.mp h
  rw [← (List.mergeSort_perm l _).countP_eq, ← List.take_append_drop k l.mergeSort,
    List.countP_append]
  have hrest : (l.mergeSort.drop k).countP (· < l.mergeSort[k]) = 0 := by
    refine List.countP_eq_zero.mpr fun a ha => ?_
    obtain ⟨i, hi, rfl⟩ := List.mem_iff_getElem.mp ha
    rw [List.getElem_drop, decide_eq_true_iff, not_lt]
    rcases Nat.eq_zero_or_pos i with rfl | hpos
    · exact le_rfl
    · rw [List.length_drop] at hi
      exact List.pairwise_iff_getElem.mp (pairwise_sorted l) k (k + i) hk (by omega) (by omega)
  have hfirst : (l.mergeSort.take k).countP (· < l.mergeSort[k]) ≤ k :=
    List.countP_le_length.trans (List.length_take_le k _)
  omega

/-- It and those before it aren't above. -/
lemma lt_countP_le {l : List α} {k : ℕ} {v : α} (h : nth l k = some v) :
    k < l.countP (· ≤ v) := by
  obtain ⟨hk, rfl⟩ := List.getElem?_eq_some_iff.mp h
  rw [← (List.mergeSort_perm l _).countP_eq, ← List.take_append_drop (k + 1) l.mergeSort,
    List.countP_append]
  have hfirst : (l.mergeSort.take (k + 1)).countP (· ≤ l.mergeSort[k]) = k + 1 := by
    have hlength : (l.mergeSort.take (k + 1)).length = k + 1 := by
      rw [List.length_take]
      omega
    rw [List.countP_eq_length.mpr ?_, hlength]
    intro a ha
    obtain ⟨i, hi, rfl⟩ := List.mem_iff_getElem.mp ha
    rw [List.getElem_take, decide_eq_true_iff]
    rcases (show i ≤ k by omega).eq_or_lt with rfl | hlt
    · exact le_rfl
    · exact List.pairwise_iff_getElem.mp (pairwise_sorted l) i k (by omega) hk hlt
  omega

/-- Of a class that grows with the values, the first whose members and those of the classes
below are more than the rank is the value's. -/
lemma lt_countP_iff {l : List α} {k : ℕ} {v : α} (h : nth l k = some v) {f : α → β}
    (hf : Monotone f) (b : β) : k < l.countP (fun a => f a ≤ b) ↔ f v ≤ b := by
  constructor
  · intro hlt
    by_contra hle
    have hbelow : l.countP (fun a => f a ≤ b) ≤ l.countP (· < v) := by
      refine List.countP_mono_left fun a _ ha => ?_
      rw [decide_eq_true_iff] at ha ⊢
      by_contra hnot
      exact hle ((hf (not_lt.mp hnot)).trans ha)
    have hrank := countP_lt_le h
    omega
  · intro hle
    have habove : l.countP (· ≤ v) ≤ l.countP (fun a => f a ≤ b) := by
      refine List.countP_mono_left fun a _ ha => ?_
      rw [decide_eq_true_iff] at ha ⊢
      exact (hf ha).trans hle
    have hrank := lt_countP_le h
    omega

end Ranks
