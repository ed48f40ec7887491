import Mathlib

/-!
# Sorted sets

A finite set kept as a strictly increasing list, so it prints in order, runs in the kernel, and
equals another set exactly when it has the same members.
-/

/-- A finite set as a strictly increasing list. -/
structure SortedSet (α : Type*) [LinearOrder α] where
  toList : List α
  sorted : toList.Pairwise (· < ·)
  deriving DecidableEq

namespace SortedSet

variable {α : Type*} [LinearOrder α]

instance : Membership α (SortedSet α) := ⟨fun s a => a ∈ s.toList⟩

instance (a : α) (s : SortedSet α) : Decidable (a ∈ s) :=
  inferInstanceAs (Decidable (a ∈ s.toList))

@[simp] lemma mem_toList {a : α} {s : SortedSet α} : a ∈ s.toList ↔ a ∈ s := Iff.rfl

lemma toList_injective : Function.Injective (toList : SortedSet α → List α)
  | ⟨_, _⟩, ⟨_, _⟩, rfl => rfl

/-- Sets with the same members are equal. -/
@[ext] lemma ext {s t : SortedSet α} (h : ∀ a, a ∈ s ↔ a ∈ t) : s = t := by
  apply toList_injective
  have hs : s.toList.Nodup := s.sorted.imp ne_of_lt
  have ht : t.toList.Nodup := t.sorted.imp ne_of_lt
  have hperm : s.toList.Perm t.toList := (List.perm_ext_iff_of_nodup hs ht).mpr h
  exact hperm.eq_of_pairwise (fun a b _ _ hab hba => absurd hab hba.asymm) s.sorted t.sorted

/-- The empty set. -/
def empty : SortedSet α := ⟨[], .nil⟩

@[simp] lemma not_mem_empty (a : α) : a ∉ (empty : SortedSet α) := List.not_mem_nil

/-- `a` in its place in an increasing list, once. -/
def insertList (a : α) : List α → List α
  | [] => [a]
  | b :: l => if a < b then a :: b :: l else if a = b then b :: l else b :: insertList a l

@[simp] lemma mem_insertList {a b : α} {l : List α} : b ∈ insertList a l ↔ b = a ∨ b ∈ l := by
  induction l with
  | nil => simp [insertList]
  | cons c l ih =>
      simp only [insertList]
      split_ifs with h h'
      · simp
      · subst h'; simp
      · simp only [List.mem_cons, ih]; tauto

lemma pairwise_insertList (a : α) {l : List α} (h : l.Pairwise (· < ·)) :
    (insertList a l).Pairwise (· < ·) := by
  induction l with
  | nil => simp [insertList]
  | cons c l ih =>
      rw [List.pairwise_cons] at h
      simp only [insertList]
      split_ifs with hac hac'
      · refine List.pairwise_cons.mpr ⟨?_, List.pairwise_cons.mpr h⟩
        intro b hb
        rcases List.mem_cons.mp hb with rfl | hb
        · exact hac
        · exact hac.trans (h.1 b hb)
      · exact List.pairwise_cons.mpr h
      · refine List.pairwise_cons.mpr ⟨?_, ih h.2⟩
        intro b hb
        rcases mem_insertList.mp hb with rfl | hb
        · exact lt_of_le_of_ne (not_lt.mp hac) (Ne.symm hac')
        · exact h.1 b hb

/-- The set with `a` added. -/
def insert (a : α) (s : SortedSet α) : SortedSet α :=
  ⟨insertList a s.toList, pairwise_insertList a s.sorted⟩

@[simp] lemma mem_insert {a b : α} {s : SortedSet α} : b ∈ s.insert a ↔ b = a ∨ b ∈ s :=
  mem_insertList

/-- The set without `a`. -/
def erase (a : α) (s : SortedSet α) : SortedSet α :=
  ⟨s.toList.erase a, s.sorted.sublist List.erase_sublist⟩

@[simp] lemma mem_erase {a b : α} {s : SortedSet α} : b ∈ s.erase a ↔ b ≠ a ∧ b ∈ s :=
  have h : s.toList.Nodup := s.sorted.imp ne_of_lt
  h.mem_erase_iff

/-- The set of a list's elements. -/
def ofList (l : List α) : SortedSet α :=
  l.foldr insert empty

@[simp] lemma mem_ofList {a : α} {l : List α} : a ∈ ofList l ↔ a ∈ l := by
  induction l with
  | nil => simp [ofList]
  | cons b l ih => rw [ofList, List.foldr_cons, mem_insert, ← ofList, ih, List.mem_cons]

/-- The set of the elements of a set's own list is the set. -/
@[simp] lemma ofList_toList (s : SortedSet α) : ofList s.toList = s := by
  ext a; simp

/-- Whether nothing is in the set. -/
def isEmpty (s : SortedSet α) : Bool := s.toList.isEmpty

lemma isEmpty_iff {s : SortedSet α} : s.isEmpty ↔ ∀ a, a ∉ s := by
  rw [isEmpty, List.isEmpty_iff, List.eq_nil_iff_forall_not_mem]; rfl

end SortedSet
