import Mathlib.Algebra.BigOperators.Group.List.Basic
import Mathlib.Tactic

/-!
# Counting rows into bins

Each row falls into one bin or none and adds to what is counted there.  What a bin has in the end
is a sum over all rows, each with its weight.
-/

namespace Tally

variable {α β : Type}

/-- A row changes the bin it falls in. -/
def into (place : α → Option ℕ) (add : α → β → β) (bins : List β) (row : α) : List β :=
  match place row with
  | some i => bins.modify i (add row)
  | none => bins

def tally (place : α → Option ℕ) (add : α → β → β) (rows : List α) (bins : List β) : List β :=
  rows.foldl (into place add) bins

/-- The sum of the rows' weights. -/
def weigh (weight : α → ℕ) (rows : List α) : ℕ := (rows.map weight).sum

variable {weight weight' : α → ℕ}

@[simp] lemma weigh_nil : weigh weight [] = 0 := rfl

@[simp] lemma weigh_cons (row : α) (rows : List α) :
    weigh weight (row :: rows) = weight row + weigh weight rows := rfl

@[simp] lemma weigh_append (rows rows' : List α) :
    weigh weight (rows ++ rows') = weigh weight rows + weigh weight rows' := by
  rw [weigh, List.map_append, List.sum_append]
  rfl

lemma weigh_congr {rows : List α} (h : ∀ row ∈ rows, weight row = weight' row) :
    weigh weight rows = weigh weight' rows := by
  rw [weigh, weigh, List.map_congr_left h]

lemma weigh_perm {rows rows' : List α} (h : rows.Perm rows') :
    weigh weight rows = weigh weight rows' := (h.map weight).sum_eq

lemma weigh_map {γ : Type} (f : γ → α) (rows : List γ) :
    weigh weight (rows.map f) = weigh (fun row => weight (f row)) rows := by
  rw [weigh, List.map_map]
  rfl

/-- Rows that go don't weigh. -/
lemma weigh_filter (p : α → Bool) (rows : List α) :
    weigh weight (rows.filter p) = weigh (fun row => if p row then weight row else 0) rows := by
  induction rows with
  | nil => rfl
  | cons row rows ih =>
      by_cases hp : p row = true
      · rw [List.filter_cons_of_pos hp, weigh_cons, weigh_cons, if_pos hp, ih]
      · rw [List.filter_cons_of_neg hp, weigh_cons, if_neg hp, ih, Nat.zero_add]

variable {place : α → Option ℕ} {add : α → β → β}

lemma length_into (bins : List β) (row : α) : (into place add bins row).length = bins.length := by
  rw [into]
  split
  · exact List.length_modify ..
  · rfl

lemma getElem?_into (bins : List β) (row : α) (i : ℕ) :
    (into place add bins row)[i]? =
      bins[i]?.map fun bin => if place row = some i then add row bin else bin := by
  rw [into]
  cases place row with
  | none => simp
  | some j => simp only [List.getElem?_modify, Option.some.injEq]; rfl

@[simp] lemma length_tally (rows : List α) (bins : List β) :
    (tally place add rows bins).length = bins.length := by
  induction rows generalizing bins with
  | nil => rfl
  | cons row rows ih =>
      rw [tally, List.foldl_cons, ← tally, ih, length_into]

/-- What every bin has from the beginning and no row takes away. -/
lemma forall_tally {P : β → Prop} {rows : List α} {bins : List β}
    (hadd : ∀ row ∈ rows, ∀ bin, P bin → P (add row bin)) (h : ∀ bin ∈ bins, P bin) :
    ∀ bin ∈ tally place add rows bins, P bin := by
  induction rows generalizing bins with
  | nil => exact h
  | cons row rows ih =>
      refine ih (fun row hrow => hadd row (List.mem_cons_of_mem _ hrow)) ?_
      intro bin hbin
      obtain ⟨i, hi⟩ := List.getElem?_of_mem hbin
      rw [getElem?_into] at hi
      obtain ⟨old, hold, rfl⟩ := Option.map_eq_some_iff.mp hi
      have hP := h old (List.mem_of_getElem? hold)
      split_ifs
      · exact hadd row List.mem_cons_self old hP
      · exact hP

/-- What no row changes of a bin. -/
lemma map_tally {γ : Type} {f : β → γ} (hadd : ∀ row bin, f (add row bin) = f bin)
    (rows : List α) (bins : List β) : (tally place add rows bins).map f = bins.map f := by
  induction rows generalizing bins with
  | nil => rfl
  | cons row rows ih =>
      rw [tally, List.foldl_cons, ← tally, ih]
      apply List.ext_getElem?
      intro i
      rw [List.getElem?_map, List.getElem?_map, getElem?_into, Option.map_map]
      congr 1
      funext bin
      rw [Function.comp_apply]
      split_ifs
      · exact hadd row bin
      · rfl

/-- A bin counts the rows that fall into it. -/
lemma getElem?_tally {value : β → ℕ} {amount : α → ℕ}
    (hadd : ∀ row bin, value (add row bin) = value bin + amount row) (rows : List α)
    (bins : List β) (i : ℕ) :
    ((tally place add rows bins)[i]?).map value = (bins[i]?).map fun bin =>
      value bin + weigh (fun row => if place row = some i then amount row else 0) rows := by
  induction rows generalizing bins with
  | nil => rfl
  | cons row rows ih =>
      rw [tally, List.foldl_cons, ← tally, ih, getElem?_into, Option.map_map]
      congr 1
      funext bin
      rw [Function.comp_apply, weigh_cons]
      split_ifs
      · rw [hadd, Nat.add_assoc]
      · rw [Nat.zero_add]

end Tally
