import Mathlib

/-!
# Who put what where

A history of what several makers did to the items of some areas.  Each item is at a place of its
area.  From the history one reads who put what is at a place there, and whether it was put there
since the place was last marked.
-/

namespace Ledger

variable {α ι κ μ : Type*}

/-- Something that happened. -/
inductive Event (α ι κ μ : Type*) where
  /-- A maker changed the items of an area. -/
  | changed (area : α) (maker : μ) (before after : List ι)
  | marked (area : α) (place : κ)

/-- Two lists of the same items. -/
def SameItems [DecidableEq ι] (l l' : List ι) : Prop := (∀ i ∈ l, i ∈ l') ∧ ∀ i ∈ l', i ∈ l

instance [DecidableEq ι] (l l' : List ι) : Decidable (SameItems l l') :=
  inferInstanceAs (Decidable (_ ∧ _))

section places

variable [DecidableEq α] [DecidableEq ι] [DecidableEq κ] (at_ : ι → κ)

def itemsAt (items : List ι) (k : κ) : List ι := items.filter fun i => at_ i = k

/-- Who put what is at a place there: the last to change what is there, unless it went. -/
def standing (log : List (Event α ι κ μ)) (a : α) (k : κ) : Option μ :=
  log.foldl (fun maker event =>
    match event with
    | .changed area by_ before after =>
        if area ≠ a ∨ SameItems (itemsAt at_ before k) (itemsAt at_ after k) then maker
        else if itemsAt at_ after k = [] then none else some by_
    | .marked .. => maker) none

/-- Who put something at a place that was empty, if it wasn't empty since. -/
def founder (log : List (Event α ι κ μ)) (a : α) (k : κ) : Option μ :=
  log.foldl (fun maker event =>
    match event with
    | .changed area by_ before after =>
        if area ≠ a then maker
        else if itemsAt at_ after k = [] then none
        else if itemsAt at_ before k = [] then some by_
        else maker
    | .marked .. => maker) none

/-- Whether something was put at a place since its last mark. -/
def fresh (log : List (Event α ι κ μ)) (a : α) (k : κ) : Bool :=
  log.foldl (fun since event =>
    match event with
    | .changed area _ before after =>
        since || decide (area = a ∧ ¬ SameItems (itemsAt at_ before k) (itemsAt at_ after k) ∧
          itemsAt at_ after k ≠ [])
    | .marked area place => since && !decide (area = a ∧ place = k)) true

variable {at_} {log : List (Event α ι κ μ)} {a area : α} {k place : κ} {maker : μ}
  {before after : List ι}

omit [DecidableEq α] [DecidableEq ι] in
lemma mem_itemsAt {items : List ι} {i : ι} : i ∈ itemsAt at_ items k ↔ i ∈ items ∧ at_ i = k := by
  rw [itemsAt, List.mem_filter, decide_eq_true_iff]

lemma SameItems.refl (l : List ι) : SameItems l l := ⟨fun _ h => h, fun _ h => h⟩

lemma SameItems.symm {l l' : List ι} (h : SameItems l l') : SameItems l' l := ⟨h.2, h.1⟩

lemma SameItems.trans {l l' l'' : List ι} (h : SameItems l l') (h' : SameItems l' l'') : SameItems l l'' :=
  ⟨fun i hi => h'.1 i (h.1 i hi), fun i hi => h.2 i (h'.2 i hi)⟩

lemma SameItems.eq_nil {l l' : List ι} (h : SameItems l l') : l = [] ↔ l' = [] := by
  constructor
  · rintro rfl
    exact List.eq_nil_iff_forall_not_mem.mpr fun i hi => absurd (h.2 i hi) List.not_mem_nil
  · rintro rfl
    exact List.eq_nil_iff_forall_not_mem.mpr fun i hi => absurd (h.1 i hi) List.not_mem_nil

@[simp] lemma standing_nil : standing at_ ([] : List (Event α ι κ μ)) a k = none := rfl

@[simp] lemma fresh_nil : fresh at_ ([] : List (Event α ι κ μ)) a k = true := rfl

lemma standing_changed : standing at_ (log ++ [.changed area maker before after]) a k =
    if area ≠ a ∨ SameItems (itemsAt at_ before k) (itemsAt at_ after k) then standing at_ log a k
    else if itemsAt at_ after k = [] then none else some maker := by
  rw [standing, List.foldl_append]
  rfl

@[simp] lemma standing_marked :
    standing at_ (log ++ [.marked area place]) a k = standing at_ log a k := by
  rw [standing, List.foldl_append]
  rfl

/-- What stands at a place after a change stood there before, or the maker put it there. -/
lemma standing_changed_cases {by_ : μ}
    (h : standing at_ (log ++ [.changed area maker before after]) a k = some by_) :
    standing at_ log a k = some by_ ∧
        (area = a → (itemsAt at_ before k = [] ↔ itemsAt at_ after k = [])) ∨
      area = a ∧ maker = by_ ∧ itemsAt at_ after k ≠ [] ∧
        ¬ SameItems (itemsAt at_ before k) (itemsAt at_ after k) := by
  rw [standing_changed] at h
  split_ifs at h with hsame hgone
  · refine .inl ⟨h, fun harea => ?_⟩
    rcases hsame with hne | halike
    · exact absurd harea hne
    · exact halike.eq_nil
  · obtain ⟨harea, hdiffer⟩ := not_or.mp hsame
    exact .inr ⟨not_not.mp harea, Option.some.inj h, hgone, hdiffer⟩

omit [DecidableEq ι] in
@[simp] lemma founder_nil : founder at_ ([] : List (Event α ι κ μ)) a k = none := rfl

omit [DecidableEq ι] in
lemma founder_changed : founder at_ (log ++ [.changed area maker before after]) a k =
    if area ≠ a then founder at_ log a k
    else if itemsAt at_ after k = [] then none
    else if itemsAt at_ before k = [] then some maker
    else founder at_ log a k := by
  rw [founder, List.foldl_append]
  rfl

lemma fresh_changed : fresh at_ (log ++ [.changed area maker before after]) a k =
    (fresh at_ log a k || decide (area = a ∧
      ¬ SameItems (itemsAt at_ before k) (itemsAt at_ after k) ∧ itemsAt at_ after k ≠ [])) := by
  rw [fresh, List.foldl_append]
  rfl

lemma fresh_marked : fresh at_ (log ++ [.marked area place]) a k =
    (fresh at_ log a k && !decide (area = a ∧ place = k)) := by
  rw [fresh, List.foldl_append]
  rfl

end places

end Ledger
