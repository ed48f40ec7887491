import Mathlib

/-!
# Tables

A finite map as the list of its entries, no two under one key.  The order of the entries means
nothing: everything is said through `find`.
-/

/-- A finite map from keys to values. -/
structure Table (κ ν : Type*) where
  entries : List (κ × ν)
  distinct : (entries.map Prod.fst).Nodup

namespace Table

variable {κ ν : Type*}

instance : Inhabited (Table κ ν) := ⟨⟨[], List.nodup_nil⟩⟩

def empty : Table κ ν := ⟨[], List.nodup_nil⟩

def size (t : Table κ ν) : ℕ := t.entries.length

/-- The entries that satisfy `p`. -/
def retain (p : κ → ν → Bool) (t : Table κ ν) : Table κ ν where
  entries := t.entries.filter fun entry => p entry.1 entry.2
  distinct := t.distinct.sublist (List.filter_sublist.map Prod.fst)

variable [DecidableEq κ]

def find (t : Table κ ν) (k : κ) : Option ν :=
  (t.entries.find? fun entry => entry.1 = k).map Prod.snd

def contains (t : Table κ ν) (k : κ) : Bool := (t.find k).isSome

def erase (t : Table κ ν) (k : κ) : Table κ ν := t.retain fun k' _ => k' ≠ k

/-- `v` under `k`, in place of what was there. -/
def insert (t : Table κ ν) (k : κ) (v : ν) : Table κ ν where
  entries := (k, v) :: (t.erase k).entries
  distinct := by
    rw [List.map_cons, List.nodup_cons]
    refine ⟨fun hmem => ?_, (t.erase k).distinct⟩
    obtain ⟨entry, hentry, hkey⟩ := List.mem_map.mp hmem
    have hne := (List.mem_filter.mp hentry).2
    simp [hkey] at hne

/-- The entries in turn, the last one of a key in place. -/
def ofList (l : List (κ × ν)) : Table κ ν :=
  l.foldl (fun t entry => t.insert entry.1 entry.2) empty

variable {t : Table κ ν} {k k' : κ} {v : ν}

lemma find_eq_some_iff : t.find k = some v ↔ (k, v) ∈ t.entries := by
  rw [find, Option.map_eq_some_iff]
  constructor
  · rintro ⟨⟨k', v'⟩, hfind, rfl⟩
    have hkey : k' = k := by simpa using List.find?_some hfind
    rw [← hkey]
    exact List.mem_of_find?_eq_some hfind
  · intro hmem
    cases hfind : t.entries.find? fun entry => entry.1 = k with
    | none =>
        have hnot := List.find?_eq_none.mp hfind (k, v) hmem
        simp at hnot
    | some entry =>
        have hkey : entry.1 = k := by simpa using List.find?_some hfind
        have heq : entry = (k, v) :=
          List.inj_on_of_nodup_map t.distinct (List.mem_of_find?_eq_some hfind) hmem hkey
        exact ⟨entry, rfl, by rw [heq]⟩

@[simp] lemma find_empty : (empty : Table κ ν).find k = none := rfl

lemma find_retain_eq_some_iff {p : κ → ν → Bool} :
    (t.retain p).find k = some v ↔ t.find k = some v ∧ p k v = true := by
  rw [find_eq_some_iff, find_eq_some_iff, retain, List.mem_filter]

lemma find_retain (p : κ → ν → Bool) (k : κ) :
    (t.retain p).find k = (t.find k).filter (p k) := by
  ext v
  rw [find_retain_eq_some_iff, Option.filter_eq_some_iff]

@[simp] lemma find_erase_self : (t.erase k).find k = none := by
  rw [erase, find_retain]
  cases t.find k <;> simp

lemma find_erase_of_ne (h : k' ≠ k) : (t.erase k).find k' = t.find k' := by
  rw [erase, find_retain]
  cases t.find k' <;> simp [h]

@[simp] lemma find_insert_self : (t.insert k v).find k = some v :=
  find_eq_some_iff.mpr List.mem_cons_self

lemma find_insert_of_ne (h : k' ≠ k) : (t.insert k v).find k' = t.find k' := by
  ext w
  rw [find_eq_some_iff, insert, List.mem_cons, or_iff_right fun heq => h (congrArg Prod.fst heq),
    ← find_eq_some_iff, find_erase_of_ne h]

lemma find_insert : (t.insert k v).find k' = if k' = k then some v else t.find k' := by
  split_ifs with h
  · rw [h, find_insert_self]
  · exact find_insert_of_ne h

lemma find_erase : (t.erase k).find k' = if k' = k then none else t.find k' := by
  split_ifs with h
  · rw [h, find_erase_self]
  · exact find_erase_of_ne h

lemma find_eq_none_iff : t.find k = none ↔ ∀ w, (k, w) ∉ t.entries := by
  constructor
  · intro hnone w hmem
    rw [find_eq_some_iff.mpr hmem] at hnone
    cases hnone
  · intro hall
    cases hfind : t.find k with
    | none => rfl
    | some w => exact absurd (find_eq_some_iff.mp hfind) (hall w)

/-- What a table of a list has comes from the list, or was there before. -/
lemma find_foldl_insert {l : List (κ × ν)}
    (h : (l.foldl (fun t entry => t.insert entry.1 entry.2) t).find k = some v) :
    (k, v) ∈ l ∨ t.find k = some v := by
  induction l generalizing t with
  | nil => exact .inr h
  | cons entry rest ih =>
      rcases ih h with hrest | hinsert
      · exact .inl (List.mem_cons_of_mem _ hrest)
      · rw [find_insert] at hinsert
        split_ifs at hinsert with hkey
        · obtain rfl := Option.some.inj hinsert
          exact .inl (by rw [hkey]; exact List.mem_cons_self)
        · exact .inr hinsert

lemma mem_of_find_ofList {l : List (κ × ν)} (h : (ofList l).find k = some v) : (k, v) ∈ l := by
  rcases find_foldl_insert h with hmem | hempty
  · exact hmem
  · cases hempty

/-- A key of the list has an entry. -/
lemma find_foldl_insert_isSome {l : List (κ × ν)}
    (h : (∃ v, (k, v) ∈ l) ∨ (t.find k).isSome) :
    ((l.foldl (fun t entry => t.insert entry.1 entry.2) t).find k).isSome := by
  induction l generalizing t with
  | nil => exact h.resolve_left (by simp)
  | cons entry rest ih =>
      refine ih ?_
      rcases h with ⟨v, hmem⟩ | hsome
      · rcases List.mem_cons.mp hmem with rfl | hrest
        · exact .inr (by rw [find_insert_self]; rfl)
        · exact .inl ⟨v, hrest⟩
      · right
        rw [find_insert]
        split_ifs
        · rfl
        · exact hsome

/-- The only value a list has for a key is the one the table has. -/
lemma find_ofList_of_unique {l : List (κ × ν)} (hmem : (k, v) ∈ l)
    (hunique : ∀ w, (k, w) ∈ l → w = v) : (ofList l).find k = some v := by
  obtain ⟨w, hw⟩ := Option.isSome_iff_exists.mp (find_foldl_insert_isSome (.inl ⟨v, hmem⟩))
  have hw' : (ofList l).find k = some w := hw
  rw [hw', hunique w (mem_of_find_ofList hw')]

/-- An entry under a new key comes on top. -/
lemma size_insert_of_none (h : t.find k = none) : (t.insert k v).size = t.size + 1 := by
  have hall : ∀ entry ∈ t.entries, decide (entry.1 ≠ k) = true := by
    rintro ⟨k', w⟩ hmem
    have hsome := find_eq_some_iff.mpr hmem
    refine decide_eq_true fun hkey => ?_
    have hkey' : k' = k := hkey
    rw [hkey', h] at hsome
    cases hsome
  have heq : (t.erase k).entries = t.entries := List.filter_eq_self.mpr hall
  show (t.erase k).entries.length + 1 = t.entries.length + 1
  rw [heq]

end Table
