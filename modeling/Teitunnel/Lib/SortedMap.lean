import Teitunnel.Lib.SortedSet

/-!
# Sorted maps

A finite map as the list of its entries in the order of the keys.  A map whose keys come from a
set and whose values come from a function, `tabulate`, is what a map filled entry by entry looks
like; `entry` on it changes the function at one key.
-/

namespace SortedMap

variable {κ ν : Type*} [LinearOrder κ]

/-- The entry of `key` changed by `f`, from `default` where there is none. -/
def entry (key : κ) (default : ν) (f : ν → ν) : List (κ × ν) → List (κ × ν)
  | [] => [(key, f default)]
  | (k, v) :: rest =>
      if key < k then (key, f default) :: (k, v) :: rest
      else if key = k then (k, f v) :: rest
      else (k, v) :: entry key default f rest

/-- The values of `f` at the keys of a set. -/
def tabulate (keys : SortedSet κ) (f : κ → ν) : List (κ × ν) :=
  keys.toList.map fun key => (key, f key)

@[simp] lemma length_tabulate (keys : SortedSet κ) (f : κ → ν) :
    (tabulate keys f).length = keys.toList.length := List.length_map _

@[simp] lemma keys_tabulate (keys : SortedSet κ) (f : κ → ν) :
    (tabulate keys f).map Prod.fst = keys.toList := by
  rw [tabulate, List.map_map]
  exact List.map_id _

lemma mem_tabulate {keys : SortedSet κ} {f : κ → ν} {key : κ} {value : ν} :
    (key, value) ∈ tabulate keys f ↔ key ∈ keys ∧ value = f key := by
  rw [tabulate, List.mem_map]
  constructor
  · rintro ⟨k, hk, heq⟩
    obtain ⟨rfl, rfl⟩ := Prod.mk.inj heq
    exact ⟨hk, rfl⟩
  · rintro ⟨hkey, rfl⟩
    exact ⟨key, hkey, rfl⟩

lemma tabulate_congr {keys : SortedSet κ} {f g : κ → ν} (h : ∀ key ∈ keys, f key = g key) :
    tabulate keys f = tabulate keys g :=
  List.map_congr_left fun key hkey => by rw [h key hkey]

/-- The values under the keys of a map, rendered one by one. -/
lemma map_tabulate {ν' : Type*} (keys : SortedSet κ) (f : κ → ν) (g : ν → ν') :
    (tabulate keys f).map (fun field => (field.1, g field.2)) =
      tabulate keys fun key => g (f key) := by
  rw [tabulate, List.map_map]
  rfl

lemma lookup_tabulate [BEq κ] [LawfulBEq κ] (keys : SortedSet κ) (f : κ → ν) (key : κ) :
    (tabulate keys f).lookup key = if key ∈ keys then some (f key) else none := by
  rw [tabulate]
  simp only [← SortedSet.mem_toList]
  induction keys.toList with
  | nil => rfl
  | cons k rest ih =>
      rw [List.map_cons, List.lookup_cons, ih]
      by_cases hkey : key = k
      · subst hkey
        simp
      · rw [beq_false_of_ne hkey]
        simp [hkey]

private lemma entry_map {key : κ} {default : ν} {f : ν → ν} {g : κ → ν} {l : List κ}
    (hsorted : l.Pairwise (· < ·)) (hnew : key ∉ l → g key = default) :
    entry key default f (l.map fun k => (k, g k)) =
      (SortedSet.insertList key l).map fun k => (k, if k = key then f (g k) else g k) := by
  have hother : ∀ l : List κ, (∀ k ∈ l, key < k) →
      l.map (fun k => (k, g k)) = l.map fun k => (k, if k = key then f (g k) else g k) := by
    intro l hl
    refine List.map_congr_left fun k hk => ?_
    rw [if_neg (hl k hk).ne']
  induction l with
  | nil => simp [entry, SortedSet.insertList, hnew]
  | cons k rest ih =>
      rw [List.pairwise_cons] at hsorted
      rw [List.map_cons, entry, SortedSet.insertList]
      split_ifs with hlt heq
      · have hall : ∀ k' ∈ k :: rest, key < k' := by
          intro k' hk'
          rcases List.mem_cons.mp hk' with rfl | hrest
          · exact hlt
          · exact hlt.trans (hsorted.1 k' hrest)
        have hkey : key ∉ k :: rest := fun hmem => lt_irrefl _ (hall key hmem)
        rw [List.map_cons, ← hother _ hall, if_pos rfl, hnew hkey, List.map_cons]
      · subst heq
        rw [List.map_cons, if_pos rfl, hother rest hsorted.1]
      · have hrest : key ∉ rest → g key = default := fun hmem =>
          hnew fun hcons => hmem ((List.mem_cons.mp hcons).resolve_left heq)
        rw [ih hsorted.2 hrest, List.map_cons, if_neg (Ne.symm heq)]

/-- Changing the entry of a key adds the key and changes the function there. -/
lemma entry_tabulate {key : κ} {default : ν} {f : ν → ν} {keys : SortedSet κ} {g : κ → ν}
    (hnew : key ∉ keys → g key = default) :
    entry key default f (tabulate keys g) =
      tabulate (keys.insert key) fun k => if k = key then f (g k) else g k :=
  entry_map keys.sorted hnew

end SortedMap
