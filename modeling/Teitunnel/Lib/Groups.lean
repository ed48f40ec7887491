import Teitunnel.Lib.SortedMap

/-!
# Groups

A list put into a sorted map by a key: the entry of a key is what the elements with this key add up
to, in their order.
-/

namespace SortedMap

variable {α κ ν : Type*} [LinearOrder κ]

/-- The elements of a list with one key. -/
def within (key : α → κ) (k : κ) (l : List α) : List α := l.filter fun a => key a = k

lemma mem_within {key : α → κ} {k : κ} {l : List α} {a : α} :
    a ∈ within key k l ↔ a ∈ l ∧ key a = k := by
  rw [within, List.mem_filter, decide_eq_true_iff]

lemma within_snoc (key : α → κ) (k : κ) (l : List α) (a : α) :
    within key k (l ++ [a]) = within key k l ++ if key a = k then [a] else [] := by
  rw [within, List.filter_append, within]
  by_cases h : key a = k
  · rw [if_pos h, List.filter_cons, if_pos (decide_eq_true h), List.filter_nil]
  · rw [if_neg h, List.filter_cons, if_neg (by simpa using h), List.filter_nil]

lemma within_ne_nil {key : α → κ} {k : κ} {l : List α} : within key k l ≠ [] ↔ k ∈ l.map key := by
  rw [List.mem_map]
  constructor
  · intro hne
    obtain ⟨a, ha⟩ := List.exists_mem_of_ne_nil _ hne
    exact ⟨a, mem_within.mp ha⟩
  · rintro ⟨a, ha⟩
    exact List.ne_nil_of_mem (mem_within.mpr ha)

lemma length_within (key : α → κ) (k : κ) (l : List α) :
    (within key k l).length = (l.map key).count k := by
  rw [within, ← List.countP_eq_length_filter, List.count, List.countP_map]
  refine List.countP_congr fun a _ => ?_
  simp

lemma within_eq_singleton {key : α → κ} {l : List α} (hkeys : (l.map key).Nodup) {a : α}
    (h : a ∈ l) : within key (key a) l = [a] := by
  have hlength : (within key (key a) l).length = 1 := by
    rw [length_within]
    exact List.count_eq_one_of_mem hkeys (List.mem_map_of_mem h)
  obtain ⟨b, hb⟩ := List.length_eq_one_iff.mp hlength
  have hmem : a ∈ within key (key a) l := mem_within.mpr ⟨h, rfl⟩
  rw [hb] at hmem ⊢
  rw [List.mem_singleton.mp hmem]

/-- A map that is filled entry by entry. -/
def collect (key : α → κ) (default : ν) (add : α → ν → ν) (l : List α) : List (κ × ν) :=
  l.foldl (fun map a => entry (key a) default (add a) map) []

/-- The entry of a key is what its elements add up to. -/
lemma collect_eq (key : α → κ) (default : ν) (add : α → ν → ν) (l : List α) :
    collect key default add l = tabulate (.ofList (l.map key)) fun k =>
      (within key k l).foldl (fun value a => add a value) default := by
  induction l using List.reverseRecOn with
  | nil => rfl
  | append_singleton l a ih =>
      have hstep : collect key default add (l ++ [a]) =
          entry (key a) default (add a) (collect key default add l) := by
        rw [collect, List.foldl_append]
        rfl
      rw [hstep, ih, entry_tabulate]
      · have hkeys : (SortedSet.ofList (l.map key)).insert (key a) =
            SortedSet.ofList ((l ++ [a]).map key) := by
          ext k
          simp only [SortedSet.mem_insert, SortedSet.mem_ofList, List.map_append, List.mem_append,
            List.map_cons, List.map_nil, List.mem_singleton, or_comm]
        rw [hkeys]
        refine tabulate_congr fun k _ => ?_
        rw [within_snoc, List.foldl_append]
        by_cases h : k = key a
        · rw [if_pos h, if_pos h.symm]
          rfl
        · rw [if_neg h, if_neg (Ne.symm h)]
          rfl
      · intro hnew
        have hnil : within key (key a) l = [] := by
          by_contra hne
          exact hnew (SortedSet.mem_ofList.mpr (within_ne_nil.mp hne))
        rw [hnil]
        rfl

lemma mem_collect {key : α → κ} {default : ν} {add : α → ν → ν} {l : List α} {k : κ} {value : ν} :
    (k, value) ∈ collect key default add l ↔
      k ∈ l.map key ∧ value = (within key k l).foldl (fun value a => add a value) default := by
  rw [collect_eq, mem_tabulate, SortedSet.mem_ofList]

lemma lookup_collect [BEq κ] [LawfulBEq κ] {key : α → κ} {default : ν} {add : α → ν → ν} {l : List α}
    {k : κ} (h : k ∈ l.map key) : (collect key default add l).lookup k =
      some ((within key k l).foldl (fun value a => add a value) default) := by
  rw [collect_eq, lookup_tabulate, if_pos (SortedSet.mem_ofList.mpr h)]

/-- A key counts once among different ones. -/
lemma sum_single {keys : List κ} (hkeys : keys.Nodup) {k : κ} (h : k ∈ keys) (n : ℕ) :
    (keys.map fun k' => if k = k' then n else 0).sum = n := by
  have hnone : ∀ rest : List κ, k ∉ rest →
      (rest.map fun k' => if k = k' then n else 0).sum = 0 := by
    intro rest hrest
    rw [List.sum_eq_zero_iff]
    intro m hm
    obtain ⟨k', hk', rfl⟩ := List.mem_map.mp hm
    have hne : k ≠ k' := fun heq => hrest (heq ▸ hk')
    exact if_neg hne
  induction keys with
  | nil => cases h
  | cons k' rest ih =>
      rw [List.nodup_cons] at hkeys
      rw [List.map_cons, List.sum_cons]
      rcases List.mem_cons.mp h with rfl | hrest
      · rw [if_pos rfl, hnone rest hkeys.1, Nat.add_zero]
      · have hne : k ≠ k' := fun heq => hkeys.1 (heq ▸ hrest)
        rw [if_neg hne, ih hkeys.2 hrest, Nat.zero_add]

/-- The weights of the groups add up to the weight of the list. -/
lemma sum_within (key : α → κ) (weight : α → ℕ) (l : List α) :
    ((SortedSet.ofList (l.map key)).toList.map fun k => ((within key k l).map weight).sum).sum =
      (l.map weight).sum := by
  have hnodup : (SortedSet.ofList (l.map key)).toList.Nodup :=
    (SortedSet.ofList (l.map key)).sorted.imp ne_of_lt
  have hall : ∀ keys : List κ, keys.Nodup → ∀ l : List α, (∀ a ∈ l, key a ∈ keys) →
      (keys.map fun k => ((within key k l).map weight).sum).sum = (l.map weight).sum := by
    intro keys hkeys l
    induction l with
    | nil => intro _; simp [within]
    | cons a l ih =>
        intro hmem
        have hrest := ih fun b hb => hmem b (List.mem_cons_of_mem a hb)
        have hone : ∀ k, ((within key k (a :: l)).map weight).sum =
            (if key a = k then weight a else 0) + ((within key k l).map weight).sum := by
          intro k
          rw [within, within]
          by_cases h : key a = k
          · rw [List.filter_cons, if_pos (decide_eq_true h), List.map_cons, List.sum_cons, if_pos h]
          · rw [List.filter_cons, if_neg (by simpa using h), if_neg h, Nat.zero_add]
        simp only [hone]
        rw [List.sum_map_add, sum_single hkeys (hmem a List.mem_cons_self), hrest, List.map_cons,
          List.sum_cons]
  refine hall _ hnodup l fun a ha => ?_
  rw [SortedSet.mem_toList, SortedSet.mem_ofList]
  exact List.mem_map_of_mem ha

/-- Sums whose parts are not greater are equal exactly when all parts are. -/
lemma sum_eq_sum_iff {l : List α} {f g : α → ℕ} (hle : ∀ a ∈ l, f a ≤ g a) :
    (l.map f).sum = (l.map g).sum ↔ ∀ a ∈ l, f a = g a := by
  constructor
  · intro hsum a ha
    by_contra hne
    exact (List.sum_lt_sum f g hle ⟨a, ha, lt_of_le_of_ne (hle a ha) hne⟩).ne hsum
  · intro h
    rw [List.map_congr_left h]

/-! ## The last of each key -/

/-- A map in which an element takes the place of an earlier one with its key. -/
def lasts (key : α → κ) (value : α → ν) (l : List α) : List (κ × ν) :=
  l.foldl (fun map a => entry (key a) (value a) (fun _ => value a) map) []

lemma entry_const (k : κ) (default default' value : ν) (map : List (κ × ν)) :
    entry k default (fun _ => value) map = entry k default' (fun _ => value) map := by
  induction map with
  | nil => rfl
  | cons first rest ih =>
      obtain ⟨k', value'⟩ := first
      rw [entry, entry, ih]

/-- The value of a key is that of its last element. -/
lemma lasts_eq (key : α → κ) (value : α → ν) (default : ν) (l : List α) :
    lasts key value l = tabulate (.ofList (l.map key)) fun k =>
      ((within key k l).getLast?.map value).getD default := by
  have hcollect : lasts key value l = collect key default (fun a _ => value a) l := by
    rw [lasts, collect]
    refine List.foldl_ext _ _ _ fun map a _ => ?_
    exact entry_const _ _ _ _ _
  rw [hcollect, collect_eq]
  refine tabulate_congr fun k _ => ?_
  induction within key k l using List.reverseRecOn with
  | nil => rfl
  | append_singleton rest a ih =>
      rw [List.foldl_append, List.getLast?_append]
      rfl

/-- The elements that stay have all the weight exactly when no two have one key. -/
lemma sum_lasts (key : α → κ) (value : α → ν) (weight : ν → ℕ) {l : List α}
    (hpos : ∀ a ∈ l, 0 < weight (value a)) :
    ((lasts key value l).map fun entry => weight entry.2).sum ≤
        (l.map fun a => weight (value a)).sum ∧
      (((lasts key value l).map fun entry => weight entry.2).sum =
          (l.map fun a => weight (value a)).sum ↔ (l.map key).Nodup) := by
  cases hl : l with
  | nil => exact ⟨le_rfl, iff_of_true rfl List.nodup_nil⟩
  | cons first rest =>
      rw [← hl]
      have hgroup : ∀ k ∈ (SortedSet.ofList (l.map key)).toList, ∃ front last,
          within key k l = front ++ [last] := by
        intro k hk
        rw [SortedSet.mem_toList, SortedSet.mem_ofList] at hk
        exact ⟨_, _, (List.dropLast_append_getLast (within_ne_nil.mpr hk)).symm⟩
      set parts := fun k => weight (((within key k l).getLast?.map value).getD (value first))
        with hparts
      set wholes := fun k => ((within key k l).map fun a => weight (value a)).sum with hwholes
      have hle : ∀ k ∈ (SortedSet.ofList (l.map key)).toList, parts k ≤ wholes k := by
        intro k hk
        obtain ⟨front, last, hwithin⟩ := hgroup k hk
        simp only [hparts, hwholes, hwithin]
        simp
      have hsum : ((lasts key value l).map fun entry => weight entry.2).sum =
          ((SortedSet.ofList (l.map key)).toList.map parts).sum := by
        rw [lasts_eq key value (value first), tabulate, List.map_map]
        rfl
      rw [hsum, ← sum_within key fun a => weight (value a)]
      refine ⟨List.sum_le_sum hle, ?_⟩
      rw [sum_eq_sum_iff hle]
      constructor
      · intro hall
        rw [List.nodup_iff_count_le_one]
        intro k
        by_cases hk : k ∈ l.map key
        · have hmem : k ∈ (SortedSet.ofList (l.map key)).toList := by
            rw [SortedSet.mem_toList, SortedSet.mem_ofList]
            exact hk
          obtain ⟨front, last, hwithin⟩ := hgroup k hmem
          have heq := hall k hmem
          simp only [hparts, hwholes, hwithin] at heq
          have hfront : front = [] := by
            by_contra hne
            obtain ⟨a, ha⟩ := List.exists_mem_of_ne_nil front hne
            have hmem : a ∈ l := by
              have hin : a ∈ within key k l := hwithin ▸ List.mem_append_left _ ha
              exact (mem_within.mp hin).1
            have hsome : weight (value a) ≤ (front.map fun a => weight (value a)).sum :=
              List.single_le_sum (fun _ _ => Nat.zero_le _) _ (List.mem_map_of_mem ha)
            have hown := hpos a hmem
            simp at heq
            omega
          rw [← length_within, hwithin, hfront]
          rfl
        · rw [List.count_eq_zero_of_not_mem hk]
          exact Nat.zero_le 1
      · intro hnodup k hk
        obtain ⟨front, last, hwithin⟩ := hgroup k hk
        have hcount := List.nodup_iff_count_le_one.mp hnodup k
        have hfront : front = [] := by
          rw [← length_within, hwithin, List.length_append, List.length_singleton] at hcount
          exact List.length_eq_zero_iff.mp (by omega)
        simp [hparts, hwholes, hwithin, hfront]

end SortedMap
