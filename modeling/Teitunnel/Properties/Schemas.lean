import Teitunnel.OpenApi.Schema

/-!
# What a learned schema knows of its samples

`of` says what there is to learn from a list of samples without going through them one by one: at
each place the kinds and formats met, the values under every name that is kept, and all the items.
Samples added one after another give exactly that (`addAt_of`), so whether their order matters
comes down to which names come first at each place.
-/

namespace Json

/-- No object inside has two members of one name. -/
inductive Distinct : Json → Prop where
  | null : Distinct .null
  | bool (b : Bool) : Distinct (.bool b)
  | num (n : ℤ) : Distinct (.num n)
  | float (text : String) : Distinct (.float text)
  | str (s : String) : Distinct (.str s)
  | arr {items : List Json} (h : ∀ item ∈ items, Distinct item) : Distinct (.arr items)
  | obj {fields : List (String × Json)} (hkeys : (fields.map Prod.fst).Nodup)
      (h : ∀ field ∈ fields, Distinct field.2) : Distinct (.obj fields)

/-- The items of an array (nothing else has any). -/
def itemsIn : Json → List Json
  | .arr items => items
  | _ => []

end Json

namespace List

variable {α : Type*} [BEq α] [LawfulBEq α]

lemma nodup_eraseDups (l : List α) : l.eraseDups.Nodup := by
  induction hn : l.length using Nat.strong_induction_on generalizing l with
  | h n ih =>
      cases l with
      | nil => exact nodup_nil
      | cons a l =>
          have hlt : (l.filter fun b => !b == a).length < n := by
            rw [← hn, length_cons]
            exact Nat.lt_succ_of_le (length_filter_le _ l)
          rw [eraseDups_cons, nodup_cons, mem_eraseDups, mem_filter]
          refine ⟨fun h => ?_, ih _ hlt _ rfl⟩
          simp at h

/-- Where nothing comes twice, nothing goes. -/
lemma eraseDups_of_nodup {l : List α} (h : l.Nodup) : l.eraseDups = l := by
  induction l with
  | nil => exact eraseDups_nil
  | cons a l ih =>
      rw [nodup_cons] at h
      have hall : (l.filter fun b => !b == a) = l := by
        refine filter_eq_self.mpr fun b hb => ?_
        have hne : b ≠ a := fun heq => h.1 (heq ▸ hb)
        simpa using hne
      rw [eraseDups_cons, hall, ih h.2]

/-- What comes last is new or was there. -/
lemma eraseDups_snoc (l : List α) (a : α) :
    (l ++ [a]).eraseDups = if a ∈ l then l.eraseDups else l.eraseDups ++ [a] := by
  rw [eraseDups_append, removeAll]
  split_ifs with h
  · rw [filter_cons_of_neg (by simpa using h), filter_nil, eraseDups_nil, append_nil]
  · rw [filter_cons_of_pos (by simpa using h), filter_nil]
    rfl

end List

namespace Teitunnel.OpenApi

open Json (Distinct)
open Learned (addAt addItems addFields addField property?)

/-! ## What is met at a place -/

/-- The objects among the samples. -/
def objectsOf (samples : List Json) : List (List (String × Json)) :=
  samples.filterMap Json.asObject

/-- The items of all arrays among the samples. -/
def itemsOf (samples : List Json) : List Json := samples.flatMap Json.itemsIn

/-- What the objects among the samples have under `name`. -/
def valuesAt (name : String) (samples : List Json) : List Json :=
  samples.filterMap (Json.get? name)

/-- The names the objects among the samples have, in the order in which they are met. -/
def names (samples : List Json) : List String :=
  ((objectsOf samples).flatMap fun fields => fields.map Prod.fst).eraseDups

/-- The names that are met before the limit is reached. -/
def kept (samples : List Json) : List String := (names samples).take MAX_PROPERTIES

/-- What is learned from `samples` with `n` levels to go. -/
def Learned.of : ℕ → List Json → Learned
  | 0, samples => { isOpaque := !samples.isEmpty }
  | n + 1, samples =>
      { kinds := .ofList (samples.map Kind.of)
        formats := .ofList ((samples.filterMap Json.asStr).map stringFormat)
        objects := (objectsOf samples).length
        properties := SortedMap.tabulate (.ofList (kept samples)) fun name =>
          ((valuesAt name samples).length, of n (valuesAt name samples))
        items := if .array ∈ samples.map Kind.of then some (of n (itemsOf samples)) else none }

section Places

variable {samples : List Json} {done : List (String × Json)} {key : String} {value : Json}

@[simp] lemma objectsOf_append (samples samples' : List Json) :
    objectsOf (samples ++ samples') = objectsOf samples ++ objectsOf samples' :=
  List.filterMap_append

@[simp] lemma itemsOf_append (samples samples' : List Json) :
    itemsOf (samples ++ samples') = itemsOf samples ++ itemsOf samples' :=
  List.flatMap_append

@[simp] lemma valuesAt_append (name : String) (samples samples' : List Json) :
    valuesAt name (samples ++ samples') = valuesAt name samples ++ valuesAt name samples' :=
  List.filterMap_append

lemma mem_names : key ∈ names samples ↔ ∃ fields ∈ objectsOf samples, key ∈ fields.map Prod.fst := by
  rw [names, List.mem_eraseDups, List.mem_flatMap]

lemma nodup_names (samples : List Json) : (names samples).Nodup := List.nodup_eraseDups _

lemma nodup_kept (samples : List Json) : (kept samples).Nodup :=
  (nodup_names samples).sublist (List.take_sublist ..)

lemma kept_subset : key ∈ kept samples → key ∈ names samples := List.mem_of_mem_take

lemma lookup_eq_none_iff {fields : List (String × Json)} :
    fields.lookup key = none ↔ key ∉ fields.map Prod.fst := by
  rw [List.lookup_eq_none_iff, List.mem_map]
  constructor
  · rintro h ⟨field, hfield, rfl⟩
    exact absurd (h field hfield) (by simp)
  · intro h field hfield
    rw [bne_iff_ne]
    rintro rfl
    exact h ⟨field, hfield, rfl⟩

/-- A name nothing was met under has no values. -/
lemma valuesAt_eq_nil (h : key ∉ names samples) : valuesAt key samples = [] := by
  rw [valuesAt, List.filterMap_eq_nil_iff]
  intro sample hsample
  cases sample with
  | obj fields =>
      refine lookup_eq_none_iff.mpr fun hkey => h (mem_names.mpr ⟨fields, ?_, hkey⟩)
      exact List.mem_filterMap.mpr ⟨_, hsample, rfl⟩
  | _ => rfl

/-- Without arrays there are no items. -/
lemma itemsOf_eq_nil (h : Kind.array ∉ samples.map Kind.of) : itemsOf samples = [] := by
  rw [itemsOf, List.flatMap_eq_nil_iff]
  intro sample hsample
  cases sample with
  | arr inner => exact absurd (List.mem_map.mpr ⟨Json.arr inner, hsample, rfl⟩) h
  | _ => rfl

/-- One more member of the last object: its name comes last. -/
lemma names_snoc : names (samples ++ [.obj (done ++ [(key, value)])]) =
    if key ∈ names (samples ++ [.obj done]) then names (samples ++ [.obj done])
    else names (samples ++ [.obj done]) ++ [key] := by
  have hkeys : ((objectsOf (samples ++ [.obj (done ++ [(key, value)])])).flatMap
      fun fields => fields.map Prod.fst) =
      ((objectsOf (samples ++ [.obj done])).flatMap fun fields => fields.map Prod.fst) ++ [key] := by
    simp [objectsOf, Json.asObject]
  rw [names, hkeys, List.eraseDups_snoc, ← names]
  simp only [names, List.mem_eraseDups]

lemma valuesAt_snoc_self (h : key ∉ done.map Prod.fst) :
    valuesAt key (samples ++ [.obj (done ++ [(key, value)])]) =
      valuesAt key (samples ++ [.obj done]) ++ [value] := by
  have hnone := lookup_eq_none_iff.mpr h
  simp [valuesAt, Json.get?, List.lookup_append, hnone]

lemma valuesAt_snoc_of_ne {name : String} (h : name ≠ key) :
    valuesAt name (samples ++ [.obj (done ++ [(key, value)])]) =
      valuesAt name (samples ++ [.obj done]) := by
  have hnone : [(key, value)].lookup name = none := by simp [List.lookup, beq_false_of_ne h]
  have hlookup : Json.get? name (.obj (done ++ [(key, value)])) = Json.get? name (.obj done) := by
    rw [Json.get?, List.lookup_append, hnone, Option.or_none, Json.get?]
  simp only [valuesAt, List.filterMap_append, List.filterMap_cons, hlookup, List.filterMap_nil]

end Places

/-! ## Learning sample by sample -/

section Learning

variable {samples : List Json} {done : List (String × Json)} {key : String} {value : Json}
  {n depth : ℕ}

lemma ofList_snoc {α : Type} [LinearOrder α] (l : List α) (a : α) :
    SortedSet.ofList (l ++ [a]) = (SortedSet.ofList l).insert a := by
  ext b
  simp [or_comm]

lemma toList_ofList_of_nodup {α : Type} [LinearOrder α] {l : List α} (h : l.Nodup) :
    (SortedSet.ofList l).toList.Perm l := by
  refine (List.perm_ext_iff_of_nodup ?_ h).mpr fun a => SortedSet.mem_ofList
  exact (SortedSet.ofList l).sorted.imp ne_of_lt

@[simp] lemma Learned.of_nil (n : ℕ) : Learned.of n [] = {} := by
  cases n <;> rfl

/-- A scalar changes only the kinds and the formats. -/
lemma of_snoc_scalar (hobject : value.asObject = none) (hitems : value.itemsIn = [])
    (harray : Kind.of value ≠ .array) (hget : ∀ name, value.get? name = none) :
    Learned.of (n + 1) (samples ++ [value]) =
      { Learned.of (n + 1) samples with
        kinds := (Learned.of (n + 1) samples).kinds.insert (Kind.of value)
        formats := .ofList (((samples ++ [value]).filterMap Json.asStr).map stringFormat) } := by
  have hobjects : objectsOf [value] = [] := by rw [objectsOf, List.filterMap_cons, hobject]; rfl
  have hnames : names (samples ++ [value]) = names samples := by
    rw [names, objectsOf_append, hobjects, List.append_nil, ← names]
  have hvalues : ∀ name, valuesAt name (samples ++ [value]) = valuesAt name samples := by
    intro name
    rw [valuesAt_append, valuesAt, valuesAt, List.filterMap_cons, hget]
    exact List.append_nil _
  have hitems' : itemsOf (samples ++ [value]) = itemsOf samples := by
    simp [itemsOf, hitems]
  have hkinds : Kind.array ∈ (samples ++ [value]).map Kind.of ↔
      Kind.array ∈ samples.map Kind.of := by
    rw [List.map_append, List.mem_append, List.map_singleton, List.mem_singleton,
      or_iff_left harray.symm]
  simp only [Learned.of, kept, hnames, hvalues, hitems', hkinds, objectsOf_append, hobjects,
    List.append_nil]
  rw [List.map_append, List.map_singleton, ofList_snoc]

/-- A scalar that is no text changes only the kinds. -/
lemma of_snoc_plain (hobject : value.asObject = none) (hitems : value.itemsIn = [])
    (harray : Kind.of value ≠ .array) (hget : ∀ name, value.get? name = none)
    (hstr : value.asStr = none) :
    Learned.of (n + 1) (samples ++ [value]) =
      { Learned.of (n + 1) samples with
        kinds := (Learned.of (n + 1) samples).kinds.insert (Kind.of value) } := by
  rw [of_snoc_scalar hobject hitems harray hget, List.filterMap_append, List.filterMap_cons, hstr,
    List.filterMap_nil, List.append_nil]
  rfl

lemma mem_kept_of_few (h : (kept samples).length < MAX_PROPERTIES) :
    kept samples = names samples := by
  rw [kept, List.length_take, min_lt_iff, or_iff_right (lt_irrefl _)] at h
  exact List.take_of_length_le h.le

/-- A name that was met, or that comes when no more are kept, changes nothing. -/
lemma kept_snoc_of_full (h : key ∈ kept (samples ++ [.obj done]) ∨
    MAX_PROPERTIES ≤ (kept (samples ++ [.obj done])).length) :
    kept (samples ++ [.obj (done ++ [(key, value)])]) = kept (samples ++ [.obj done]) := by
  rw [kept, names_snoc]
  split_ifs with hname
  · rfl
  · have hfull := h.resolve_left fun hkept => hname (kept_subset hkept)
    rw [List.take_append_of_le_length (hfull.trans (List.length_take_le' ..)), kept]

/-- A new name comes last while there is room. -/
lemma kept_snoc_of_new (hkey : key ∉ kept (samples ++ [.obj done]))
    (hfew : (kept (samples ++ [.obj done])).length < MAX_PROPERTIES) :
    kept (samples ++ [.obj (done ++ [(key, value)])]) =
      kept (samples ++ [.obj done]) ++ [key] := by
  have hall := mem_kept_of_few hfew
  rw [kept, names_snoc, ← hall, if_neg hkey, List.take_of_length_le]
  rw [List.length_append, List.length_singleton]
  exact hfew

/-- The properties learned from some samples. -/
def propertiesFrom (n : ℕ) (samples : List Json) : List (String × ℕ × Learned) :=
  SortedMap.tabulate (.ofList (kept samples)) fun name =>
    ((valuesAt name samples).length, Learned.of n (valuesAt name samples))

lemma Learned.of_succ (n : ℕ) (samples : List Json) : Learned.of (n + 1) samples =
    { kinds := .ofList (samples.map Kind.of)
      formats := .ofList ((samples.filterMap Json.asStr).map stringFormat)
      objects := (objectsOf samples).length
      properties := propertiesFrom n samples
      items := if .array ∈ samples.map Kind.of then some (.of n (itemsOf samples)) else none } := rfl

lemma length_propertiesFrom (n : ℕ) (samples : List Json) :
    (propertiesFrom n samples).length = (kept samples).length := by
  rw [propertiesFrom, SortedMap.length_tabulate]
  exact (toList_ofList_of_nodup (nodup_kept samples)).length_eq

lemma lookup_propertiesFrom (n : ℕ) (samples : List Json) (key : String) :
    (propertiesFrom n samples).lookup key =
      if key ∈ kept samples then some ((valuesAt key samples).length,
        Learned.of n (valuesAt key samples)) else none := by
  rw [propertiesFrom, SortedMap.lookup_tabulate]
  simp only [SortedSet.mem_ofList]

lemma propertiesFrom_snoc_of_skipped (hkey : key ∉ kept (samples ++ [.obj done]))
    (hfull : MAX_PROPERTIES ≤ (kept (samples ++ [.obj done])).length) :
    propertiesFrom n (samples ++ [.obj (done ++ [(key, value)])]) =
      propertiesFrom n (samples ++ [.obj done]) := by
  rw [propertiesFrom, propertiesFrom, kept_snoc_of_full (.inr hfull)]
  refine SortedMap.tabulate_congr fun name hname => ?_
  have hne : name ≠ key := by
    rintro rfl
    exact hkey (SortedSet.mem_ofList.mp hname)
  rw [valuesAt_snoc_of_ne hne]

lemma propertiesFrom_snoc_of_kept (hnew : key ∉ done.map Prod.fst)
    (hvalue : ∀ samples, addAt value depth (.of n samples) = .of n (samples ++ [value]))
    (h : key ∈ kept (samples ++ [.obj done]) ∨
      (kept (samples ++ [.obj done])).length < MAX_PROPERTIES) :
    propertiesFrom n (samples ++ [.obj (done ++ [(key, value)])]) =
      SortedMap.entry key (0, {})
        (fun entry => (entry.1 + 1, addAt value depth entry.2))
        (propertiesFrom n (samples ++ [.obj done])) := by
  have hkeys : SortedSet.ofList (kept (samples ++ [.obj (done ++ [(key, value)])])) =
      (SortedSet.ofList (kept (samples ++ [.obj done]))).insert key := by
    by_cases hkey : key ∈ kept (samples ++ [.obj done])
    · rw [kept_snoc_of_full (.inl hkey)]
      ext name
      simp only [SortedSet.mem_insert, SortedSet.mem_ofList, iff_or_self]
      rintro rfl
      exact hkey
    · rw [kept_snoc_of_new hkey (h.resolve_left hkey), ofList_snoc]
  have hfirst : key ∉ SortedSet.ofList (kept (samples ++ [.obj done])) →
      ((valuesAt key (samples ++ [.obj done])).length,
        Learned.of n (valuesAt key (samples ++ [.obj done]))) = (0, {}) := by
    intro hkey
    rw [SortedSet.mem_ofList] at hkey
    have hname : key ∉ names (samples ++ [.obj done]) := by
      rwa [← mem_kept_of_few (h.resolve_left hkey)]
    rw [valuesAt_eq_nil hname, Learned.of_nil]
    rfl
  rw [propertiesFrom, propertiesFrom, SortedMap.entry_tabulate hfirst, hkeys]
  refine SortedMap.tabulate_congr fun name _ => ?_
  by_cases hname : name = key
  · subst hname
    rw [if_pos rfl, valuesAt_snoc_self hnew, List.length_append, List.length_singleton, hvalue]
  · rw [if_neg hname, valuesAt_snoc_of_ne hname]

/-- The last object has one more member. -/
lemma addField_of (hkey : key ∉ done.map Prod.fst)
    (hvalue : ∀ samples, addAt value depth (.of n samples) = .of n (samples ++ [value])) :
    addField (key, value) depth (.of (n + 1) (samples ++ [.obj done])) =
      .of (n + 1) (samples ++ [.obj (done ++ [(key, value)])]) := by
  have hkinds : (samples ++ [Json.obj (done ++ [(key, value)])]).map Kind.of =
      (samples ++ [Json.obj done]).map Kind.of := by simp [Kind.of]
  have hstrings : (samples ++ [Json.obj (done ++ [(key, value)])]).filterMap Json.asStr =
      (samples ++ [Json.obj done]).filterMap Json.asStr := by
    rw [List.filterMap_append, List.filterMap_append]
    rfl
  have hobjects : (objectsOf (samples ++ [.obj (done ++ [(key, value)])])).length =
      (objectsOf (samples ++ [.obj done])).length := by simp [objectsOf, Json.asObject]
  have hitems : itemsOf (samples ++ [.obj (done ++ [(key, value)])]) =
      itemsOf (samples ++ [.obj done]) := by simp [itemsOf, Json.itemsIn]
  have hlookup := lookup_propertiesFrom n (samples ++ [.obj done]) key
  have hlength := length_propertiesFrom n (samples ++ [.obj done])
  rw [addField, Learned.of_succ, Learned.of_succ, hkinds, hstrings, hobjects, hitems]
  simp only [property?, hlookup, hlength]
  by_cases hkept : key ∈ kept (samples ++ [.obj done])
  · rw [if_pos hkept, propertiesFrom_snoc_of_kept hkey hvalue (.inl hkept)]
    rfl
  · rw [if_neg hkept]
    by_cases hfull : MAX_PROPERTIES ≤ (kept (samples ++ [.obj done])).length
    · rw [propertiesFrom_snoc_of_skipped hkept hfull]
      simp [hfull]
    · rw [propertiesFrom_snoc_of_kept hkey hvalue (.inr (not_le.mp hfull))]
      simp [hfull]

/-- The last object has all the members that were left to come. -/
lemma addFields_of {fields : List (String × Json)} (hkeys : ((done ++ fields).map Prod.fst).Nodup)
    (hvalues : ∀ field ∈ fields, ∀ samples,
      addAt field.2 depth (.of n samples) = .of n (samples ++ [field.2])) :
    addFields fields depth (.of (n + 1) (samples ++ [.obj done])) =
      .of (n + 1) (samples ++ [.obj (done ++ fields)]) := by
  induction fields generalizing done with
  | nil => rw [addFields, List.append_nil]
  | cons field rest ih =>
      obtain ⟨key, value⟩ := field
      have hkey : key ∉ done.map Prod.fst := by
        intro hmem
        rw [List.map_append, List.nodup_append] at hkeys
        exact hkeys.2.2 key hmem key (by simp) rfl
      have happend : done ++ (key, value) :: rest = done ++ [(key, value)] ++ rest := by simp
      rw [addFields, addField_of hkey (hvalues _ List.mem_cons_self), happend]
      exact ih (happend ▸ hkeys) fun field hfield => hvalues field (List.mem_cons_of_mem _ hfield)

lemma addItems_of {items : List Json}
    (hitems : ∀ item ∈ items, ∀ samples,
      addAt item depth (.of n samples) = .of n (samples ++ [item])) :
    addItems items depth (.of n samples) = .of n (samples ++ items) := by
  induction items generalizing samples with
  | nil => rw [addItems, List.append_nil]
  | cons item rest ih =>
      rw [addItems, hitems item List.mem_cons_self,
        ih fun item hitem => hitems item (List.mem_cons_of_mem _ hitem)]
      simp

/-- Below the limit there is nothing to learn. -/
lemma addAt_zero (h : MAX_DEPTH ≤ depth) :
    addAt value depth (.of 0 samples) = .of 0 (samples ++ [value]) := by
  rw [Learned.addAt.eq_def, if_pos h, Learned.of, Learned.of]
  simp

/-- One more array. -/
lemma addAt_array {items : List Json} (hdepth : depth < MAX_DEPTH)
    (h : ∀ samples, addItems items (depth + 1) (.of n samples) = .of n (samples ++ items)) :
    addAt (.arr items) depth (.of (n + 1) samples) = .of (n + 1) (samples ++ [.arr items]) := by
  have hobjects : objectsOf (samples ++ [.arr items]) = objectsOf samples := by
    rw [objectsOf_append]
    exact List.append_nil _
  have hnames : names (samples ++ [.arr items]) = names samples := by rw [names, hobjects, ← names]
  have hvalues : ∀ name, valuesAt name (samples ++ [.arr items]) = valuesAt name samples := by
    intro name
    rw [valuesAt_append]
    exact List.append_nil _
  have hproperties : propertiesFrom n (samples ++ [.arr items]) = propertiesFrom n samples := by
    simp only [propertiesFrom, kept, hnames, hvalues]
  have hstrings : (samples ++ [Json.arr items]).filterMap Json.asStr =
      samples.filterMap Json.asStr := by
    rw [List.filterMap_append]
    exact List.append_nil _
  have hkinds : (samples ++ [Json.arr items]).map Kind.of = samples.map Kind.of ++ [.array] := by
    rw [List.map_append]
    rfl
  have hitems : itemsOf (samples ++ [.arr items]) = itemsOf samples ++ items := by
    simp [itemsOf, Json.itemsIn]
  rw [Learned.addAt.eq_def, if_neg (not_le.mpr hdepth)]
  simp only [Learned.of_succ, hproperties, hobjects, hstrings, hkinds, hitems, ofList_snoc]
  rw [if_pos (by simp : Kind.array ∈ samples.map Kind.of ++ [.array]), ← h]
  by_cases harray : Kind.array ∈ samples.map Kind.of
  · rw [if_pos harray]
    rfl
  · rw [if_neg harray, itemsOf_eq_nil harray, Learned.of_nil]
    rfl

/-- One more object. -/
lemma addAt_object {fields : List (String × Json)} (hdepth : depth < MAX_DEPTH)
    (h : addFields fields (depth + 1) (.of (n + 1) (samples ++ [.obj []])) =
      .of (n + 1) (samples ++ [.obj fields])) :
    addAt (.obj fields) depth (.of (n + 1) samples) = .of (n + 1) (samples ++ [.obj fields]) := by
  have hnames : names (samples ++ [.obj []]) = names samples := by
    simp [names, objectsOf, Json.asObject]
  have hvalues : ∀ name, valuesAt name (samples ++ [.obj []]) = valuesAt name samples := by
    intro name
    rw [valuesAt_append]
    exact List.append_nil _
  have hproperties : propertiesFrom n (samples ++ [.obj []]) = propertiesFrom n samples := by
    simp only [propertiesFrom, kept, hnames, hvalues]
  have hobjects : (objectsOf (samples ++ [.obj []])).length = (objectsOf samples).length + 1 := by
    simp [objectsOf, Json.asObject]
  have hstrings : (samples ++ [Json.obj []]).filterMap Json.asStr =
      samples.filterMap Json.asStr := by
    simp [Json.asStr]
  have hkinds : (samples ++ [Json.obj []]).map Kind.of = samples.map Kind.of ++ [.object] := by
    rw [List.map_append]
    rfl
  have hitems : itemsOf (samples ++ [.obj []]) = itemsOf samples := by
    simp [itemsOf, Json.itemsIn]
  have harray : Kind.array ∈ samples.map Kind.of ++ [.object] ↔ Kind.array ∈ samples.map Kind.of := by
    rw [List.mem_append, List.mem_singleton, or_iff_left Kind.noConfusion]
  rw [← h, Learned.addAt.eq_def, if_neg (not_le.mpr hdepth)]
  simp only [Learned.of_succ, hproperties, hobjects, hstrings, hkinds, hitems, ofList_snoc, harray]

/-- One more sample. -/
theorem addAt_of (hvalue : Distinct value) (hdepth : depth + n = MAX_DEPTH)
    (samples : List Json) : addAt value depth (.of n samples) = .of n (samples ++ [value]) := by
  induction hvalue generalizing depth n samples with
  | arr h ih =>
      cases n with
      | zero => exact addAt_zero hdepth.ge
      | succ n =>
          refine addAt_array (by omega) fun samples => addItems_of fun item hitem samples => ?_
          exact ih item hitem (by omega) samples
  | obj hkeys h ih =>
      cases n with
      | zero => exact addAt_zero hdepth.ge
      | succ n =>
          refine addAt_object (by omega) (addFields_of hkeys fun field hfield samples => ?_)
          exact ih field hfield (by omega) samples
  | str s =>
      cases n with
      | zero => exact addAt_zero hdepth.ge
      | succ n =>
          have hformats : ((samples ++ [Json.str s]).filterMap Json.asStr).map stringFormat =
              (samples.filterMap Json.asStr).map stringFormat ++ [stringFormat s] := by
            rw [List.filterMap_append, List.map_append]
            rfl
          rw [of_snoc_scalar rfl rfl (by simp [Kind.of]) (fun _ => rfl), hformats, ofList_snoc,
            Learned.addAt.eq_def, if_neg (by omega)]
          rfl
  | _ =>
      cases n with
      | zero => exact addAt_zero hdepth.ge
      | succ n =>
          rw [of_snoc_plain rfl rfl (by simp [Kind.of]) (fun _ => rfl) rfl, Learned.addAt.eq_def,
            if_neg (by omega)]
          rfl

/-- What is learned from samples added one after another. -/
theorem foldl_add {samples : List Json} (h : ∀ sample ∈ samples, Distinct sample) :
    samples.foldl Learned.add {} = .of MAX_DEPTH samples := by
  have hfold : ∀ met : List Json,
      samples.foldl Learned.add (.of MAX_DEPTH met) = .of MAX_DEPTH (met ++ samples) := by
    induction samples with
    | nil => intro met; rw [List.append_nil]; rfl
    | cons sample rest ih =>
        intro met
        have hsample : Learned.add (.of MAX_DEPTH met) sample = .of MAX_DEPTH (met ++ [sample]) :=
          addAt_of (h sample List.mem_cons_self) (Nat.zero_add _) met
        rw [List.foldl_cons, hsample, ih fun sample hmem => h sample (List.mem_cons_of_mem _ hmem),
          List.append_assoc]
        rfl
  have hempty := hfold []
  rwa [Learned.of_nil] at hempty

end Learning

/-! ## The schema that comes out -/

/-- The schema learned from `samples` with `n` levels to go. -/
def schemaOf (n : ℕ) (samples : List Json) : Json := (Learned.of n samples).schema

section Schema

variable {samples : List Json} {n : ℕ} {name : String}

lemma schemaProperties_eq (properties : List (String × ℕ × Learned)) :
    Learned.schemaProperties properties =
      properties.map fun property => (property.1, property.2.2.schema) := by
  induction properties with
  | nil => rw [Learned.schemaProperties, List.map_nil]
  | cons property rest ih =>
      obtain ⟨name, count, learned⟩ := property
      rw [Learned.schemaProperties, ih, Learned.schemaProperty, Learned.schemaEntry, List.map_cons]

lemma isEmpty_kinds : (SortedSet.ofList (samples.map Kind.of)).isEmpty = samples.isEmpty := by
  cases samples with
  | nil => rfl
  | cons sample rest =>
      rw [List.isEmpty_cons, Bool.eq_false_iff, Ne, SortedSet.isEmpty_iff]
      intro h
      exact h (Kind.of sample) (SortedSet.mem_ofList.mpr (by simp))

@[simp] lemma schemaOf_zero (samples : List Json) : schemaOf 0 samples = .obj [] := by
  rw [schemaOf, Learned.of, Learned.schema, if_pos]
  rw [Bool.or_eq_true]
  exact .inr rfl

@[simp] lemma schemaOf_nil (n : ℕ) : schemaOf n [] = .obj [] := by
  rw [schemaOf, Learned.of_nil, Learned.schema]
  rfl

lemma mem_types {kind : Kind} {kinds : SortedSet Kind} (h : kind ≠ .integer) :
    kind ∈ Learned.types kinds ↔ kind ∈ kinds := by
  rw [Learned.types]
  split_ifs
  · rw [SortedSet.mem_erase, and_iff_right h]
  · rfl

lemma schema_of_isEmpty {learned : Learned} (h : learned.isEmpty = true) :
    learned.schema = .obj [] := by
  cases learned with
  | mk kinds formats objects properties items isOpaque =>
      rw [Learned.isEmpty, Bool.and_eq_true] at h
      rw [Learned.schema, if_pos]
      rw [h.1, Bool.or_true]

/-- The items of a schema are described by what was learned of them, also when there were none. -/
lemma schemaItems_of (n : ℕ) (samples : List Json) :
    Learned.schemaItems (some (.of n samples)) = schemaOf n samples := by
  rw [Learned.schemaItems]
  split_ifs with hempty
  · exact (schema_of_isEmpty hempty).symm
  · rfl

/-- What a schema says of the strings. -/
def stringFields (samples : List Json) : List (String × Json) :=
  if .string ∈ samples.map Kind.of then
    Learned.formatField (.ofList ((samples.filterMap Json.asStr).map stringFormat))
  else []

/-- What a schema says of the objects. -/
def objectFields (n : ℕ) (samples : List Json) : List (String × Json) :=
  if .object ∈ samples.map Kind.of then
    ("properties", .obj (SortedMap.tabulate (.ofList (kept samples)) fun name =>
      schemaOf n (valuesAt name samples))) :: (Learned.of (n + 1) samples).requiredField
  else []

/-- What a schema says of the arrays. -/
def arrayFields (n : ℕ) (samples : List Json) : List (String × Json) :=
  if .array ∈ samples.map Kind.of then [("items", schemaOf n (itemsOf samples))] else []

/-- What stands in the schema of samples, part by part. -/
lemma schemaOf_succ (h : samples ≠ []) : schemaOf (n + 1) samples =
    .obj (("type", Learned.typeField (Learned.types (.ofList (samples.map Kind.of)))) ::
      (stringFields samples ++ objectFields n samples ++ arrayFields n samples)) := by
  have hempty : samples.isEmpty = false := by simpa using h
  have hproperties : Learned.schemaProperties (propertiesFrom n samples) =
      SortedMap.tabulate (.ofList (kept samples)) fun name => schemaOf n (valuesAt name samples) := by
    rw [schemaProperties_eq, propertiesFrom]
    exact SortedMap.map_tabulate _ _ fun entry : ℕ × Learned => entry.2.schema
  rw [schemaOf, Learned.of_succ, Learned.schema, isEmpty_kinds, hempty, hproperties]
  simp only [mem_types (by decide : Kind.string ≠ .integer),
    mem_types (by decide : Kind.object ≠ .integer), mem_types (by decide : Kind.array ≠ .integer),
    SortedSet.mem_ofList]
  rw [arrayFields]
  by_cases harray : Kind.array ∈ samples.map Kind.of
  · simp only [if_pos harray, schemaItems_of]
    rfl
  · simp only [if_neg harray]
    rfl

lemma mem_kinds {kind : Kind} : kind ∈ samples.map Kind.of ↔ ∃ sample ∈ samples, Kind.of sample = kind :=
  List.mem_map

lemma object_mem_kinds : Kind.object ∈ samples.map Kind.of ↔ objectsOf samples ≠ [] := by
  rw [mem_kinds, Ne, objectsOf, List.filterMap_eq_nil_iff]
  push Not
  refine exists_congr fun sample => and_congr_right fun _ => ?_
  cases sample <;> simp [Kind.of, Json.asObject]

lemma stringFields_keys : ∀ field ∈ stringFields samples, field.1 = "format" := by
  intro field hfield
  rw [stringFields] at hfield
  split_ifs at hfield
  · rw [Learned.formatField] at hfield
    split at hfield
    · rw [List.mem_singleton] at hfield
      rw [hfield]
    · exact absurd hfield List.not_mem_nil
  · exact absurd hfield List.not_mem_nil

lemma requiredField_keys (learned : Learned) :
    ∀ field ∈ learned.requiredField, field.1 = "required" := by
  intro field hfield
  rw [Learned.requiredField] at hfield
  split at hfield
  · exact absurd hfield List.not_mem_nil
  · rw [List.mem_singleton] at hfield
    rw [hfield]

lemma objectFields_keys :
    ∀ field ∈ objectFields n samples, field.1 = "properties" ∨ field.1 = "required" := by
  intro field hfield
  rw [objectFields] at hfield
  split_ifs at hfield
  · rcases List.mem_cons.mp hfield with rfl | hrequired
    · exact .inl rfl
    · exact .inr (requiredField_keys _ field hrequired)
  · exact absurd hfield List.not_mem_nil

lemma arrayFields_keys : ∀ field ∈ arrayFields n samples, field.1 = "items" := by
  intro field hfield
  rw [arrayFields] at hfield
  split_ifs at hfield
  · rw [List.mem_singleton] at hfield
    rw [hfield]
  · exact absurd hfield List.not_mem_nil

lemma lookup_of_keys {fields : List (String × Json)} {key : String}
    (h : ∀ field ∈ fields, field.1 ≠ key) : fields.lookup key = none := by
  rw [lookup_eq_none_iff, List.mem_map]
  rintro ⟨field, hfield, hkey⟩
  exact h field hfield hkey

lemma lookup_stringFields {key : String} (h : key ≠ "format") :
    (stringFields samples).lookup key = none :=
  lookup_of_keys fun field hfield hkey => h (hkey ▸ stringFields_keys field hfield)

lemma lookup_objectFields {key : String} (h : key ≠ "properties") (h' : key ≠ "required") :
    (objectFields n samples).lookup key = none := by
  refine lookup_of_keys fun field hfield hkey => ?_
  rcases objectFields_keys field hfield with hproperties | hrequired
  · exact h (hkey ▸ hproperties)
  · exact h' (hkey ▸ hrequired)

lemma lookup_arrayFields {key : String} (h : key ≠ "items") :
    (arrayFields n samples).lookup key = none :=
  lookup_of_keys fun field hfield hkey => h (hkey ▸ arrayFields_keys field hfield)

lemma get?_type (h : samples ≠ []) : (schemaOf (n + 1) samples).get? "type" =
    some (Learned.typeField (Learned.types (.ofList (samples.map Kind.of)))) := by
  rw [schemaOf_succ h, Json.get?, List.lookup_cons_self]

/-- Another member than the type is found in its own part. -/
lemma get?_schemaOf (h : samples ≠ []) {key : String} (hkey : key ≠ "type") :
    (schemaOf (n + 1) samples).get? key =
      (((stringFields samples).lookup key).or ((objectFields n samples).lookup key)).or
        ((arrayFields n samples).lookup key) := by
  rw [schemaOf_succ h, Json.get?, List.lookup_cons, beq_false_of_ne hkey, List.lookup_append,
    List.lookup_append]

lemma get?_format (h : samples ≠ []) :
    (schemaOf (n + 1) samples).get? "format" = (stringFields samples).lookup "format" := by
  rw [get?_schemaOf h (by decide), lookup_objectFields (by decide) (by decide),
    lookup_arrayFields (by decide), Option.or_none, Option.or_none]

lemma get?_items (h : samples ≠ []) :
    (schemaOf (n + 1) samples).get? "items" =
      if .array ∈ samples.map Kind.of then some (schemaOf n (itemsOf samples)) else none := by
  rw [get?_schemaOf h (by decide), lookup_stringFields (by decide),
    lookup_objectFields (by decide) (by decide), Option.or_none, Option.none_or, arrayFields]
  split_ifs
  · rw [List.lookup_cons_self]
  · rfl

/-- The properties described are those kept. -/
lemma propertiesOf_schemaOf (n : ℕ) (samples : List Json) :
    propertiesOf (schemaOf (n + 1) samples) =
      SortedMap.tabulate (.ofList (kept samples)) fun name => schemaOf n (valuesAt name samples) := by
  by_cases h : samples = []
  · subst h
    rw [schemaOf_nil]
    rfl
  · rw [propertiesOf, get?_schemaOf h (by decide), lookup_stringFields (by decide),
      lookup_arrayFields (by decide), Option.none_or, Option.or_none, objectFields]
    split_ifs with hobject
    · rw [List.lookup_cons_self]
    · have hnone : objectsOf samples = [] := by
        rwa [object_mem_kinds, not_ne_iff] at hobject
      have hkept : kept samples = [] := by rw [kept, names, hnone]; rfl
      rw [hkept]
      rfl

lemma requiredOf_schemaOf (h : samples ≠ []) : requiredOf (schemaOf (n + 1) samples) =
    if .object ∈ samples.map Kind.of then (Learned.of (n + 1) samples).requiredNames else [] := by
  rw [requiredOf, get?_schemaOf h (by decide), lookup_stringFields (by decide),
    lookup_arrayFields (by decide), Option.none_or, Option.or_none, objectFields]
  split_ifs
  · rw [List.lookup_cons, beq_false_of_ne (by decide), Learned.requiredField]
    cases hnames : (Learned.of (n + 1) samples).requiredNames with
    | nil => rfl
    | cons name names =>
        rw [List.lookup_cons_self]
        show ((name :: names).map Json.str).filterMap Json.asStr = _
        rw [List.filterMap_map]
        exact List.filterMap_some
  · rfl

/-- A name is required when it is kept and every object has it. -/
lemma mem_requiredOf (h : objectsOf samples ≠ []) : name ∈ requiredOf (schemaOf (n + 1) samples) ↔
    name ∈ kept samples ∧ ∀ fields ∈ objectsOf samples, name ∈ fields.map Prod.fst := by
  have hsamples : samples ≠ [] := by
    rintro rfl
    exact h rfl
  have hvalues : valuesAt name samples =
      (objectsOf samples).filterMap fun fields => fields.lookup name := by
    rw [objectsOf, List.filterMap_filterMap]
    refine List.filterMap_congr fun sample _ => ?_
    cases sample <;> rfl
  have hall : (valuesAt name samples).length = (objectsOf samples).length ↔
      ∀ fields ∈ objectsOf samples, name ∈ fields.map Prod.fst := by
    rw [hvalues, List.filterMap_length_eq_length]
    refine forall₂_congr fun fields _ => ?_
    rw [Option.isSome_iff_ne_none, Ne, lookup_eq_none_iff, not_not]
  rw [requiredOf_schemaOf hsamples, if_pos (object_mem_kinds.mpr h), Learned.requiredNames,
    List.mem_map, ← hall]
  constructor
  · rintro ⟨⟨name, count, learned⟩, hmem, rfl⟩
    obtain ⟨hentry, hcount⟩ := List.mem_filter.mp hmem
    obtain ⟨hkept, heq⟩ := SortedMap.mem_tabulate.mp hentry
    have htimes : (valuesAt name samples).length = (objectsOf samples).length :=
      (congrArg Prod.fst heq).symm.trans (of_decide_eq_true hcount)
    exact ⟨SortedSet.mem_ofList.mp hkept, htimes⟩
  · rintro ⟨hkept, htimes⟩
    refine ⟨(name, _, _), List.mem_filter.mpr ⟨SortedMap.mem_tabulate.mpr
      ⟨SortedSet.mem_ofList.mpr hkept, rfl⟩, ?_⟩, rfl⟩
    exact decide_eq_true htimes

/-- The types named are those of the samples, with no integers beside numbers. -/
lemma typesOf_schemaOf (h : samples ≠ []) : typesOf (schemaOf (n + 1) samples) =
    some ((Learned.types (.ofList (samples.map Kind.of))).toList.map Kind.name) := by
  rw [typesOf, get?_type h, Learned.typeField]
  cases (Learned.types (.ofList (samples.map Kind.of))).toList with
  | nil => rfl
  | cons kind rest =>
      cases rest with
      | nil => rfl
      | cons kind' rest =>
          show some (((kind :: kind' :: rest).map fun kind => Json.str kind.name).filterMap
            Json.asStr) = _
          rw [List.filterMap_map]
          exact congrArg some (congrFun List.filterMap_eq_map _)

end Schema

/-! ## Every sample conforms -/

section Conforming

variable {samples items : List Json} {fields : List (String × Json)} {n : ℕ} {value : Json}

lemma conforms_any (value : Json) : conforms value (.obj []) = true := by
  rw [conforms.eq_def]
  rfl

lemma conformItems_iff {schema : Json} : conformItems items schema = true ↔
    ∀ item ∈ items, conforms item schema = true := by
  induction items with
  | nil => simp [conformItems]
  | cons item rest ih => rw [conformItems, Bool.and_eq_true, ih, List.forall_mem_cons]

lemma conformFields_iff {properties : List (String × Json)} :
    conformFields fields properties = true ↔
      ∀ field ∈ fields, ∀ schema, properties.lookup field.1 = some schema →
        conforms field.2 schema = true := by
  induction fields with
  | nil => simp [conformFields]
  | cons field rest ih =>
      obtain ⟨key, value⟩ := field
      rw [conformFields, Bool.and_eq_true, ih, List.forall_mem_cons, conformField]
      refine and_congr_left fun _ => ?_
      cases properties.lookup key with
      | none => simp
      | some schema => simp

lemma name_injective : Function.Injective Kind.name := by
  intro a b h
  cases a <;> cases b <;> first | rfl | (revert h; decide)

lemma contains_name {kind : Kind} {kinds : SortedSet Kind} :
    (kinds.toList.map Kind.name).contains kind.name = true ↔ kind ∈ kinds := by
  rw [List.contains_iff_mem, List.mem_map_of_injective name_injective]
  rfl

/-- The type of a sample is named. -/
lemma contains_of_mem (hmem : value ∈ samples) (h : Kind.of value ≠ .integer) :
    ((Learned.types (.ofList (samples.map Kind.of))).toList.map Kind.name).contains
      (Kind.of value).name = true := by
  rw [contains_name, mem_types h, SortedSet.mem_ofList]
  exact List.mem_map_of_mem hmem

/-- An integer is an integer, or a number where there are others. -/
lemma contains_of_integer (hmem : value ∈ samples) (h : Kind.of value = .integer) :
    let types := (Learned.types (.ofList (samples.map Kind.of))).toList.map Kind.name
    types.contains (Kind.name .number) = true ∨ types.contains (Kind.name .integer) = true := by
  have hkind : Kind.integer ∈ SortedSet.ofList (samples.map Kind.of) :=
    SortedSet.mem_ofList.mpr (h ▸ List.mem_map_of_mem hmem)
  dsimp only
  rw [contains_name, contains_name]
  by_cases hnumber : Kind.number ∈ SortedSet.ofList (samples.map Kind.of)
  · exact .inl ((mem_types (by decide)).mpr hnumber)
  · rw [Learned.types, if_neg hnumber]
    exact .inr hkind

/-- A format is written when every string has it. -/
lemma stringFormat_of_format {format : String} {text : String} (hmem : .str text ∈ samples)
    (h : ((schemaOf (n + 1) samples).get? "format").bind Json.asStr = some format) :
    stringFormat text = some format := by
  have htext : stringFormat text ∈
      SortedSet.ofList ((samples.filterMap Json.asStr).map stringFormat) :=
    SortedSet.mem_ofList.mpr (List.mem_map_of_mem (List.mem_filterMap.mpr ⟨_, hmem, rfl⟩))
  rw [get?_format (List.ne_nil_of_mem hmem), stringFields] at h
  split_ifs at h
  · rw [Learned.formatField] at h
    split at h
    · rename_i format' heq
      rw [← SortedSet.mem_toList, heq, List.mem_singleton] at htext
      rw [List.lookup_cons_self] at h
      rw [htext, ← h]
      rfl
    · cases h
  · cases h

lemma lookup_of_mem (hkeys : (fields.map Prod.fst).Nodup) {field : String × Json}
    (hmem : field ∈ fields) : fields.lookup field.1 = some field.2 := by
  induction fields with
  | nil => exact absurd hmem List.not_mem_nil
  | cons first rest ih =>
      rw [List.map_cons, List.nodup_cons] at hkeys
      rw [List.lookup_cons]
      rcases List.mem_cons.mp hmem with rfl | hrest
      · rw [beq_self_eq_true]
      · have hne : field.1 ≠ first.1 := fun heq => hkeys.1 (heq ▸ List.mem_map_of_mem hrest)
        rw [beq_false_of_ne hne]
        exact ih hkeys.2 hrest

lemma distinct_itemsOf (h : ∀ sample ∈ samples, Distinct sample) :
    ∀ item ∈ itemsOf samples, Distinct item := by
  intro item hitem
  obtain ⟨sample, hsample, hmem⟩ := List.mem_flatMap.mp hitem
  cases h sample hsample with
  | arr hitems => exact hitems item hmem
  | _ => exact absurd hmem List.not_mem_nil

lemma distinct_valuesAt (h : ∀ sample ∈ samples, Distinct sample) (name : String) :
    ∀ value ∈ valuesAt name samples, Distinct value := by
  intro value hvalue
  obtain ⟨sample, hsample, hget⟩ := List.mem_filterMap.mp hvalue
  cases h sample hsample with
  | obj hkeys hfields =>
      rw [Json.get?, List.lookup_eq_some_iff] at hget
      obtain ⟨before, after, rfl, -⟩ := hget
      exact hfields (name, value) (by simp)
  | _ => cases hget

/-- A value conforms to a schema when it has a type the schema names and its parts conform. -/
theorem conforms_schemaOf (h : ∀ sample ∈ samples, Distinct sample) (hmem : value ∈ samples) :
    conforms value (schemaOf n samples) = true := by
  induction n generalizing samples value with
  | zero => rw [schemaOf_zero, conforms_any]
  | succ n ih =>
      have hne := List.ne_nil_of_mem hmem
      obtain ⟨members, hmembers⟩ : ∃ members, schemaOf (n + 1) samples = .obj members :=
        ⟨_, schemaOf_succ hne⟩
      have hbody := conforms.eq_def value (schemaOf (n + 1) samples)
      rw [hmembers] at hbody
      dsimp only at hbody
      rw [← hmembers, typesOf_schemaOf hne] at hbody
      dsimp only at hbody
      rw [hbody]
      cases value with
      | null => exact contains_of_mem hmem (by simp [Kind.of])
      | bool b => exact contains_of_mem hmem (by simp [Kind.of])
      | num m =>
          rw [Bool.or_eq_true]
          exact contains_of_integer hmem rfl
      | float text => exact contains_of_mem hmem (by simp [Kind.of])
      | str text =>
          rw [Bool.and_eq_true]
          refine ⟨contains_of_mem hmem (by simp [Kind.of]), ?_⟩
          cases hformat : ((schemaOf (n + 1) samples).get? "format").bind Json.asStr with
          | none => rfl
          | some format =>
              rw [stringFormat_of_format hmem hformat]
              exact beq_self_eq_true _
      | arr items =>
          rw [Bool.and_eq_true]
          refine ⟨contains_of_mem hmem (by simp [Kind.of]), ?_⟩
          have harray : Kind.array ∈ samples.map Kind.of := List.mem_map.mpr ⟨_, hmem, rfl⟩
          rw [get?_items hne, if_pos harray]
          refine conformItems_iff.mpr fun item hitem => ih (distinct_itemsOf h) ?_
          exact List.mem_flatMap.mpr ⟨_, hmem, hitem⟩
      | obj fields =>
          rw [Bool.and_eq_true, Bool.and_eq_true]
          refine ⟨⟨contains_of_mem hmem (by simp [Kind.of]), ?_⟩, ?_⟩
          · rw [List.all_eq_true]
            intro name hname
            have hfields : fields ∈ objectsOf samples := List.mem_filterMap.mpr ⟨_, hmem, rfl⟩
            have hhas := ((mem_requiredOf (List.ne_nil_of_mem hfields)).mp hname).2 fields hfields
            rwa [Option.isSome_iff_ne_none, Ne, lookup_eq_none_iff, not_not]
          · refine conformFields_iff.mpr fun field hfield schema hschema => ?_
            cases h _ hmem with
            | obj hkeys _ =>
                rw [propertiesOf_schemaOf, SortedMap.lookup_tabulate] at hschema
                split_ifs at hschema
                obtain rfl := Option.some.inj hschema
                refine ih (distinct_valuesAt h field.1) ?_
                exact List.mem_filterMap.mpr ⟨_, hmem, lookup_of_mem hkeys hfield⟩

end Conforming

/-! ## Places -/

/-- A step from a value to those inside it. -/
inductive Step where
  | key (name : String)
  | item
  deriving DecidableEq

/-- The values one step inside the samples. -/
def Step.inside : Step → List Json → List Json
  | .key name, samples => valuesAt name samples
  | .item, samples => itemsOf samples

/-- The schema one step inside a schema. -/
def Step.schema? : Step → Json → Option Json
  | .key name, schema => (propertiesOf schema).lookup name
  | .item, schema => schema.get? "items"

/-- The values met at a place in the samples. -/
def samplesAt (place : List Step) (samples : List Json) : List Json :=
  place.foldl (fun samples step => step.inside samples) samples

/-- The schema at a place in a schema. -/
def schemaAt : List Step → Json → Option Json
  | [], schema => some schema
  | step :: place, schema => (step.schema? schema).bind (schemaAt place)

/-- A schema that objects are described by. -/
def OfObjects (schema : Json) : Prop := ∃ types ∈ typesOf schema, "object" ∈ types

/-- A property is required in an object's schema exactly when every object met there had it. -/
def RequiredExactly (samples : List Json) (schema : Json) : Prop :=
  ∀ place part, schemaAt place schema = some part → OfObjects part → ∀ name,
    name ∈ requiredOf part ↔
      ∀ fields ∈ objectsOf (samplesAt place samples), name ∈ fields.map Prod.fst

/-- How many objects among the samples have `name`. -/
def times (name : String) (samples : List Json) : ℕ :=
  (objectsOf samples).countP fun fields => name ∈ fields.map Prod.fst

/-- Where there are more names than are kept, those kept are the most frequent. -/
def MostFrequentKept (samples : List Json) (schema : Json) : Prop :=
  ∀ place part, schemaAt place schema = some part → OfObjects part →
    MAX_PROPERTIES < (names (samplesAt place samples)).length →
    ((propertiesOf part).map Prod.fst).length = MAX_PROPERTIES ∧
    ∀ name ∈ (propertiesOf part).map Prod.fst, name ∈ names (samplesAt place samples) ∧
      ∀ late ∈ names (samplesAt place samples), late ∉ (propertiesOf part).map Prod.fst →
        times late (samplesAt place samples) ≤ times name (samplesAt place samples)

/-- What is learned from samples added one after another. -/
def learnedSchema (samples : List Json) : Json := (samples.foldl Learned.add {}).schema

/-- What a schema of samples promises, with the samples also in another order. -/
structure Faithful (samples order : List Json) : Prop where
  order_free : learnedSchema samples = learnedSchema order
  conforming : ∀ sample ∈ samples, conforms sample (learnedSchema samples) = true
  required : RequiredExactly samples (learnedSchema samples)
  frequent : MostFrequentKept samples (learnedSchema samples)

/-- With `n` levels to go, the names met after the limit are the same in both orders, each is
missing from an object there, and none is more frequent than one that came before; and so on at
every place inside that is learned. -/
def Settled : ℕ → List Json → List Json → Prop
  | 0, _, _ => True
  | n + 1, samples, order =>
      (∀ name, name ∈ kept samples ↔ name ∈ kept order) ∧
      (∀ late ∈ names samples, late ∉ kept samples →
        (∃ fields ∈ objectsOf samples, late ∉ fields.map Prod.fst) ∧
        ∀ name ∈ kept samples, times late samples ≤ times name samples) ∧
      (∀ name ∈ kept samples, Settled n (valuesAt name samples) (valuesAt name order)) ∧
      Settled n (itemsOf samples) (itemsOf order)

section Settling

variable {samples order : List Json} {n : ℕ} {name : String} {step : Step} {schema part : Json}

lemma perm_inside (h : samples.Perm order) (step : Step) :
    (step.inside samples).Perm (step.inside order) := by
  cases step with
  | key name => exact h.filterMap _
  | item => exact h.flatMap_right _

lemma perm_objectsOf (h : samples.Perm order) : (objectsOf samples).Perm (objectsOf order) :=
  h.filterMap _

/-- Two orders in which the same names come first teach the same. -/
lemma of_eq_of_settled (h : Settled n samples order) (hperm : samples.Perm order) :
    Learned.of n samples = Learned.of n order := by
  induction n generalizing samples order with
  | zero => rw [Learned.of, Learned.of, hperm.isEmpty_eq]
  | succ n ih =>
      obtain ⟨hkept, -, hvalues, hitems⟩ := h
      have hkinds : SortedSet.ofList (samples.map Kind.of) = SortedSet.ofList (order.map Kind.of) := by
        ext kind
        rw [SortedSet.mem_ofList, SortedSet.mem_ofList, (hperm.map _).mem_iff]
      have hformats : SortedSet.ofList ((samples.filterMap Json.asStr).map stringFormat) =
          SortedSet.ofList ((order.filterMap Json.asStr).map stringFormat) := by
        ext format
        rw [SortedSet.mem_ofList, SortedSet.mem_ofList, ((hperm.filterMap _).map _).mem_iff]
      have hnames : SortedSet.ofList (kept samples) = SortedSet.ofList (kept order) := by
        ext name
        rw [SortedSet.mem_ofList, SortedSet.mem_ofList, hkept]
      have hproperties : propertiesFrom n samples = propertiesFrom n order := by
        rw [propertiesFrom, propertiesFrom, ← hnames]
        refine SortedMap.tabulate_congr fun name hname => ?_
        have hinside : (valuesAt name samples).Perm (valuesAt name order) :=
          perm_inside hperm (.key name)
        rw [ih (hvalues name (SortedSet.mem_ofList.mp hname)) hinside, hinside.length_eq]
      have harray : Kind.array ∈ samples.map Kind.of ↔ Kind.array ∈ order.map Kind.of :=
        (hperm.map _).mem_iff
      have hitems' := ih hitems (perm_inside hperm .item)
      rw [Learned.of_succ, Learned.of_succ, hkinds, hformats, hproperties, hitems',
        (perm_objectsOf hperm).length_eq]
      simp only [harray]

lemma mem_keys_propertiesOf :
    name ∈ (propertiesOf (schemaOf (n + 1) samples)).map Prod.fst ↔ name ∈ kept samples := by
  rw [propertiesOf_schemaOf, SortedMap.keys_tabulate]
  exact SortedSet.mem_ofList

lemma length_keys_propertiesOf :
    ((propertiesOf (schemaOf (n + 1) samples)).map Prod.fst).length = (kept samples).length := by
  rw [propertiesOf_schemaOf, SortedMap.keys_tabulate]
  exact (toList_ofList_of_nodup (nodup_kept samples)).length_eq

lemma not_ofObjects_any : ¬ OfObjects (.obj []) := by
  rintro ⟨types, htypes, -⟩
  cases htypes

/-- Objects are described where there are levels to go and objects are met. -/
lemma exists_of_ofObjects (h : OfObjects (schemaOf n samples)) :
    ∃ m, n = m + 1 ∧ objectsOf samples ≠ [] := by
  cases n with
  | zero => exact absurd (schemaOf_zero samples ▸ h) not_ofObjects_any
  | succ n =>
      refine ⟨n, rfl, ?_⟩
      obtain ⟨types, htypes, hobject⟩ := h
      have hne : samples ≠ [] := by
        rintro rfl
        rw [schemaOf_nil] at htypes
        cases htypes
      rw [typesOf_schemaOf hne] at htypes
      obtain rfl := Option.some.inj htypes
      have hkind : Kind.object ∈ Learned.types (.ofList (samples.map Kind.of)) :=
        contains_name.mp (List.contains_iff_mem.mpr hobject)
      rw [mem_types (by decide), SortedSet.mem_ofList] at hkind
      exact object_mem_kinds.mp hkind

lemma ofObjects_schemaOf (h : objectsOf samples ≠ []) : OfObjects (schemaOf (n + 1) samples) := by
  have hne : samples ≠ [] := by
    rintro rfl
    exact h rfl
  have hkind : Kind.object ∈ Learned.types (.ofList (samples.map Kind.of)) := by
    rw [mem_types (by decide), SortedSet.mem_ofList]
    exact object_mem_kinds.mpr h
  exact ⟨_, typesOf_schemaOf hne, List.contains_iff_mem.mp (contains_name.mpr hkind)⟩

/-- Inside a schema stands the schema of what is inside the samples. -/
lemma schema?_schemaOf (h : step.schema? (schemaOf n samples) = some part) :
    ∃ m, n = m + 1 ∧ part = schemaOf m (step.inside samples) ∧
      ∀ name, step = .key name → name ∈ kept samples := by
  cases n with
  | zero =>
      rw [schemaOf_zero] at h
      cases step <;> cases h
  | succ n =>
      refine ⟨n, rfl, ?_⟩
      cases step with
      | key name =>
          rw [Step.schema?, propertiesOf_schemaOf, SortedMap.lookup_tabulate] at h
          split_ifs at h with hname
          refine ⟨(Option.some.inj h).symm, ?_⟩
          rintro _ ⟨⟩
          exact SortedSet.mem_ofList.mp hname
      | item =>
          have hne : samples ≠ [] := by
            rintro rfl
            rw [schemaOf_nil] at h
            cases h
          rw [Step.schema?, get?_items hne] at h
          split_ifs at h
          refine ⟨(Option.some.inj h).symm, ?_⟩
          rintro _ ⟨⟩

lemma settled_inside (h : Settled (n + 1) samples order)
    (hstep : ∀ name, step = .key name → name ∈ kept samples) :
    Settled n (step.inside samples) (step.inside order) := by
  cases step with
  | key name => exact h.2.2.1 name (hstep name rfl)
  | item => exact h.2.2.2

/-- The place inside is one of samples that settle as well. -/
lemma exists_settled_at {place : List Step} (h : Settled n samples order)
    (hat : schemaAt place (schemaOf n samples) = some part) :
    ∃ m order', part = schemaOf m (samplesAt place samples) ∧
      Settled m (samplesAt place samples) order' := by
  induction place generalizing n samples order with
  | nil => exact ⟨n, order, (Option.some.inj hat).symm, h⟩
  | cons step place ih =>
      obtain ⟨inner, hinner, hat⟩ := Option.bind_eq_some_iff.mp hat
      obtain ⟨m, rfl, rfl, hstep⟩ := schema?_schemaOf hinner
      exact ih (settled_inside h hstep) hat

lemma required_of_settled (h : Settled n samples order) :
    RequiredExactly samples (schemaOf n samples) := by
  intro place part hat hobjects name
  obtain ⟨m, order', rfl, hsettled⟩ := exists_settled_at h hat
  obtain ⟨m, rfl, hne⟩ := exists_of_ofObjects hobjects
  rw [mem_requiredOf hne, and_iff_right_iff_imp]
  intro hall
  by_contra hlate
  obtain ⟨first, hfirst⟩ := List.exists_mem_of_ne_nil _ hne
  obtain ⟨⟨fields, hfields, hmissing⟩, -⟩ :=
    hsettled.2.1 name (mem_names.mpr ⟨first, hfirst, hall first hfirst⟩) hlate
  exact hmissing (hall fields hfields)

lemma frequent_of_settled (h : Settled n samples order) :
    MostFrequentKept samples (schemaOf n samples) := by
  intro place part hat hobjects hmany
  obtain ⟨m, order', rfl, hsettled⟩ := exists_settled_at h hat
  obtain ⟨m, rfl, -⟩ := exists_of_ofObjects hobjects
  refine ⟨?_, fun name hname => ?_⟩
  · rw [length_keys_propertiesOf, kept, List.length_take, min_eq_left hmany.le]
  · rw [mem_keys_propertiesOf] at hname
    refine ⟨kept_subset hname, fun late hlate hnot => ?_⟩
    rw [mem_keys_propertiesOf] at hnot
    exact (hsettled.2.1 late hlate hnot).2 name hname

lemma required_inside (h : RequiredExactly samples schema) (hstep : step.schema? schema = some part) :
    RequiredExactly (step.inside samples) part := by
  intro place inner hat
  refine h (step :: place) inner ?_
  rw [schemaAt, hstep]
  exact hat

lemma frequent_inside (h : MostFrequentKept samples schema)
    (hstep : step.schema? schema = some part) : MostFrequentKept (step.inside samples) part := by
  intro place inner hat
  refine h (step :: place) inner ?_
  rw [schemaAt, hstep]
  exact hat

lemma settled_nil (n : ℕ) : Settled n [] [] := by
  induction n with
  | zero => trivial
  | succ n ih =>
      refine ⟨fun _ => Iff.rfl, fun late hlate => ?_, fun name hname => ?_, ih⟩
      · exact absurd hlate List.not_mem_nil
      · exact absurd hname List.not_mem_nil

/-- A schema that keeps its promises is one of samples that settle. -/
lemma settled_of_faithful (hperm : samples.Perm order)
    (heq : schemaOf n samples = schemaOf n order)
    (hrequired : RequiredExactly samples (schemaOf n samples))
    (hfrequent : MostFrequentKept samples (schemaOf n samples)) : Settled n samples order := by
  induction n generalizing samples order with
  | zero => trivial
  | succ n ih =>
      have hkept : ∀ name, name ∈ kept samples ↔ name ∈ kept order := by
        intro name
        rw [← mem_keys_propertiesOf (n := n), heq, mem_keys_propertiesOf]
      refine ⟨hkept, fun late hlate hnot => ?_, fun name hname => ?_, ?_⟩
      · obtain ⟨fields, hfields, -⟩ := mem_names.mp hlate
        have hne : objectsOf samples ≠ [] := List.ne_nil_of_mem hfields
        have hobjects := ofObjects_schemaOf (n := n) hne
        constructor
        · by_contra hall
          push Not at hall
          have hreq := (hrequired [] _ rfl hobjects late).mpr hall
          exact hnot ((mem_requiredOf hne).mp hreq).1
        · intro name hname
          have hmany : MAX_PROPERTIES < (names samples).length := by
            by_contra hfew
            rw [kept, List.take_of_length_le (not_lt.mp hfew)] at hnot
            exact hnot hlate
          refine ((hfrequent [] _ rfl hobjects hmany).2 name ?_).2 late hlate ?_
          · exact mem_keys_propertiesOf.mpr hname
          · rwa [mem_keys_propertiesOf]
      · have hstep : (Step.key name).schema? (schemaOf (n + 1) samples) =
            some (schemaOf n (valuesAt name samples)) := by
          rw [Step.schema?, propertiesOf_schemaOf, SortedMap.lookup_tabulate,
            if_pos (SortedSet.mem_ofList.mpr hname)]
        have hstep' : (Step.key name).schema? (schemaOf (n + 1) order) =
            some (schemaOf n (valuesAt name order)) := by
          rw [Step.schema?, propertiesOf_schemaOf, SortedMap.lookup_tabulate,
            if_pos (SortedSet.mem_ofList.mpr ((hkept name).mp hname))]
        rw [← heq, hstep] at hstep'
        exact ih (perm_inside hperm (.key name)) (Option.some.inj hstep')
          (required_inside hrequired hstep) (frequent_inside hfrequent hstep)
      · by_cases harray : Kind.array ∈ samples.map Kind.of
        · have harray' : Kind.array ∈ order.map Kind.of := (hperm.map _).mem_iff.mp harray
          have hne : samples ≠ [] := by
            rintro rfl
            exact List.not_mem_nil harray
          have hne' : order ≠ [] := by
            rintro rfl
            exact List.not_mem_nil harray'
          have hstep : Step.item.schema? (schemaOf (n + 1) samples) =
              some (schemaOf n (itemsOf samples)) := by
            rw [Step.schema?, get?_items hne, if_pos harray]
          have hstep' : Step.item.schema? (schemaOf (n + 1) order) =
              some (schemaOf n (itemsOf order)) := by
            rw [Step.schema?, get?_items hne', if_pos harray']
          rw [← heq, hstep] at hstep'
          exact ih (perm_inside hperm .item) (Option.some.inj hstep')
            (required_inside hrequired hstep) (frequent_inside hfrequent hstep)
        · have harray' : Kind.array ∉ order.map Kind.of := fun hmem =>
            harray ((hperm.map _).mem_iff.mpr hmem)
          rw [itemsOf_eq_nil harray, itemsOf_eq_nil harray']
          exact settled_nil n

/-- Where no place has more names than are kept, nothing is left out in any order. -/
lemma settled_of_few (hfew : ∀ place, (names (samplesAt place samples)).length ≤ MAX_PROPERTIES)
    (hperm : samples.Perm order) : Settled n samples order := by
  induction n generalizing samples order with
  | zero => trivial
  | succ n ih =>
      have hnames : ∀ name, name ∈ names samples ↔ name ∈ names order := by
        intro name
        rw [mem_names, mem_names]
        refine exists_congr fun fields => and_congr_left fun _ => ?_
        exact (perm_objectsOf hperm).mem_iff
      have hperm' : (names samples).Perm (names order) :=
        (List.perm_ext_iff_of_nodup (nodup_names _) (nodup_names _)).mpr hnames
      have hall : kept samples = names samples := List.take_of_length_le (hfew [])
      have hall' : kept order = names order :=
        List.take_of_length_le (hperm'.length_eq ▸ hfew [])
      refine ⟨fun name => ?_, fun late hlate hnot => ?_, fun name _ => ?_, ?_⟩
      · rw [hall, hall', hnames]
      · exact absurd (hall ▸ hlate) hnot
      · exact ih (fun place => hfew (.key name :: place)) (perm_inside hperm (.key name))
      · exact ih (fun place => hfew (.item :: place)) (perm_inside hperm .item)

lemma learnedSchema_eq (h : ∀ sample ∈ samples, Distinct sample) :
    learnedSchema samples = schemaOf MAX_DEPTH samples := by
  rw [learnedSchema, foldl_add h, schemaOf]

/-- A learned schema keeps its promises, in whichever order the samples come, exactly when the
limit on names leaves out the same names in both orders, and at each place only names that some
object lacks and that are no more frequent than those kept. -/
theorem learned_faithful_iff (hdistinct : ∀ sample ∈ samples, Distinct sample)
    (hperm : samples.Perm order) :
    Faithful samples order ↔ Settled MAX_DEPTH samples order := by
  have horder : ∀ sample ∈ order, Distinct sample := fun sample hmem =>
    hdistinct sample (hperm.mem_iff.mpr hmem)
  constructor
  · rintro ⟨heq, -, hrequired, hfrequent⟩
    rw [learnedSchema_eq hdistinct] at heq hrequired hfrequent
    rw [learnedSchema_eq horder] at heq
    exact settled_of_faithful hperm heq hrequired hfrequent
  · intro hsettled
    have heq : schemaOf MAX_DEPTH samples = schemaOf MAX_DEPTH order :=
      congrArg Learned.schema (of_eq_of_settled hsettled hperm)
    refine ⟨?_, fun sample hsample => ?_, ?_, ?_⟩
    · rw [learnedSchema_eq hdistinct, learnedSchema_eq horder, heq]
    · rw [learnedSchema_eq hdistinct]
      exact conforms_schemaOf hdistinct hsample
    · rw [learnedSchema_eq hdistinct]
      exact required_of_settled hsettled
    · rw [learnedSchema_eq hdistinct]
      exact frequent_of_settled hsettled

end Settling

lemma samplesAt_nil (place : List Step) : samplesAt place [] = [] := by
  induction place with
  | nil => rfl
  | cons step place ih =>
      rw [samplesAt, List.foldl_cons, ← samplesAt]
      cases step <;> exact ih

/-- Scalars have no names, and nothing inside. -/
lemma names_samplesAt_scalars {samples : List Json} (place : List Step)
    (h : ∀ sample ∈ samples, Kind.of sample ≠ .object ∧ Kind.of sample ≠ .array) :
    names (samplesAt place samples) = [] := by
  have hobjects : objectsOf samples = [] := by
    rw [objectsOf, List.filterMap_eq_nil_iff]
    intro sample hsample
    cases sample with
    | obj fields => exact absurd rfl (h _ hsample).1
    | _ => rfl
  have hnames : names samples = [] := by
    rw [names, hobjects]
    rfl
  cases place with
  | nil => exact hnames
  | cons step place =>
      have hinside : step.inside samples = [] := by
        cases step with
        | key name => exact valuesAt_eq_nil (hnames ▸ List.not_mem_nil)
        | item =>
            refine itemsOf_eq_nil fun harray => ?_
            obtain ⟨sample, hsample, hkind⟩ := List.mem_map.mp harray
            exact (h sample hsample).2 hkind
      rw [samplesAt, List.foldl_cons, hinside, ← samplesAt, samplesAt_nil]
      rfl

lemma eq_of_get?_single {key name : String} {value found : Json}
    (h : Json.get? name (.obj [(key, value)]) = some found) : found = value := by
  rw [Json.get?, List.lookup_cons] at h
  split at h
  · exact (Option.some.inj h).symm
  · cases h

/-- An `id` that is a number in one object and a text in another. -/
theorem learned_faithful_ids :
    Faithful [.obj [("id", .num 1)], .obj [("id", .str "x")]]
      [.obj [("id", .str "x")], .obj [("id", .num 1)]] := by
  refine (learned_faithful_iff ?_ (.swap _ _ _)).mpr (settled_of_few (fun place => ?_) (.swap _ _ _))
  · intro sample hsample
    rw [List.mem_pair] at hsample
    rcases hsample with rfl | rfl
    · exact .obj (List.nodup_singleton _) (by simp [Distinct.num])
    · exact .obj (List.nodup_singleton _) (by simp [Distinct.str])
  · cases place with
    | nil => decide
    | cons step place =>
        rw [samplesAt, List.foldl_cons, ← samplesAt, names_samplesAt_scalars place]
        · exact Nat.zero_le _
        · intro sample hsample
          cases step with
          | item => exact absurd hsample List.not_mem_nil
          | key name =>
              obtain ⟨object, hobject, hget⟩ := List.mem_filterMap.mp hsample
              rw [List.mem_pair] at hobject
              rcases hobject with rfl | rfl
              · obtain rfl := eq_of_get?_single hget
                decide
              · obtain rfl := eq_of_get?_single hget
                decide

/-- Names that are all different. -/
def manyNames (n : ℕ) : List String :=
  (List.range n).map fun i => String.ofList (List.replicate i 'a')

/-- An object with as many members as are kept. -/
def wideObject : Json := .obj ((manyNames MAX_PROPERTIES).map fun name => (name, .null))

/-- One member more, that comes too late or in time. -/
def lateObject : Json := .obj [("b", .null)]

lemma nodup_manyNames (n : ℕ) : (manyNames n).Nodup := by
  refine List.nodup_range.map fun i j h => ?_
  have hlength := congrArg (fun s : String => s.toList.length) h
  simpa using hlength

lemma not_mem_manyNames (n : ℕ) : "b" ∉ manyNames n := by
  intro hmem
  obtain ⟨i, -, hi⟩ := List.mem_map.mp hmem
  have hb : 'b' ∈ (String.ofList (List.replicate i 'a')).toList := by
    rw [hi]
    decide
  rw [String.toList_ofList] at hb
  exact absurd (List.eq_of_mem_replicate hb) (by decide)

lemma distinct_wideObject : Distinct wideObject := by
  refine .obj ?_ fun field hfield => ?_
  · rw [List.map_map]
    exact (nodup_manyNames _).map fun _ _ h => h
  · obtain ⟨name, -, rfl⟩ := List.mem_map.mp hfield
    exact .null

lemma keys_wideObject :
    ((manyNames MAX_PROPERTIES).map fun name => (name, Json.null)).map Prod.fst =
      manyNames MAX_PROPERTIES := by
  rw [List.map_map]
  exact List.map_id _

lemma not_mem_kept_late : "b" ∉ kept [wideObject, lateObject] := by
  have hkeys : names [wideObject, lateObject] = manyNames MAX_PROPERTIES ++ ["b"] := by
    show ((((manyNames MAX_PROPERTIES).map fun name => (name, Json.null)).map Prod.fst) ++
      ["b"]).eraseDups = _
    rw [keys_wideObject, List.eraseDups_snoc, if_neg (not_mem_manyNames _),
      List.eraseDups_of_nodup (nodup_manyNames _)]
  intro hmem
  rw [kept, hkeys, List.take_append_of_le_length (by simp [manyNames])] at hmem
  exact not_mem_manyNames _ (List.mem_of_mem_take hmem)

/-- A property that is described or not, by the order of the samples. -/
theorem learned_order_matters :
    (∀ sample ∈ [wideObject, lateObject], Distinct sample) ∧
      [wideObject, lateObject].Perm [lateObject, wideObject] ∧
      ¬ Faithful [wideObject, lateObject] [lateObject, wideObject] := by
  have hdistinct : ∀ sample ∈ [wideObject, lateObject], Distinct sample := by
    intro sample hsample
    rw [List.mem_pair] at hsample
    rcases hsample with rfl | rfl
    · exact distinct_wideObject
    · exact .obj (List.nodup_singleton _) (by simp [Distinct.null])
  have hswap : [wideObject, lateObject].Perm [lateObject, wideObject] := .swap _ _ _
  refine ⟨hdistinct, hswap, fun hfaithful => ?_⟩
  have heq := hfaithful.order_free
  rw [learnedSchema_eq hdistinct,
    learnedSchema_eq fun sample hmem => hdistinct sample (hswap.mem_iff.mpr hmem)] at heq
  have htime : "b" ∈ kept [lateObject, wideObject] := by
    show "b" ∈ ((["b"] ++ _).eraseDups).take (199 + 1)
    rw [List.singleton_append, List.eraseDups_cons, List.take_succ_cons]
    exact List.mem_cons_self
  have hlate : "b" ∈ (propertiesOf (schemaOf (11 + 1) [wideObject, lateObject])).map Prod.fst := by
    have heq' : schemaOf (11 + 1) [wideObject, lateObject] =
        schemaOf (11 + 1) [lateObject, wideObject] := heq
    rw [heq']
    exact mem_keys_propertiesOf.mpr htime
  exact not_mem_kept_late (mem_keys_propertiesOf.mp hlate)

end Teitunnel.OpenApi
