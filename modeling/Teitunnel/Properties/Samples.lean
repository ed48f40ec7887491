import Teitunnel.Properties.Schemas
import Teitunnel.Lib.Groups
import Teitunnel.OpenApi.Infer

/-!
# Samples that fit

The values of a parameter conform to the schema that is learned from them, unless texts with a format
stand beside other values; the bodies of one media type conform to its schema, and the fields of forms
are its properties.
-/

namespace Teitunnel.OpenApi

open Text Lens
open SortedMap (collect within mem_collect mem_within)

/-! ## Sets with one element -/

lemma toList_eq_singleton {α : Type} [LinearOrder α] {s : SortedSet α} {a : α} :
    s.toList = [a] ↔ ∀ b, b ∈ s ↔ b = a := by
  have hone : s.toList = [a] ↔ s = ⟨[a], List.pairwise_singleton _ _⟩ := by
    constructor
    · intro h
      exact SortedSet.toList_injective h
    · rintro rfl
      rfl
  rw [hone, SortedSet.ext_iff]
  refine forall_congr' fun b => ?_
  have hmem : b ∈ (⟨[a], List.pairwise_singleton _ _⟩ : SortedSet α) ↔ b = a := List.mem_singleton
  rw [hmem]

/-! ## Scalars -/

section Scalars

variable [Foreign] {values : List String}

/-- The schema of a parameter from its values, one after another. -/
def learnedScalar (values : List String) : Scalar := values.foldl Scalar.add {}

/-- A text conforms to the schema of a parameter, read as the type that it names. -/
def conformsText (schema : Json) (value : String) : Bool :=
  match typesOf schema with
  | some ["integer"] => Scalar.kindOf value = .integer
  | some ["number"] => Scalar.kindOf value = .integer || Scalar.kindOf value = .number
  | some ["boolean"] => Scalar.kindOf value = .boolean
  | some ["string"] =>
      match (schema.get? "format").bind Json.asStr with
      | none => true
      | some format => stringFormat value = some format
  | _ => false

/-- Some values are texts, all of one format, and others are of another type without that format. -/
def Mixed (values : List String) : Prop :=
  ∃ format, (∃ value ∈ values, Scalar.kindOf value = .string) ∧
    (∀ value ∈ values, Scalar.kindOf value = .string → stringFormat value = some format) ∧
    ∃ value ∈ values, Scalar.kindOf value ≠ .string ∧ stringFormat value ≠ some format

lemma learnedScalar_snoc (values : List String) (value : String) :
    learnedScalar (values ++ [value]) = (learnedScalar values).add value := by
  rw [learnedScalar, List.foldl_append]
  rfl

lemma mem_scalarKinds {kind : Kind} :
    kind ∈ (learnedScalar values).kinds ↔ ∃ value ∈ values, Scalar.kindOf value = kind := by
  induction values using List.reverseRecOn with
  | nil => simp [learnedScalar]
  | append_singleton values value ih =>
      rw [learnedScalar_snoc, Scalar.add]
      dsimp only
      rw [SortedSet.mem_insert, ih]
      constructor
      · rintro (rfl | ⟨value', hvalue', hkind⟩)
        · exact ⟨value, List.mem_append_right _ List.mem_cons_self, rfl⟩
        · exact ⟨value', List.mem_append_left _ hvalue', hkind⟩
      · rintro ⟨value', hvalue', hkind⟩
        rcases List.mem_append.mp hvalue' with h | h
        · exact .inr ⟨value', h, hkind⟩
        · rw [List.mem_singleton.mp h] at hkind
          exact .inl hkind.symm

lemma mem_scalarFormats {format : Option String} :
    format ∈ (learnedScalar values).formats ↔
      ∃ value ∈ values, Scalar.kindOf value = .string ∧ stringFormat value = format := by
  induction values using List.reverseRecOn with
  | nil => simp [learnedScalar]
  | append_singleton values value ih =>
      have hstep : format ∈ ((learnedScalar values).add value).formats ↔
          (Scalar.kindOf value = .string ∧ stringFormat value = format) ∨
            format ∈ (learnedScalar values).formats := by
        rw [Scalar.add]
        dsimp only
        split_ifs with hkind
        · rw [SortedSet.mem_insert, and_iff_right hkind, eq_comm]
        · simp [hkind]
      rw [learnedScalar_snoc, hstep, ih]
      constructor
      · rintro (⟨hkind, hformat⟩ | ⟨value', hvalue', hkind, hformat⟩)
        · exact ⟨value, List.mem_append_right _ List.mem_cons_self, hkind, hformat⟩
        · exact ⟨value', List.mem_append_left _ hvalue', hkind, hformat⟩
      · rintro ⟨value', hvalue', hkind, hformat⟩
        rcases List.mem_append.mp hvalue' with h | h
        · exact .inr ⟨value', h, hkind, hformat⟩
        · rw [List.mem_singleton.mp h] at hkind hformat
          exact .inl ⟨hkind, hformat⟩

/-- What a value is read as. -/
lemma kindOf_cases (value : String) : Scalar.kindOf value = .integer ∨
    Scalar.kindOf value = .number ∨ Scalar.kindOf value = .boolean ∨
      Scalar.kindOf value = .string := by
  rw [Scalar.kindOf]
  split_ifs <;> simp

omit [Foreign] in
lemma typesOf_schema (scalar : Scalar) : typesOf scalar.schema = some [scalar.kind.name] := rfl

omit [Foreign] in
lemma format_schema (scalar : Scalar) :
    (scalar.schema.get? "format").bind Json.asStr = scalar.format := by
  rw [Scalar.schema, Json.get?, List.lookup_cons]
  cases scalar.format with
  | none => rfl
  | some format => rfl

/-- What a text must be, by the type that the schema names. -/
lemma conformsText_iff {scalar : Scalar} {value : String} :
    conformsText scalar.schema value = true ↔
      (scalar.kind = .integer ∧ Scalar.kindOf value = .integer) ∨
      (scalar.kind = .number ∧
        (Scalar.kindOf value = .integer ∨ Scalar.kindOf value = .number)) ∨
      (scalar.kind = .boolean ∧ Scalar.kindOf value = .boolean) ∨
      (scalar.kind = .string ∧ ∀ format, scalar.format = some format →
        stringFormat value = some format) := by
  rw [conformsText, typesOf_schema, format_schema]
  cases hkind : scalar.kind with
  | string =>
      show (match scalar.format with
        | none => true
        | some format => decide (stringFormat value = some format)) = true ↔ _
      cases scalar.format <;> simp
  | integer => simp [Kind.name]
  | number => simp [Kind.name]
  | boolean => simp [Kind.name]
  | null => simp [Kind.name]
  | array => simp [Kind.name]
  | object => simp [Kind.name]

/-- One type, when all values agree; whole numbers and others are numbers; else texts. -/
lemma scalarKind_cases (hne : values ≠ []) :
    (∃ kind, (learnedScalar values).kind = kind ∧ ∀ value ∈ values, Scalar.kindOf value = kind) ∨
    ((learnedScalar values).kind = .number ∧ ∀ value ∈ values,
      Scalar.kindOf value = .integer ∨ Scalar.kindOf value = .number) ∨
    ((learnedScalar values).kind = .string ∧
      ∃ value ∈ values, Scalar.kindOf value ≠ .string) := by
  have hkinds : ∀ {kind}, kind ∈ (learnedScalar values).kinds.toList ↔
      ∃ value ∈ values, Scalar.kindOf value = kind := mem_scalarKinds
  rw [Scalar.kind]
  split
  · next one hlist =>
      refine .inl ⟨one, rfl, fun value hvalue => ?_⟩
      have hmem := hkinds.mpr ⟨value, hvalue, rfl⟩
      rw [hlist] at hmem
      exact List.mem_singleton.mp hmem
  · next hlist =>
      refine .inr (.inl ⟨rfl, fun value hvalue => ?_⟩)
      have hmem := hkinds.mpr ⟨value, hvalue, rfl⟩
      rw [hlist] at hmem
      simpa using hmem
  · next hone htwo =>
      refine .inr (.inr ⟨rfl, ?_⟩)
      by_contra hall
      push Not at hall
      refine hone .string (toList_eq_singleton.mpr fun kind => ?_)
      rw [mem_scalarKinds]
      constructor
      · rintro ⟨value, hvalue, rfl⟩
        exact hall value hvalue
      · rintro rfl
        obtain ⟨value, hvalue⟩ := List.exists_mem_of_ne_nil values hne
        exact ⟨value, hvalue, hall value hvalue⟩

/-- The format of a schema is the one that all texts among the values have. -/
lemma scalarFormat_iff {format : String} : (learnedScalar values).format = some format ↔
    (learnedScalar values).kind = .string ∧
      (∃ value ∈ values, Scalar.kindOf value = .string) ∧
      ∀ value ∈ values, Scalar.kindOf value = .string → stringFormat value = some format := by
  have hlist : (learnedScalar values).formats.toList = [some format] ↔
      (∃ value ∈ values, Scalar.kindOf value = .string) ∧
      ∀ value ∈ values, Scalar.kindOf value = .string → stringFormat value = some format := by
    rw [toList_eq_singleton]
    simp only [mem_scalarFormats]
    constructor
    · intro h
      obtain ⟨value, hvalue, hkind, -⟩ := (h (some format)).mpr rfl
      exact ⟨⟨value, hvalue, hkind⟩, fun value' hvalue' hkind' => (h _).mp ⟨value', hvalue', hkind', rfl⟩⟩
    · rintro ⟨⟨value, hvalue, hkind⟩, hall⟩ found
      constructor
      · rintro ⟨value', hvalue', hkind', rfl⟩
        exact hall value' hvalue' hkind'
      · rintro rfl
        exact ⟨value, hvalue, hkind, hall value hvalue hkind⟩
  rw [← hlist, Scalar.format]
  split
  · next found hkind hformats => simp [hkind, hformats]
  · next hnot =>
      constructor
      · intro h
        cases h
      · rintro ⟨hkind, hformats⟩
        exact absurd hformats (hnot format hkind)

/-- The values of a parameter conform to the schema that is learned from them, unless the texts among
them have one format and others have not. -/
lemma scalar_conforms_iff (hne : values ≠ []) :
    (∀ value ∈ values, conformsText (learnedScalar values).schema value = true) ↔ ¬ Mixed values := by
  simp only [conformsText_iff]
  rcases scalarKind_cases hne with ⟨kind, hkind, hall⟩ | ⟨hkind, hall⟩ | ⟨hkind, hother⟩
  · refine iff_of_true (fun value hvalue => ?_) ?_
    · rw [hkind, hall value hvalue]
      have hread := kindOf_cases value
      rw [hall value hvalue] at hread
      rcases hread with rfl | rfl | rfl | rfl
      · exact .inl ⟨rfl, rfl⟩
      · exact .inr (.inl ⟨rfl, .inr rfl⟩)
      · exact .inr (.inr (.inl ⟨rfl, rfl⟩))
      · refine .inr (.inr (.inr ⟨rfl, fun format hformat => ?_⟩))
        exact (scalarFormat_iff.mp hformat).2.2 value hvalue (hall value hvalue)
    · rintro ⟨format, ⟨value, hvalue, hstring⟩, -, value', hvalue', hnot, -⟩
      exact hnot ((hall value' hvalue').trans ((hall value hvalue).symm.trans hstring))
  · refine iff_of_true (fun value hvalue => .inr (.inl ⟨hkind, hall value hvalue⟩)) ?_
    rintro ⟨format, ⟨value, hvalue, hstring⟩, -⟩
    rcases hall value hvalue with h | h
    · rw [hstring] at h
      cases h
    · rw [hstring] at h
      cases h
  · have hread : (∀ value ∈ values,
        ((learnedScalar values).kind = .integer ∧ Scalar.kindOf value = .integer) ∨
        ((learnedScalar values).kind = .number ∧
          (Scalar.kindOf value = .integer ∨ Scalar.kindOf value = .number)) ∨
        ((learnedScalar values).kind = .boolean ∧ Scalar.kindOf value = .boolean) ∨
        ((learnedScalar values).kind = .string ∧ ∀ format,
          (learnedScalar values).format = some format → stringFormat value = some format)) ↔
        ∀ value ∈ values, ∀ format, (learnedScalar values).format = some format →
          stringFormat value = some format := by
      simp [hkind]
    rw [hread]
    constructor
    · rintro h ⟨format, hsome, hformat, value, hvalue, -, hnot⟩
      exact hnot (h value hvalue format (scalarFormat_iff.mpr ⟨hkind, hsome, hformat⟩))
    · intro h value hvalue format hformat
      obtain ⟨-, hsome, hall⟩ := scalarFormat_iff.mp hformat
      by_contra hnot
      exact h ⟨format, hsome, hall, value, hvalue,
        fun hstring => hnot (hall value hvalue hstring), hnot⟩

end Scalars

/-! ## First values -/

lemma firsts_spec (seen : List String) (pairs : List (String × String)) :
    ((firsts seen pairs).map Prod.fst).Nodup ∧
      ∀ pair ∈ firsts seen pairs, pair.1 ∉ seen ∧ pair ∈ pairs := by
  induction pairs generalizing seen with
  | nil => exact ⟨List.nodup_nil, fun pair h => absurd h List.not_mem_nil⟩
  | cons first rest ih =>
      obtain ⟨name, value⟩ := first
      rw [firsts]
      split_ifs with hseen
      · obtain ⟨hnodup, hmem⟩ := ih seen
        exact ⟨hnodup, fun pair h => ⟨(hmem pair h).1, List.mem_cons_of_mem _ (hmem pair h).2⟩⟩
      · obtain ⟨hnodup, hmem⟩ := ih (name :: seen)
        rw [List.contains_iff_mem] at hseen
        refine ⟨?_, fun pair h => ?_⟩
        · rw [List.map_cons, List.nodup_cons]
          refine ⟨fun h => ?_, hnodup⟩
          obtain ⟨pair, hpair, rfl⟩ := List.mem_map.mp h
          exact (hmem pair hpair).1 List.mem_cons_self
        · rcases List.mem_cons.mp h with rfl | h
          · exact ⟨hseen, List.mem_cons_self⟩
          · exact ⟨fun hmore => (hmem pair h).1 (List.mem_cons_of_mem _ hmore),
              List.mem_cons_of_mem _ (hmem pair h).2⟩

/-! ## Parameters -/

section Params

variable {group : List Exchange} {pairsOf : Exchange → List (String × String)}
  {name : String}

/-- The values of a parameter in a group. -/
def valuesOf (pairsOf : Exchange → List (String × String)) (group : List Exchange) (name : String) :
    List String :=
  (within Prod.fst name (group.flatMap pairsOf)).map Prod.snd

lemma mem_valuesOf {value : String} : value ∈ valuesOf pairsOf group name ↔
    ∃ exchange ∈ group, (name, value) ∈ pairsOf exchange := by
  rw [valuesOf, List.mem_map]
  constructor
  · rintro ⟨⟨name', value'⟩, hpair, rfl⟩
    obtain ⟨hmem, rfl⟩ := mem_within.mp hpair
    exact List.mem_flatMap.mp hmem
  · rintro ⟨exchange, hexchange, hpair⟩
    exact ⟨(name, value), mem_within.mpr ⟨List.mem_flatMap.mpr ⟨exchange, hexchange, hpair⟩, rfl⟩, rfl⟩

lemma length_within_of_nodup {pairs : List (String × String)} (h : (pairs.map Prod.fst).Nodup) :
    (within Prod.fst name pairs).length = if name ∈ pairs.map Prod.fst then 1 else 0 := by
  rw [SortedMap.length_within]
  split_ifs with hmem
  · exact List.count_eq_one_of_mem h hmem
  · exact List.count_eq_zero_of_not_mem hmem

/-- A parameter is counted once for each request that has it. -/
lemma length_valuesOf (hnodup : ∀ exchange ∈ group, ((pairsOf exchange).map Prod.fst).Nodup) :
    (valuesOf pairsOf group name).length =
      group.countP fun exchange => name ∈ (pairsOf exchange).map Prod.fst := by
  rw [valuesOf, List.length_map]
  induction group with
  | nil => rfl
  | cons exchange rest ih =>
      have hsplit : within Prod.fst name ((exchange :: rest).flatMap pairsOf) =
          within Prod.fst name (pairsOf exchange) ++
            within Prod.fst name (rest.flatMap pairsOf) := by
        rw [List.flatMap_cons, within, List.filter_append]
        rfl
      rw [hsplit, List.length_append, length_within_of_nodup (hnodup exchange List.mem_cons_self),
        ih fun other h => hnodup other (List.mem_cons_of_mem _ h), List.countP_cons, Nat.add_comm]
      simp only [decide_eq_true_eq]

/-- What is known of the parameters of a group. -/
lemma mem_params [Foreign] {count : ℕ} {scalar : Scalar} :
    (name, count, scalar) ∈ (group.flatMap pairsOf).foldl addParam [] ↔
      (∃ exchange ∈ group, name ∈ (pairsOf exchange).map Prod.fst) ∧
        count = (valuesOf pairsOf group name).length ∧
        scalar = learnedScalar (valuesOf pairsOf group name) := by
  have hcollect : (group.flatMap pairsOf).foldl addParam [] =
      collect Prod.fst (0, {}) (fun param entry => (entry.1 + 1, entry.2.add param.2))
        (group.flatMap pairsOf) := rfl
  have hfold : ∀ (pairs : List (String × String)) (start : ℕ × Scalar),
      pairs.foldl (fun entry param => (entry.1 + 1, entry.2.add param.2)) start =
        (start.1 + pairs.length, (pairs.map Prod.snd).foldl Scalar.add start.2) := by
    intro pairs
    induction pairs with
    | nil => exact fun start => rfl
    | cons pair rest ih =>
        intro start
        rw [List.foldl_cons, ih, List.length_cons, List.map_cons, List.foldl_cons, Nat.add_assoc,
          Nat.add_comm 1]
  rw [hcollect, mem_collect, hfold, Prod.mk.injEq, Nat.zero_add, valuesOf, List.length_map]
  refine and_congr ?_ Iff.rfl
  rw [List.mem_map]
  constructor
  · rintro ⟨pair, hpair, rfl⟩
    obtain ⟨exchange, hexchange, hmem⟩ := List.mem_flatMap.mp hpair
    exact ⟨exchange, hexchange, List.mem_map_of_mem hmem⟩
  · rintro ⟨exchange, hexchange, hmem⟩
    obtain ⟨pair, hpair, rfl⟩ := List.mem_map.mp hmem
    exact ⟨pair, List.mem_flatMap.mpr ⟨exchange, hexchange, hpair⟩, rfl⟩

end Params

/-! ## Bodies -/

section Bodies

variable {samples : List (String × BodySample)} {media name : String}

/-- The JSON value of a sample. -/
def BodySample.value? : BodySample → Option Json
  | .json value => some value
  | .form _ => none
  | .other => none

/-- The names of the fields of a sample that is a form. -/
def BodySample.fields : BodySample → List String
  | .json _ => []
  | .form names => names
  | .other => []

/-- The bodies learned from samples, each under its media type. -/
def contentOf (samples : List (String × BodySample)) : Content :=
  samples.foldl (fun content sample => content.add sample.1 sample.2) []

lemma contentOf_snoc (samples : List (String × BodySample)) (sample : String × BodySample) :
    contentOf (samples ++ [sample]) = (contentOf samples).add sample.1 sample.2 := by
  rw [contentOf, List.foldl_append]
  rfl

/-- The samples under a media type. -/
def bodiesAt (media : String) (samples : List (String × BodySample)) : List BodySample :=
  (within Prod.fst media samples).map Prod.snd

lemma mem_addNames {fields : SortedSet String} {names : List String} :
    name ∈ addNames fields names ↔ name ∈ fields ∨ name ∈ names := by
  induction names generalizing fields with
  | nil => simp [addNames]
  | cons first rest ih =>
      have hstep : addNames fields (first :: rest) = addNames (fields.insert first) rest := rfl
      rw [hstep, ih, SortedSet.mem_insert, List.mem_cons]
      constructor
      · rintro ((rfl | h) | h)
        · exact .inr (.inl rfl)
        · exact .inl h
        · exact .inr (.inr h)
      · rintro (h | rfl | h)
        · exact .inl (.inr h)
        · exact .inl (.inl rfl)
        · exact .inr h

/-- A body as what its samples add up to. -/
lemma foldl_contentAdd (samples : List BodySample) :
    let body := samples.foldl ContentSchema.add {}
    body.json = (samples.filterMap BodySample.value?).foldl Learned.add {} ∧
      (∀ name, name ∈ body.formFields ↔ ∃ sample ∈ samples, name ∈ sample.fields) ∧
      body.samples = samples.length := by
  induction samples using List.reverseRecOn with
  | nil => simp
  | append_singleton samples sample ih =>
      obtain ⟨hjson, hform, hcount⟩ := ih
      rw [List.foldl_append, List.filterMap_append, List.foldl_append, List.length_append]
      generalize samples.foldl ContentSchema.add {} = body at hjson hform hcount
      have hfields : ∀ name, (∃ old ∈ samples ++ [sample], name ∈ old.fields) ↔
          name ∈ body.formFields ∨ name ∈ sample.fields := by
        intro name
        rw [hform]
        constructor
        · rintro ⟨old, hold, hname⟩
          rcases List.mem_append.mp hold with h | h
          · exact .inl ⟨old, h, hname⟩
          · rw [List.mem_singleton.mp h] at hname
            exact .inr hname
        · rintro (⟨old, hold, hname⟩ | hname)
          · exact ⟨old, List.mem_append_left _ hold, hname⟩
          · exact ⟨sample, List.mem_append_right _ List.mem_cons_self, hname⟩
      have hstep : [sample].foldl ContentSchema.add body = body.add sample := rfl
      simp only [hfields, hstep, ← hjson]
      cases sample with
      | json value =>
          refine ⟨rfl, fun name => ?_, congrArg (· + 1) hcount⟩
          exact (or_iff_left List.not_mem_nil).symm
      | form names => exact ⟨rfl, fun name => mem_addNames, congrArg (· + 1) hcount⟩
      | other =>
          refine ⟨rfl, fun name => ?_, congrArg (· + 1) hcount⟩
          exact (or_iff_left List.not_mem_nil).symm

/-- The schemas of the bodies, one for each media type. -/
lemma mem_contentOf {body : ContentSchema} : (media, body) ∈ contentOf samples ↔
    media ∈ samples.map Prod.fst ∧
      body = (bodiesAt media samples).foldl ContentSchema.add {} := by
  have hcollect : contentOf samples = collect Prod.fst {} (fun sample body => body.add sample.2)
      samples := rfl
  rw [hcollect, mem_collect, bodiesAt, List.foldl_map]

lemma mem_render_contentOf {schema : Json} : (media, schema) ∈ (contentOf samples).render ↔
    media ∈ samples.map Prod.fst ∧
      schema = ((bodiesAt media samples).foldl ContentSchema.add {}).schema media := by
  rw [Content.render, List.mem_map]
  constructor
  · rintro ⟨⟨media', body⟩, hmem, heq⟩
    obtain ⟨rfl, rfl⟩ := Prod.mk.inj heq
    obtain ⟨hmedia, rfl⟩ := mem_contentOf.mp hmem
    exact ⟨hmedia, rfl⟩
  · rintro ⟨hmedia, rfl⟩
    exact ⟨_, mem_contentOf.mpr ⟨hmedia, rfl⟩, rfl⟩

lemma mem_bodiesAt {sample : BodySample} :
    sample ∈ bodiesAt media samples ↔ (media, sample) ∈ samples := by
  rw [bodiesAt, List.mem_map]
  constructor
  · rintro ⟨⟨media', sample'⟩, hmem, rfl⟩
    obtain ⟨hsample, rfl⟩ := mem_within.mp hmem
    exact hsample
  · intro h
    exact ⟨_, mem_within.mpr ⟨h, rfl⟩, rfl⟩

/-- A JSON body conforms to the schema under its media type. -/
lemma conforms_contentOf {value : Json}
    (hdistinct : ∀ media value, (media, .json value) ∈ samples → Json.Distinct value)
    (h : (media, .json value) ∈ samples) :
    ∃ schema, (media, schema) ∈ (contentOf samples).render ∧ conforms value schema = true := by
  refine ⟨_, mem_render_contentOf.mpr ⟨List.mem_map_of_mem h, rfl⟩, ?_⟩
  obtain ⟨hjson, -, -⟩ := foldl_contentAdd (bodiesAt media samples)
  set values := (bodiesAt media samples).filterMap BodySample.value? with hvalues
  have hmem : value ∈ values :=
    List.mem_filterMap.mpr ⟨.json value, mem_bodiesAt.mpr h, rfl⟩
  have hall : ∀ value ∈ values, Json.Distinct value := by
    intro value hvalue
    obtain ⟨sample, hsample, hsome⟩ := List.mem_filterMap.mp hvalue
    cases sample with
    | json value' =>
        obtain rfl := Option.some.inj hsome
        exact hdistinct media value' (mem_bodiesAt.mp hsample)
    | form names => cases hsome
    | other => cases hsome
  rw [foldl_add hall] at hjson
  have hne : (Learned.of MAX_DEPTH values).isEmpty = false := by
    have hkinds : (SortedSet.ofList (values.map Kind.of)).isEmpty = false := by
      rw [isEmpty_kinds, List.isEmpty_eq_false_iff]
      exact List.ne_nil_of_mem hmem
    rw [Learned.isEmpty]
    exact Bool.and_eq_false_imp.mpr fun h => absurd (h.symm.trans hkinds) (by decide)
  rw [ContentSchema.schema, hjson, hne]
  exact conforms_schemaOf hall hmem

/-- Without JSON values among them, the fields of forms are the properties under a media type. -/
lemma fields_contentOf {names : List String} (hnone : ∀ value, (media, .json value) ∉ samples)
    (h : (media, .form names) ∈ samples) (hname : name ∈ names) :
    ∃ schema, (media, schema) ∈ (contentOf samples).render ∧
      name ∈ (propertiesOf schema).map Prod.fst := by
  refine ⟨_, mem_render_contentOf.mpr ⟨List.mem_map_of_mem h, rfl⟩, ?_⟩
  obtain ⟨hjson, hform, -⟩ := foldl_contentAdd (bodiesAt media samples)
  have hvalues : (bodiesAt media samples).filterMap BodySample.value? = [] := by
    rw [List.filterMap_eq_nil_iff]
    intro sample hsample
    cases sample with
    | json value => exact absurd (mem_bodiesAt.mp hsample) (hnone value)
    | form names => rfl
    | other => rfl
  rw [hvalues] at hjson
  have hmem := (hform name).mpr ⟨.form names, mem_bodiesAt.mpr h, hname⟩
  generalize (bodiesAt media samples).foldl ContentSchema.add {} = body at hjson hmem
  have hne : body.formFields.isEmpty = false := by
    cases hcase : body.formFields.isEmpty with
    | false => rfl
    | true =>
        rw [SortedSet.isEmpty, List.isEmpty_iff] at hcase
        rw [← SortedSet.mem_toList, hcase] at hmem
        cases hmem
  have hempty : (([] : List Json).foldl Learned.add {}).isEmpty = true := rfl
  rw [ContentSchema.schema, hjson, hempty, hne]
  have hproperties : propertiesOf (.obj [("type", .str "object"), ("properties",
      .obj (body.formFields.toList.map fun name =>
        (name, .obj [("type", .str "string")])))]) =
      body.formFields.toList.map fun name => (name, .obj [("type", .str "string")]) := rfl
  show name ∈ (propertiesOf (.obj _)).map Prod.fst
  rw [hproperties, List.map_map]
  exact List.mem_map.mpr ⟨name, SortedSet.mem_toList.mpr hmem, rfl⟩

/-- A body stands under a media type that it was read by, and its objects have different keys. -/
def Sound (media : String) (body : BodySample) : Prop :=
  (∀ value, body.value? = some value → isJson media = true ∧ Json.Distinct value) ∧
    (body.fields ≠ [] → isJson media = false)

/-- A body fits the schemas of bodies: its value conforms to the one of its media type, or the fields
of the form are properties there. -/
def BodyFits (content : List (String × Json)) (media : String) (body : BodySample) : Prop :=
  ∃ schema, (media, schema) ∈ content ∧
    (∀ value, body.value? = some value → conforms value schema = true) ∧
    ∀ name ∈ body.fields, name ∈ (propertiesOf schema).map Prod.fst

lemma bodyFits_contentOf {body : BodySample}
    (hsound : ∀ media body, (media, body) ∈ samples → Sound media body)
    (h : (media, body) ∈ samples) : BodyFits (contentOf samples).render media body := by
  cases body with
  | json value =>
      obtain ⟨schema, hschema, hconforms⟩ := conforms_contentOf
        (fun media value hvalue => ((hsound media _ hvalue).1 value rfl).2) h
      refine ⟨schema, hschema, fun value' hvalue' => ?_, fun name hname => absurd hname List.not_mem_nil⟩
      rwa [← Option.some.inj hvalue']
  | form names =>
      have hschema := mem_render_contentOf.mpr ⟨List.mem_map_of_mem h, rfl⟩
      refine ⟨_, hschema, fun value hvalue => absurd hvalue (Option.some_ne_none value).symm, fun name hname => ?_⟩
      have hnone : ∀ value, (media, .json value) ∉ samples := by
        intro value hvalue
        have hjson := ((hsound media _ hvalue).1 value rfl).1
        rw [(hsound media _ h).2 (List.ne_nil_of_mem hname)] at hjson
        cases hjson
      obtain ⟨schema, hmem, hproperty⟩ := fields_contentOf hnone h hname
      rwa [(mem_render_contentOf.mp hmem).2] at hproperty
  | other =>
      have hschema := mem_render_contentOf.mpr ⟨List.mem_map_of_mem h, rfl⟩
      exact ⟨_, hschema, fun value hvalue => absurd hvalue (Option.some_ne_none value).symm,
        fun name hname => absurd hname List.not_mem_nil⟩

end Bodies

end Teitunnel.OpenApi
