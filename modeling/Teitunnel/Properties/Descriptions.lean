import Teitunnel.Properties.Samples
import Teitunnel.Properties.Templates

/-!
# Descriptions that fit

Each captured request is described by one operation: its path fits the template, its parameters and
its bodies conform to the schemas, what is required is what every request of the operation had, and
the operations count every request once.
-/

namespace Teitunnel.OpenApi

open Text Lens
open SortedMap (collect within collect_eq mem_collect mem_within)

/-! ## Operations -/

section Operations

variable [Foreign] [Decompressors] {template : Template} {group : List Exchange}

/-- The operation of a group of requests to one template. -/
def operationOf (template : Template) (group : List Exchange) : Operation :=
  group.foldl (fun operation exchange => operation.add exchange (segments exchange) template) {}

/-- A request has credentials of a scheme. -/
def hasScheme (scheme : String) (exchange : Exchange) : Bool :=
  toAsciiLowercase (authScheme exchange.request) = scheme

/-- The body of a request, under its media type. -/
def requestSample (exchange : Exchange) : Option (String × BodySample) :=
  let media := mediaType exchange.request.headers
  (sample exchange.request.headers exchange.request.body media).map fun body =>
    (media.getD OCTET_STREAM, body)

/-- The body of an answer, under its media type. -/
def responseSample (response : ResponseRecord) : Option (String × BodySample) :=
  let media := mediaType response.headers
  (sample response.headers response.body media).map fun body => (media.getD OCTET_STREAM, body)

/-- The answers of a group. -/
def answersOf (group : List Exchange) : List ResponseRecord := group.filterMap Exchange.response

/-- What is read as JSON, or as a form, has a media type for it. -/
lemma sound_of_sample (hread : ∀ data value, Foreign.readJson data = some value → Json.Distinct value)
    {headers : Lens.HeaderMap} {record : BodyRecord} {body : BodySample} {media : Option String}
    (h : sample headers record media = some body) : Sound (media.getD OCTET_STREAM) body := by
  rw [sample] at h
  by_cases hsize : record.size = 0
  · rw [if_pos hsize] at h
    cases h
  rw [if_neg hsize] at h
  obtain ⟨media, rfl, hbody⟩ := Option.bind_eq_some_iff.mp h
  rw [Option.getD_some]
  have hother : Sound media .other :=
    ⟨fun value hvalue => absurd hvalue (Option.some_ne_none value).symm, fun hne => absurd rfl hne⟩
  by_cases hcut : (record.truncated || !record.complete) = true
  · rw [if_pos hcut] at hbody
    rw [← Option.some.inj hbody]
    exact hother
  rw [if_neg hcut] at hbody
  cases hdecoded : decodeBody headers record.data with
  | error e =>
      rw [hdecoded] at hbody
      cases hbody
  | ok decoded =>
      rw [hdecoded] at hbody
      dsimp only at hbody
      by_cases hjson : isJson media = true
      · rw [if_pos hjson] at hbody
        rw [← Option.some.inj hbody]
        cases hvalue : Foreign.readJson decoded with
        | none => exact hother
        | some value =>
            refine ⟨fun value' heq => ?_, fun hne => absurd rfl hne⟩
            rw [← Option.some.inj heq]
            exact ⟨hjson, hread decoded value hvalue⟩
      · rw [if_neg hjson] at hbody
        by_cases hform : media = FORM
        · rw [if_pos hform] at hbody
          rw [← Option.some.inj hbody]
          exact ⟨fun value heq => absurd heq (Option.some_ne_none value).symm,
            fun _ => Bool.eq_false_iff.mpr hjson⟩
        · rw [if_neg hform] at hbody
          rw [← Option.some.inj hbody]
          exact hother

lemma operationOf_snoc (group : List Exchange) (exchange : Exchange) :
    operationOf template (group ++ [exchange]) =
      (operationOf template group).add exchange (segments exchange) template := by
  rw [operationOf, List.foldl_append]
  rfl

/-- An operation is what its requests add up to. -/
lemma operationOf_eq (template : Template) (group : List Exchange) :
    operationOf template group =
      { count := group.length
        query := (group.flatMap fun exchange => queryOf exchange.request).foldl addParam []
        headers := (group.flatMap fun exchange => headersOf exchange.request).foldl addParam []
        pathParams := (group.flatMap fun exchange =>
          pathValues template (segments exchange)).foldl addPathParam []
        request := contentOf (group.filterMap requestSample)
        requestCount := (group.filterMap requestSample).length
        responses := collect ResponseRecord.status ([], false) addResponse (answersOf group)
        bearer := group.any (hasScheme "bearer")
        basic := group.any (hasScheme "basic") } := by
  induction group using List.reverseRecOn with
  | nil => rfl
  | append_singleton group exchange ih =>
      rw [operationOf_snoc, ih, Operation.add]
      have hbody : ∀ body, sample exchange.request.headers exchange.request.body
          (mediaType exchange.request.headers) = body → [exchange].filterMap requestSample =
          (body.map fun body =>
            ((mediaType exchange.request.headers).getD OCTET_STREAM, body)).toList := by
        rintro body rfl
        rw [List.filterMap_cons, ← requestSample]
        cases requestSample exchange <;> rfl
      dsimp only
      rw [Operation.mk.injEq]
      simp only [List.flatMap_append, List.flatMap_cons, List.flatMap_nil, List.append_nil,
        List.foldl_append, List.length_append, List.length_cons, List.length_nil, List.any_append,
        List.any_cons, List.any_nil, Bool.or_false, List.filterMap_append, Nat.zero_add, hasScheme,
        true_and, and_true]
      refine ⟨?_, ?_, ?_⟩
      · cases hcase : sample exchange.request.headers exchange.request.body
            (mediaType exchange.request.headers) with
        | none =>
            rw [hbody _ hcase, Option.map_none, Option.toList_none, List.append_nil]
            rfl
        | some body =>
            rw [hbody _ hcase, Option.map_some, Option.toList_some, contentOf_snoc]
            rfl
      · cases hcase : sample exchange.request.headers exchange.request.body
            (mediaType exchange.request.headers) with
        | none =>
            rw [hbody _ hcase]
            rfl
        | some body =>
            rw [hbody _ hcase]
            rfl
      · have hanswers : answersOf (group ++ [exchange]) =
            answersOf group ++ exchange.response.toList := by
          rw [answersOf, List.filterMap_append, answersOf]
          cases hcase : exchange.response <;> simp [hcase]
        rw [hanswers, collect, collect, List.foldl_append]
        cases exchange.response <;> rfl

end Operations

/-! ## Parameters of paths -/

section PathParams

variable {template : Template} {path : List String}

/-- The positions of the parameters of a template. -/
def paramsOf (template : Template) : List ℕ :=
  (List.range template.length).filter fun index => template[index]? = some .param

lemma nodup_paramsOf (template : Template) : (paramsOf template).Nodup :=
  List.nodup_range.filter _

lemma length_paramsOf (template : Template) :
    (paramsOf template).length = (paramNames template).length := by
  have hall : (List.range template.length).map (template[·]?) = template.map some := by
    refine List.ext_getElem? fun i => ?_
    rw [List.getElem?_map, List.getElem?_map]
    by_cases hi : i < template.length
    · rw [List.getElem?_range hi, List.getElem?_eq_getElem hi, Option.map_some, Option.map_some,
        List.getElem?_eq_getElem hi]
    · rw [List.getElem?_eq_none (by simpa using hi), List.getElem?_eq_none (by simpa using hi)]
      rfl
  calc (paramsOf template).length
      = (List.range template.length).countP ((· = some Segment.param) ∘ (template[·]?)) := by
        rw [paramsOf, ← List.countP_eq_length_filter]
        rfl
    _ = template.countP (· = .param) := by
        rw [← List.countP_map, hall, List.countP_map]
        refine List.countP_congr fun segment _ => ?_
        simp
    _ = (paramNames template).length := (paramNames_spec template).2.1.symm

/-- A path that is as long as the template has a value for each of its parameters. -/
lemma pathValues_fst (h : template.length = path.length) :
    (pathValues template path).map Prod.fst = paramsOf template := by
  rw [pathValues, List.map_filterMap, paramsOf, ← List.filterMap_eq_filter]
  refine List.filterMap_congr fun index hindex => ?_
  have hlt : index < path.length := h ▸ List.mem_range.mp hindex
  rw [List.getElem?_eq_getElem hlt, Option.guard]
  by_cases hparam : template[index]? = some .param
  · rw [if_pos hparam, if_pos (decide_eq_true hparam)]
    rfl
  · rw [if_neg hparam, if_neg (by simpa using hparam)]
    rfl

/-- A list of pairs has one value for each of different keys. -/
lemma within_zip {κ : Type} [LinearOrder κ] {keys : List κ} {values : List String}
    (hkeys : keys.Nodup) {k : ℕ} {key : κ} (h : keys[k]? = some key) :
    (within Prod.fst key (keys.zip values)).map Prod.snd = values[k]?.toList := by
  have hnone : ∀ (rest : List κ) (values : List String), key ∉ rest →
      within Prod.fst key (rest.zip values) = [] := by
    intro rest values hkey
    rw [within, List.filter_eq_nil_iff]
    rintro ⟨other, value⟩ hmem heq
    exact hkey (of_decide_eq_true heq ▸ (List.of_mem_zip hmem).1)
  induction keys generalizing values k with
  | nil => cases h
  | cons first rest ih =>
      rw [List.nodup_cons] at hkeys
      cases values with
      | nil =>
          rw [List.zip_nil_right, List.getElem?_nil]
          rfl
      | cons value values =>
          rw [List.zip_cons_cons, within, List.filter_cons]
          cases k with
          | zero =>
              obtain rfl : first = key := Option.some.inj h
              have hrest := hnone rest values hkeys.1
              rw [within] at hrest
              rw [if_pos (decide_eq_true rfl), hrest]
              rfl
          | succ k =>
              rw [List.getElem?_cons_succ] at h
              have hne : first ≠ key := by
                rintro rfl
                exact hkeys.1 (List.mem_of_getElem? h)
              rw [if_neg (by simpa using hne), ← within, ih hkeys.2 h, List.getElem?_cons_succ]

end PathParams

/-! ## Parameters of operations -/

section Parameters

variable [Foreign] [Decompressors] {template : Template} {group : List Exchange}
  {location : Location} {parameter : Parameter} {method : String}

/-- The parameters of a request at a place of it, each with its value. -/
def pairsAt (template : Template) (location : Location) (exchange : Exchange) :
    List (String × String) :=
  match location with
  | .path => (paramNames template).zip ((pathValues template (segments exchange)).map Prod.snd)
  | .query => queryOf exchange.request
  | .header => headersOf exchange.request

/-- A request has a parameter. -/
def Has (template : Template) (location : Location) (name : String) (exchange : Exchange) : Prop :=
  name ∈ (pairsAt template location exchange).map Prod.fst

/-- What is said of a parameter: it is one that a request has, it is required when all have it, and
its schema is learned from its values. -/
def Stated (template : Template) (group : List Exchange) (parameter : Parameter) : Prop :=
  (∃ exchange ∈ group, Has template parameter.location parameter.name exchange) ∧
    (parameter.required = true ↔
      ∀ exchange ∈ group, Has template parameter.location parameter.name exchange) ∧
    parameter.schema = (learnedScalar
      (valuesOf (pairsAt template parameter.location) group parameter.name)).schema

/-- The parameters of the query, or of the headers. -/
lemma mem_listParameters
    (hnodup : ∀ exchange, ((pairsAt template location exchange).map Prod.fst).Nodup) :
    parameter ∈ listParameters (operationOf template group) location
        ((group.flatMap (pairsAt template location)).foldl addParam []) ↔
      parameter.location = location ∧ Stated template group parameter := by
  rw [listParameters, List.mem_map]
  have hcount : (operationOf template group).count = group.length := by rw [operationOf_eq]
  have hrequired : ∀ name, (valuesOf (pairsAt template location) group name).length =
      (operationOf template group).count ↔
        ∀ exchange ∈ group, Has template location name exchange := by
    intro name
    rw [length_valuesOf fun exchange _ => hnodup exchange, hcount, List.countP_eq_length]
    simp only [decide_eq_true_eq]
    rfl
  constructor
  · rintro ⟨⟨name, count, scalar⟩, hmem, rfl⟩
    obtain ⟨hhas, rfl, rfl⟩ := mem_params.mp hmem
    exact ⟨rfl, hhas, decide_eq_true_iff.trans (hrequired name), rfl⟩
  · rintro ⟨rfl, hhas, hiff, hschema⟩
    refine ⟨(parameter.name, _, _), mem_params.mpr ⟨hhas, rfl, rfl⟩, ?_⟩
    have hdecide : parameter.required = decide
        ((valuesOf (pairsAt template parameter.location) group parameter.name).length =
          (operationOf template group).count) := by
      rw [Bool.eq_iff_iff, hiff, decide_eq_true_iff, hrequired]
    cases parameter
    simp only at hschema hdecide ⊢
    rw [hschema, hdecide]

omit [Decompressors] in
lemma map_fst_pairsAt_path {exchange : Exchange} (h : template.length = (segments exchange).length) :
    (pairsAt template .path exchange).map Prod.fst = paramNames template := by
  have hlength : (paramNames template).length =
      ((pathValues template (segments exchange)).map Prod.snd).length := by
    rw [List.length_map, ← List.length_map (f := Prod.fst), pathValues_fst h, length_paramsOf]
  rw [pairsAt, List.map_fst_zip hlength.le]

omit [Decompressors] in
/-- The values of a parameter of the path are those at its position. -/
lemma valuesOf_path (hlength : ∀ exchange ∈ group, template.length = (segments exchange).length)
    {k index : ℕ} {name : String} (hindex : (paramsOf template)[k]? = some index)
    (hname : (paramNames template)[k]? = some name) :
    (within Prod.fst index (group.flatMap fun exchange =>
        pathValues template (segments exchange))).map Prod.snd =
      valuesOf (pairsAt template .path) group name := by
  rw [valuesOf]
  induction group with
  | nil => rfl
  | cons exchange rest ih =>
      have hown := hlength exchange List.mem_cons_self
      have hzip : pathValues template (segments exchange) =
          (paramsOf template).zip ((pathValues template (segments exchange)).map Prod.snd) := by
        rw [← pathValues_fst hown, List.zip_map']
        exact (List.map_id _).symm
      rw [List.flatMap_cons, List.flatMap_cons, within, List.filter_append, List.map_append, within,
        List.filter_append, List.map_append]
      have hhead : (within Prod.fst index (pathValues template (segments exchange))).map Prod.snd =
          (within Prod.fst name (pairsAt template .path exchange)).map Prod.snd := by
        rw [pairsAt, hzip, within_zip (nodup_paramsOf template) hindex, ← hzip,
          within_zip (paramNames_spec template).1 hname]
      rw [within, within] at hhead
      rw [hhead]
      exact congrArg _ (ih fun other h => hlength other (List.mem_cons_of_mem _ h))

/-- The parameters of the path. -/
lemma mem_pathParameters (hne : group ≠ [])
    (hlength : ∀ exchange ∈ group, template.length = (segments exchange).length) :
    parameter ∈ pathParameters (operationOf template group) template ↔
      parameter.location = .path ∧ Stated template group parameter := by
  obtain ⟨first, hfirst⟩ := List.exists_mem_of_ne_nil group hne
  have hschema : ∀ (k index : ℕ) (name : String), (paramsOf template)[k]? = some index →
      (paramNames template)[k]? = some name →
      ((operationOf template group).pathParams.lookup index).elim (.obj [("type", .str "string")])
        Scalar.schema = (learnedScalar (valuesOf (pairsAt template .path) group name)).schema := by
    intro k index name hindex hname
    have hcollect : (operationOf template group).pathParams =
        collect Prod.fst {} (fun param scalar => scalar.add param.2)
          (group.flatMap fun exchange => pathValues template (segments exchange)) := by
      rw [operationOf_eq]
      rfl
    have hmem : index ∈ (group.flatMap fun exchange =>
        pathValues template (segments exchange)).map Prod.fst := by
      rw [List.map_flatMap, List.mem_flatMap]
      refine ⟨first, hfirst, ?_⟩
      rw [pathValues_fst (hlength first hfirst)]
      exact List.mem_of_getElem? hindex
    rw [hcollect, SortedMap.lookup_collect hmem, Option.elim_some,
      ← valuesOf_path hlength hindex hname, learnedScalar, List.foldl_map]
  have hhas : ∀ name, name ∈ paramNames template ↔
      ∀ exchange ∈ group, Has template .path name exchange := by
    intro name
    constructor
    · intro hname exchange hexchange
      rw [Has, map_fst_pairsAt_path (hlength exchange hexchange)]
      exact hname
    · intro hall
      have hown := hall first hfirst
      rwa [Has, map_fst_pairsAt_path (hlength first hfirst)] at hown
  rw [pathParameters, ← paramsOf, List.mem_map]
  constructor
  · rintro ⟨⟨index, name⟩, hmem, rfl⟩
    obtain ⟨k, hk⟩ := List.mem_iff_getElem?.mp hmem
    rw [List.getElem?_zip_eq_some] at hk
    have hall := (hhas name).mp (List.mem_of_getElem? hk.2)
    exact ⟨rfl, ⟨first, hfirst, hall first hfirst⟩, iff_of_true rfl hall,
      hschema k index name hk.1 hk.2⟩
  · rintro ⟨hlocation, ⟨exchange, hexchange, hown⟩, hiff, hlearned⟩
    rw [hlocation] at hown hiff hlearned
    rw [Has, map_fst_pairsAt_path (hlength exchange hexchange)] at hown
    obtain ⟨k, hk⟩ := List.mem_iff_getElem?.mp hown
    have hlt : k < (paramsOf template).length := by
      rw [length_paramsOf]
      exact (List.getElem?_eq_some_iff.mp hk).1
    refine ⟨((paramsOf template)[k], parameter.name), List.mem_iff_getElem?.mpr ⟨k, ?_⟩, ?_⟩
    · rw [List.getElem?_zip_eq_some]
      exact ⟨List.getElem?_eq_getElem hlt, hk⟩
    · have hrequired : parameter.required = true := hiff.mpr ((hhas _).mp hown)
      have hsame := hschema k _ _ (List.getElem?_eq_getElem hlt) hk
      rw [← hlearned] at hsame
      cases parameter
      simp only at hlocation hrequired hsame ⊢
      rw [hsame, hlocation, hrequired]

/-- The parameters of an operation are those that a request has. -/
lemma mem_parameters (hne : group ≠ [])
    (hlength : ∀ exchange ∈ group, template.length = (segments exchange).length) :
    parameter ∈ ((operationOf template group).render template method).parameters ↔
      Stated template group parameter := by
  have hquery : parameter ∈ listParameters (operationOf template group) .query
      ((group.flatMap (pairsAt template .query)).foldl addParam []) ↔
        parameter.location = .query ∧ Stated template group parameter :=
    mem_listParameters fun exchange => (firsts_spec _ _).1
  have hheader : parameter ∈ listParameters (operationOf template group) .header
      ((group.flatMap (pairsAt template .header)).foldl addParam []) ↔
        parameter.location = .header ∧ Stated template group parameter :=
    mem_listParameters fun exchange => (firsts_spec _ _).1
  have hqueries : (operationOf template group).query =
      (group.flatMap (pairsAt template .query)).foldl addParam [] := by
    rw [operationOf_eq]
    rfl
  have hheaders : (operationOf template group).headers =
      (group.flatMap (pairsAt template .header)).foldl addParam [] := by
    rw [operationOf_eq]
    rfl
  rw [Operation.render]
  dsimp only
  rw [List.mem_append, List.mem_append, mem_pathParameters hne hlength, hqueries, hquery, hheaders,
    hheader]
  cases parameter.location <;> simp

end Parameters

/-! ## Descriptions -/

section Describing

variable [Foreign] [Decompressors] {template : Template} {group : List Exchange} {method : String}

/-- What an operation of the document says of the requests that it describes. -/
structure Describes (view : OperationView) (template : Template) (group : List Exchange) : Prop where
  observed : view.observedRequests = group.length
  path_fits : ∀ exchange ∈ group, fits template (segments exchange) = true
  parameters_differ :
    (view.parameters.map fun parameter => (parameter.location, parameter.name)).Nodup
  documented : ∀ (location : Location) (name : String),
    (∃ parameter ∈ view.parameters, parameter.location = location ∧ parameter.name = name) ↔
      ∃ exchange ∈ group, Has template location name exchange
  required : ∀ parameter ∈ view.parameters, parameter.required = true ↔
    ∀ exchange ∈ group, Has template parameter.location parameter.name exchange
  conforming : ∀ parameter ∈ view.parameters,
    (∀ exchange ∈ group, ∀ value,
      (parameter.name, value) ∈ pairsAt template parameter.location exchange →
        conformsText parameter.schema value = true) ↔
      ¬ Mixed (valuesOf (pairsAt template parameter.location) group parameter.name)
  request_bodies : ∀ exchange ∈ group, ∀ media body, requestSample exchange = some (media, body) →
    ∃ content required, view.requestBody = some (content, required) ∧ BodyFits content media body
  body_required : ∀ content required, view.requestBody = some (content, required) →
    (∃ exchange ∈ group, (requestSample exchange).isSome = true) ∧
      (required = true ↔ ∀ exchange ∈ group, (requestSample exchange).isSome = true)
  statuses : ∀ status, (∃ answer, (status, answer) ∈ view.responses) ↔
    ∃ response ∈ answersOf group, some response.status = status
  response_bodies : ∀ response ∈ answersOf group, ∀ media body,
    responseSample response = some (media, body) →
      ∃ answer content, (some response.status, answer) ∈ view.responses ∧
        answer.content = some content ∧ BodyFits content media body
  bearer : "bearerAuth" ∈ view.security ↔ ∃ exchange ∈ group, hasScheme "bearer" exchange = true
  basic : "basicAuth" ∈ view.security ↔ ∃ exchange ∈ group, hasScheme "basic" exchange = true

omit [Decompressors] in
lemma nodup_addParam (params : List (String × String)) :
    ((params.foldl addParam []).map Prod.fst).Nodup := by
  have hcollect : params.foldl addParam [] =
      collect Prod.fst (0, {}) (fun param entry => (entry.1 + 1, entry.2.add param.2)) params := rfl
  rw [hcollect, collect_eq, SortedMap.keys_tabulate]
  exact (SortedSet.ofList _).sorted.imp ne_of_lt

lemma parameters_differ : ((((operationOf template group).render template method).parameters.map
    fun parameter => (parameter.location, parameter.name))).Nodup := by
  have hlist : ∀ (location : Location) (params : List (String × ℕ × Scalar)),
      (listParameters (operationOf template group) location params).map
        (fun parameter => (parameter.location, parameter.name)) =
      (params.map Prod.fst).map fun name => (location, name) := by
    intro location params
    rw [listParameters, List.map_map, List.map_map]
    rfl
  have hpath : (pathParameters (operationOf template group) template).map
      (fun parameter => (parameter.location, parameter.name)) =
      (paramNames template).map fun name => (Location.path, name) := by
    rw [pathParameters, ← paramsOf, List.map_map]
    calc ((paramsOf template).zip (paramNames template)).map _
        = (((paramsOf template).zip (paramNames template)).map Prod.snd).map
            fun name => (Location.path, name) := by
          rw [List.map_map]
          rfl
      _ = _ := by rw [List.map_snd_zip (length_paramsOf template).ge]
  have hplace : ∀ (location : Location) {names : List String}, names.Nodup →
      (names.map fun name => (location, name)).Nodup := by
    intro location names hnames
    exact hnames.map fun name name' heq => (Prod.mk.inj heq).2
  have hapart : ∀ {location location' : Location} {names names' : List String},
      location ≠ location' → ∀ pair ∈ names.map (fun name => (location, name)),
        ∀ pair' ∈ names'.map (fun name => (location', name)), pair ≠ pair' := by
    intro location location' names names' hne pair hpair pair' hpair' heq
    obtain ⟨name, -, rfl⟩ := List.mem_map.mp hpair
    obtain ⟨name', -, rfl⟩ := List.mem_map.mp hpair'
    exact hne (Prod.mk.inj heq).1
  have hqueries : ((operationOf template group).query.map Prod.fst).Nodup := by
    rw [operationOf_eq]
    exact nodup_addParam _
  have hheaders : ((operationOf template group).headers.map Prod.fst).Nodup := by
    rw [operationOf_eq]
    exact nodup_addParam _
  rw [Operation.render]
  dsimp only
  rw [List.map_append, List.map_append, hpath, hlist, hlist, List.nodup_append, List.nodup_append]
  refine ⟨⟨hplace _ (paramNames_spec template).1, hplace _ hqueries, hapart (by decide)⟩,
    hplace _ hheaders, fun pair hpair => ?_⟩
  rcases List.mem_append.mp hpair with h | h
  · exact hapart (by decide) pair h
  · exact hapart (by decide) pair h

/-- The bodies of answers with one status. -/
lemma foldl_addResponse (responses : List ResponseRecord) :
    responses.foldl (fun entry response => addResponse response entry) ([], false) =
      (contentOf (responses.filterMap responseSample),
        responses.any fun response => (responseSample response).isSome) := by
  induction responses using List.reverseRecOn with
  | nil => rfl
  | append_singleton responses response ih =>
      rw [List.foldl_append, ih, List.filterMap_append, List.any_append]
      have hbody : ∀ body, sample response.headers response.body (mediaType response.headers) =
          body → responseSample response =
          body.map fun body => ((mediaType response.headers).getD OCTET_STREAM, body) := by
        rintro body rfl
        rfl
      rw [List.foldl_cons, List.foldl_nil, List.any_cons, List.any_nil, Bool.or_false,
        List.filterMap_cons, List.filterMap_nil, addResponse]
      dsimp only
      cases hcase : sample response.headers response.body (mediaType response.headers) with
      | none =>
          rw [hbody _ hcase]
          simp
      | some body =>
          rw [hbody _ hcase]
          simp [contentOf_snoc]

/-- The answers of an operation, by their status. -/
lemma mem_responses {status : ℕ} {entry : Content × Bool} :
    (status, entry) ∈ (operationOf template group).responses ↔
      status ∈ (answersOf group).map ResponseRecord.status ∧
        entry = (contentOf ((within ResponseRecord.status status (answersOf group)).filterMap
            responseSample),
          (within ResponseRecord.status status (answersOf group)).any fun response =>
            (responseSample response).isSome) := by
  rw [operationOf_eq]
  dsimp only
  rw [mem_collect, foldl_addResponse]

lemma mem_view_responses {status : Option ℕ} {answer : ResponseView} (hne : answersOf group ≠ []) :
    (status, answer) ∈ ((operationOf template group).render template method).responses ↔
      ∃ n entry, (n, entry) ∈ (operationOf template group).responses ∧ status = some n ∧
        answer = ⟨reasonText n, if entry.2 then some entry.1.render else none⟩ := by
  obtain ⟨first, hfirst⟩ := List.exists_mem_of_ne_nil _ hne
  have hsome : (operationOf template group).responses.isEmpty = false := by
    rw [List.isEmpty_eq_false_iff]
    exact List.ne_nil_of_mem (mem_responses.mpr ⟨List.mem_map_of_mem hfirst, rfl⟩)
  rw [Operation.render]
  dsimp only
  rw [hsome, if_neg Bool.false_ne_true, List.mem_map]
  constructor
  · rintro ⟨⟨n, content, hasBody⟩, hmem, heq⟩
    obtain ⟨hstatus, hanswer⟩ := Prod.mk.inj heq
    exact ⟨n, _, hmem, hstatus.symm, hanswer.symm⟩
  · rintro ⟨n, entry, hmem, rfl, rfl⟩
    exact ⟨_, hmem, rfl⟩

/-- The schemes of credentials that an operation has seen. -/
lemma mem_security {scheme : String} :
    scheme ∈ ((operationOf template group).render template method).security ↔
      scheme = "bearerAuth" ∧ (∃ exchange ∈ group, hasScheme "bearer" exchange = true) ∨
      scheme = "basicAuth" ∧ ∃ exchange ∈ group, hasScheme "basic" exchange = true := by
  rw [operationOf_eq, Operation.render, List.mem_append]
  simp only [← List.any_eq_true]
  cases group.any (hasScheme "bearer") <;> cases group.any (hasScheme "basic") <;> simp

/-- The operation of a group describes it, when every path fits and every request was answered. -/
lemma describes_operationOf
    (hread : ∀ data value, Foreign.readJson data = some value → Json.Distinct value)
    (hne : group ≠ []) (hfits : ∀ exchange ∈ group, fits template (segments exchange) = true)
    (hanswered : ∀ exchange ∈ group, exchange.response.isSome = true) (method : String) :
    Describes ((operationOf template group).render template method) template group := by
  have hlength : ∀ exchange ∈ group, template.length = (segments exchange).length :=
    fun exchange h => (fits_iff.mp (hfits exchange h)).1
  have hparams : ∀ parameter, parameter ∈
      ((operationOf template group).render template method).parameters ↔
        Stated template group parameter := fun parameter => mem_parameters hne hlength
  have hanswers : answersOf group ≠ [] := by
    obtain ⟨first, hfirst⟩ := List.exists_mem_of_ne_nil _ hne
    obtain ⟨response, hresponse⟩ := Option.isSome_iff_exists.mp (hanswered first hfirst)
    exact List.ne_nil_of_mem (List.mem_filterMap.mpr ⟨first, hfirst, hresponse⟩)
  have hrequests : ∀ media body, (media, body) ∈ group.filterMap requestSample →
      Sound media body := by
    intro media body hmem
    obtain ⟨exchange, -, hsample⟩ := List.mem_filterMap.mp hmem
    obtain ⟨body', hbody', heq⟩ := Option.map_eq_some_iff.mp hsample
    obtain ⟨rfl, rfl⟩ := Prod.mk.inj heq
    exact sound_of_sample hread hbody'
  have hresponses : ∀ media body responses, (media, body) ∈
      List.filterMap responseSample responses → Sound media body := by
    intro media body responses hmem
    obtain ⟨response, -, hsample⟩ := List.mem_filterMap.mp hmem
    obtain ⟨body', hbody', heq⟩ := Option.map_eq_some_iff.mp hsample
    obtain ⟨rfl, rfl⟩ := Prod.mk.inj heq
    exact sound_of_sample hread hbody'
  have hbody : ((operationOf template group).render template method).requestBody =
      if 0 < (group.filterMap requestSample).length then
        some ((contentOf (group.filterMap requestSample)).render,
          decide ((group.filterMap requestSample).length = group.length))
      else none := by
    rw [operationOf_eq]
    rfl
  refine ⟨?_, hfits, parameters_differ, ?_, ?_, ?_, ?_, ?_, ?_, ?_, ?_, ?_⟩
  · rw [operationOf_eq]
    rfl
  · intro location name
    constructor
    · rintro ⟨parameter, hparameter, rfl, rfl⟩
      exact ((hparams parameter).mp hparameter).1
    · intro hhas
      classical
      exact ⟨⟨name, location, decide (∀ exchange ∈ group, Has template location name exchange),
        (learnedScalar (valuesOf (pairsAt template location) group name)).schema⟩, (hparams _).mpr ⟨hhas, decide_eq_true_iff, rfl⟩, rfl, rfl⟩
  · intro parameter hparameter
    exact ((hparams parameter).mp hparameter).2.1
  · intro parameter hparameter
    obtain ⟨⟨exchange, hexchange, hhas⟩, -, hschema⟩ := (hparams parameter).mp hparameter
    obtain ⟨⟨name, value⟩, hpair, hname⟩ := List.mem_map.mp hhas
    obtain rfl : name = parameter.name := hname
    rw [hschema, ← scalar_conforms_iff
      (List.ne_nil_of_mem (mem_valuesOf.mpr ⟨exchange, hexchange, hpair⟩))]
    constructor
    · intro h value' hvalue'
      obtain ⟨exchange', hexchange', hpair'⟩ := mem_valuesOf.mp hvalue'
      exact h exchange' hexchange' value' hpair'
    · intro h exchange' hexchange' value' hpair'
      exact h value' (mem_valuesOf.mpr ⟨exchange', hexchange', hpair'⟩)
  · intro exchange hexchange media body hsample
    have hmem : (media, body) ∈ group.filterMap requestSample :=
      List.mem_filterMap.mpr ⟨exchange, hexchange, hsample⟩
    rw [hbody, if_pos (List.length_pos_of_mem hmem)]
    exact ⟨_, _, rfl, bodyFits_contentOf hrequests hmem⟩
  · intro content required hsome
    rw [hbody] at hsome
    by_cases hpos : 0 < (group.filterMap requestSample).length
    · rw [if_pos hpos] at hsome
      obtain ⟨-, rfl⟩ := Prod.mk.inj (Option.some.inj hsome)
      constructor
      · obtain ⟨body, hmem⟩ := List.exists_mem_of_length_pos hpos
        obtain ⟨exchange, hexchange, hsample⟩ := List.mem_filterMap.mp hmem
        exact ⟨exchange, hexchange, Option.isSome_iff_exists.mpr ⟨body, hsample⟩⟩
      · rw [decide_eq_true_iff, List.length_filterMap_eq_countP, List.countP_eq_length]
    · rw [if_neg hpos] at hsome
      cases hsome
  · intro status
    constructor
    · rintro ⟨answer, hanswer⟩
      obtain ⟨n, entry, hentry, rfl, -⟩ := (mem_view_responses hanswers).mp hanswer
      obtain ⟨response, hresponse, rfl⟩ := List.mem_map.mp (mem_responses.mp hentry).1
      exact ⟨response, hresponse, rfl⟩
    · rintro ⟨response, hresponse, rfl⟩
      exact ⟨_, (mem_view_responses hanswers).mpr
        ⟨_, _, mem_responses.mpr ⟨List.mem_map_of_mem hresponse, rfl⟩, rfl, rfl⟩⟩
  · intro response hresponse media body hsample
    have hwithin := mem_within.mpr ⟨hresponse, Eq.refl response.status⟩
    have hmem := List.mem_filterMap.mpr ⟨response, hwithin, hsample⟩
    refine ⟨_, _, (mem_view_responses hanswers).mpr
      ⟨_, _, mem_responses.mpr ⟨List.mem_map_of_mem hresponse, rfl⟩, rfl, rfl⟩, if_pos ?_,
      bodyFits_contentOf (fun media body h => hresponses media body _ h) hmem⟩
    exact List.any_eq_true.mpr ⟨response, hwithin, Option.isSome_iff_exists.mpr ⟨_, hsample⟩⟩
  · rw [mem_security]
    simp
  · rw [mem_security]
    simp

end Describing

/-! ## Groups -/

section Grouping

variable [Foreign] [Decompressors] {exchanges : List Exchange} {options : Options}
  {exchange : Exchange} {key : OperationKey} {operation : Operation}

/-- The requests that an operation describes. -/
def groupOf (exchanges : List Exchange) (options : Options) (key : OperationKey) : List Exchange :=
  (used exchanges options).filter fun exchange =>
    find (templatesOf exchanges options) (segments exchange) = some (ofLex key).1 &&
      methodOf exchange = (ofLex key).2

/-- The operation that a request belongs to. -/
def keyOf (exchanges : List Exchange) (options : Options) (exchange : Exchange) : OperationKey :=
  toLex ((find (templatesOf exchanges options) (segments exchange)).getD [], methodOf exchange)

omit [Decompressors] in
/-- Every request that is used has a template, which its path fits. -/
lemma find_of_used (h : exchange ∈ used exchanges options) :
    find (templatesOf exchanges options) (segments exchange) =
        some (ofLex (keyOf exchanges options exchange)).1 ∧
      fits (ofLex (keyOf exchanges options exchange)).1 (segments exchange) = true := by
  obtain ⟨template, -, hfind, hfits, -⟩ := find_learn (List.mem_map_of_mem (f := segments) h)
  have hkey : (ofLex (keyOf exchanges options exchange)).1 = template := by
    rw [keyOf, templatesOf, hfind]
    rfl
  rw [hkey]
  exact ⟨hfind, hfits⟩

omit [Decompressors] in
lemma groupOf_eq (exchanges : List Exchange) (options : Options) (key : OperationKey) :
    groupOf exchanges options key =
      within (keyOf exchanges options) key (used exchanges options) := by
  rw [groupOf, within]
  refine List.filter_congr fun exchange hexchange => ?_
  rw [(find_of_used hexchange).1, ← Bool.decide_and, decide_eq_decide, Option.some.injEq]
  constructor
  · rintro ⟨htemplate, hmethod⟩
    exact congrArg toLex (Prod.ext htemplate hmethod)
  · rintro rfl
    exact ⟨rfl, rfl⟩

omit [Decompressors] in
lemma mem_groupOf : exchange ∈ groupOf exchanges options key ↔
    exchange ∈ used exchanges options ∧ keyOf exchanges options exchange = key := by
  rw [groupOf_eq, mem_within]

/-- The operations are those of the groups. -/
lemma operationsOf_eq (exchanges : List Exchange) (options : Options) :
    operationsOf exchanges options = SortedMap.tabulate
      (.ofList ((used exchanges options).map (keyOf exchanges options))) fun key =>
        operationOf (ofLex key).1 (groupOf exchanges options key) := by
  have hcollect : operationsOf exchanges options = collect (keyOf exchanges options) {}
      (fun exchange operation => operation.add exchange (segments exchange)
        (ofLex (keyOf exchanges options exchange)).1) (used exchanges options) := by
    rw [operationsOf, collect]
    refine List.foldl_ext _ _ _ fun operations exchange hexchange => ?_
    rw [addExchange, (find_of_used hexchange).1]
    have hkey : toLex ((ofLex (keyOf exchanges options exchange)).1, methodOf exchange) =
        keyOf exchanges options exchange := rfl
    dsimp only
    rw [hkey]
  rw [hcollect, collect_eq]
  refine SortedMap.tabulate_congr fun key _ => ?_
  rw [groupOf_eq, operationOf]
  refine List.foldl_ext _ _ _ fun operation exchange hexchange => ?_
  rw [(mem_within.mp hexchange).2]

lemma mem_operationsOf : (key, operation) ∈ operationsOf exchanges options ↔
    groupOf exchanges options key ≠ [] ∧
      operation = operationOf (ofLex key).1 (groupOf exchanges options key) := by
  rw [operationsOf_eq, SortedMap.mem_tabulate, SortedSet.mem_ofList, groupOf_eq,
    SortedMap.within_ne_nil]

omit [Foreign] [Decompressors] in
lemma answered_of_used (h : exchange ∈ used exchanges options) :
    exchange.response.isSome = true := by
  have husable := (List.mem_filter.mp h).2
  rw [usable] at husable
  cases hresponse : exchange.response with
  | some response => rfl
  | none =>
      rw [hresponse] at husable
      simp at husable

/-- The operations count every request once. -/
lemma sum_counts (exchanges : List Exchange) (options : Options) :
    ((operationsOf exchanges options).map fun entry => entry.2.count).sum =
      (used exchanges options).length := by
  have hcount : ∀ key, (operationOf (ofLex key).1 (groupOf exchanges options key)).count =
      ((within (keyOf exchanges options) key (used exchanges options)).map fun _ => 1).sum := by
    intro key
    rw [operationOf_eq, groupOf_eq, List.map_const', List.sum_replicate, nsmul_one]
    rfl
  have hlength : ((used exchanges options).map fun _ => 1).sum =
      (used exchanges options).length := by
    rw [List.map_const', List.sum_replicate, nsmul_one]
    rfl
  rw [operationsOf_eq, SortedMap.tabulate, List.map_map, ← hlength,
    ← SortedMap.sum_within (keyOf exchanges options)]
  exact congrArg List.sum (List.map_congr_left fun key _ => hcount key)

/-- Every request that describes the API belongs to the group of exactly one operation.  Of its group
an operation says that the paths fit the template, which parameters, bodies, answers and credentials
the requests had and which of them all requests had; the bodies conform to their schemas, and so do
the values of each parameter unless texts with a format stand beside other values. -/
theorem operations_describe
    (hread : ∀ data value, Foreign.readJson data = some value → Json.Distinct value)
    (exchanges : List Exchange) (options : Options) :
    ((operationsOf exchanges options).map Prod.fst).Nodup ∧
      (∀ exchange ∈ used exchanges options,
        ∃! key, key ∈ (operationsOf exchanges options).map Prod.fst ∧
          exchange ∈ groupOf exchanges options key) ∧
      (∀ key operation, (key, operation) ∈ operationsOf exchanges options →
        groupOf exchanges options key ≠ [] ∧
          Describes (operation.render (ofLex key).1 (ofLex key).2) (ofLex key).1
            (groupOf exchanges options key)) ∧
      ((operationsOf exchanges options).map fun entry => entry.2.count).sum =
        (used exchanges options).length := by
  refine ⟨?_, fun exchange hexchange => ?_, fun key operation hmem => ?_, ?_⟩
  · rw [operationsOf_eq, SortedMap.keys_tabulate]
    exact (SortedSet.ofList _).sorted.imp ne_of_lt
  · refine ⟨keyOf exchanges options exchange, ⟨?_, mem_groupOf.mpr ⟨hexchange, rfl⟩⟩, ?_⟩
    · rw [operationsOf_eq, SortedMap.keys_tabulate, SortedSet.mem_toList, SortedSet.mem_ofList]
      exact List.mem_map_of_mem hexchange
    · rintro key ⟨-, hkey⟩
      exact (mem_groupOf.mp hkey).2.symm
  · obtain ⟨hne, rfl⟩ := mem_operationsOf.mp hmem
    refine ⟨hne, describes_operationOf hread hne (fun exchange hexchange => ?_)
      (fun exchange hexchange => answered_of_used (mem_groupOf.mp hexchange).1) _⟩
    obtain ⟨hused, rfl⟩ := mem_groupOf.mp hexchange
    exact (find_of_used hused).2
  · exact sum_counts exchanges options

end Grouping

/-! Two requests for users, the second of which was answered in JSON. -/

/-- A reader of one text, and of numbers without a sign. -/
@[reducible] def userForeign : Foreign where
  readJson data := if data = [123, 34, 105, 100, 34, 58, 55, 125] then some (.obj [("id", .num 7)])
    else none
  isFinite value := value ≠ "" && value.toList.all isAsciiDigit
  reason status := if status = 200 then some "OK" else none
  lossy data := String.ofList (data.map fun byte => Char.ofNat byte.toNat)

@[reducible] def userDecompressors : Decompressors where
  gunzip _ := ([], false)
  zlib _ := ([], false)
  inflate _ := ([], false)
  brotli _ := ([], false)

def getUser (id : ℕ) (path : String) (body : List UInt8) : Exchange where
  id := id
  seq := id
  tap := "tap"
  request := { method := "GET", uri := ⟨path, none⟩, scheme := "https", host := "app.example.com"
               headers := ⟨[]⟩ }
  response := some { status := 200
                     headers := ⟨[("content-type", .text ⟨"application/json", by decide⟩)]⟩
                     body := { data := body, size := body.length, complete := true } }
  responder := .upstream

theorem operations_describe_users :
    let _ := userForeign
    let _ := userDecompressors
    let exchanges := [getUser 1 "/users/8" [],
      getUser 2 "/users/7" [123, 34, 105, 100, 34, 58, 55, 125]]
    ((operationsOf exchanges {}).map Prod.fst).Nodup ∧
      (∀ exchange ∈ used exchanges {},
        ∃! key, key ∈ (operationsOf exchanges {}).map Prod.fst ∧
          exchange ∈ groupOf exchanges {} key) ∧
      (∀ key operation, (key, operation) ∈ operationsOf exchanges {} →
        groupOf exchanges {} key ≠ [] ∧
          Describes (operation.render (ofLex key).1 (ofLex key).2) (ofLex key).1
            (groupOf exchanges {} key)) ∧
      ((operationsOf exchanges {}).map fun entry => entry.2.count).sum =
        (used exchanges {}).length := by
  intro _ _ exchanges
  refine operations_describe (fun data value h => ?_) exchanges {}
  have hread : (if data = [123, 34, 105, 100, 34, 58, 55, 125] then some (Json.obj [("id", .num 7)])
    else none) = some value := h
  split_ifs at hread with hdata
  rw [← Option.some.inj hread]
  exact .obj (List.nodup_singleton _) fun field hfield => by
    rw [List.mem_singleton.mp hfield]
    exact .num 7

/-! ## The document -/

section Documents

variable [Foreign] {operations : List (OperationKey × Operation)}

/-- No two operations with one method are written alike. -/
def WrittenApart (keys : List OperationKey) : Prop :=
  ∀ key ∈ keys, ∀ key' ∈ keys, (ofLex key).2 = (ofLex key').2 →
    render (ofLex key).1 = render (ofLex key').1 → key = key'

/-- An operation as it is written under its path. -/
def viewOf (entry : OperationKey × Operation) : OperationView :=
  entry.2.render (ofLex entry.1).1 (ofLex entry.1).2

/-- How the path of an operation is written. -/
def writtenOf (entry : OperationKey × Operation) : String := render (ofLex entry.1).1

/-- The paths, each with the last of the operations of a method that are written alike. -/
lemma pathsOf_eq (operations : List (OperationKey × Operation)) :
    pathsOf operations = SortedMap.tabulate (.ofList (operations.map writtenOf)) fun path =>
      SortedMap.lasts (fun entry => (ofLex entry.1).2) viewOf (within writtenOf path operations) := by
  have hcollect : pathsOf operations = collect writtenOf [] (fun entry item =>
      SortedMap.entry (ofLex entry.1).2 (viewOf entry) (fun _ => viewOf entry) item) operations := rfl
  rw [hcollect, collect_eq]
  rfl

omit [Foreign] in
/-- The methods of one path are different exactly when no two operations are written alike. -/
lemma writtenApart_iff (hkeys : (operations.map Prod.fst).Nodup) :
    WrittenApart (operations.map Prod.fst) ↔ ∀ path,
      ((within writtenOf path operations).map fun entry => (ofLex entry.1).2).Nodup := by
  have hnodup : operations.Nodup := hkeys.of_map Prod.fst
  have hinj := List.inj_on_of_nodup_map hkeys
  constructor
  · intro hapart path
    refine (List.nodup_map_iff_inj_on (hnodup.filter _)).mpr fun entry hentry entry' hentry' heq => ?_
    obtain ⟨hmem, hpath⟩ := mem_within.mp hentry
    obtain ⟨hmem', hpath'⟩ := mem_within.mp hentry'
    exact hinj hmem hmem' (hapart _ (List.mem_map_of_mem hmem) _ (List.mem_map_of_mem hmem') heq
      (hpath.trans hpath'.symm))
  · intro hall key hkey key' hkey' hmethod hwritten
    obtain ⟨entry, hentry, rfl⟩ := List.mem_map.mp hkey
    obtain ⟨entry', hentry', rfl⟩ := List.mem_map.mp hkey'
    have hinj' := List.inj_on_of_nodup_map (hall (writtenOf entry))
    rw [hinj' (mem_within.mpr ⟨hentry, rfl⟩) (mem_within.mpr ⟨hentry', hwritten.symm⟩) hmethod]

/-- The operations that a document has count all requests exactly when none takes the place of
another. -/
lemma sum_pathsOf (hkeys : (operations.map Prod.fst).Nodup)
    (hpos : ∀ entry ∈ operations, 0 < entry.2.count) :
    (((pathsOf operations).flatMap Prod.snd).map fun entry => entry.2.observedRequests).sum =
        (operations.map fun entry => entry.2.count).sum ↔
      WrittenApart (operations.map Prod.fst) := by
  have hlasts : ∀ path, _ := fun path => SortedMap.sum_lasts (fun entry => (ofLex entry.1).2) viewOf
    OperationView.observedRequests (l := within writtenOf path operations)
    fun entry hentry => hpos entry (mem_within.mp hentry).1
  have hcount : ∀ entry : OperationKey × Operation,
      (viewOf entry).observedRequests = entry.2.count := fun entry => rfl
  simp only [hcount] at hlasts
  have hnested : (((pathsOf operations).flatMap Prod.snd).map fun entry =>
      entry.2.observedRequests).sum =
      ((SortedSet.ofList (operations.map writtenOf)).toList.map fun path =>
        ((SortedMap.lasts (fun entry => (ofLex entry.1).2) viewOf
          (within writtenOf path operations)).map fun entry => entry.2.observedRequests).sum).sum := by
    rw [pathsOf_eq, SortedMap.tabulate, List.flatMap_def, List.map_flatten, List.sum_flatten,
      List.map_map, List.map_map, List.map_map]
    rfl
  rw [hnested, ← SortedMap.sum_within writtenOf,
    SortedMap.sum_eq_sum_iff fun path _ => (hlasts path).1, writtenApart_iff hkeys]
  constructor
  · intro hall path
    by_cases hpath : path ∈ operations.map writtenOf
    · refine (hlasts path).2.mp (hall path ?_)
      rw [SortedSet.mem_toList, SortedSet.mem_ofList]
      exact hpath
    · have hnil : within writtenOf path operations = [] := by
        by_contra hne
        exact hpath (SortedMap.within_ne_nil.mp hne)
      rw [hnil]
      exact List.nodup_nil
  · intro hall path _
    exact (hlasts path).2.mpr (hall path)

/-- When no two operations are written alike each of them is in the document. -/
lemma mem_pathsOf (hkeys : (operations.map Prod.fst).Nodup)
    (hapart : WrittenApart (operations.map Prod.fst)) {entry : OperationKey × Operation}
    (h : entry ∈ operations) : ∃ item, (writtenOf entry, item) ∈ pathsOf operations ∧
      ((ofLex entry.1).2, viewOf entry) ∈ item := by
  have hmem := mem_within.mpr ⟨h, Eq.refl (writtenOf entry)⟩
  have hone := SortedMap.within_eq_singleton ((writtenApart_iff hkeys).mp hapart _) hmem
  refine ⟨SortedMap.lasts (fun entry => (ofLex entry.1).2) viewOf
    (within writtenOf (writtenOf entry) operations), ?_, ?_⟩
  · rw [pathsOf_eq, SortedMap.mem_tabulate, SortedSet.mem_ofList]
    exact ⟨List.mem_map_of_mem h, rfl⟩
  · rw [SortedMap.lasts_eq _ _ (viewOf entry), SortedMap.mem_tabulate, SortedSet.mem_ofList, hone]
    exact ⟨List.mem_map_of_mem hmem, rfl⟩

variable [Decompressors]

/-- The templates of requests have the literal texts of their paths. -/
lemma plain_templates {exchanges : List Exchange} {options : Options}
    (hplain : ∀ exchange ∈ used exchanges options, ∀ s ∈ segments exchange, Plain s)
    {key : OperationKey} (h : key ∈ (operationsOf exchanges options).map Prod.fst) {text : String}
    (htext : .static text ∈ (ofLex key).1) : Plain text := by
  rw [operationsOf_eq, SortedMap.keys_tabulate, SortedSet.mem_toList, SortedSet.mem_ofList] at h
  obtain ⟨exchange, hexchange, rfl⟩ := List.mem_map.mp h
  obtain ⟨template, hlearned, hfind, -, -⟩ := find_learn (List.mem_map_of_mem (f := segments) hexchange)
  have hkey : (ofLex (keyOf exchanges options exchange)).1 = template := by
    rw [keyOf, templatesOf, hfind]
    rfl
  rw [hkey] at htext
  obtain ⟨path, hpath, rfl⟩ := mem_learn.mp hlearned
  obtain ⟨source, hsource, rfl⟩ := List.mem_map.mp hpath
  obtain ⟨i, hi⟩ := List.mem_iff_getElem?.mp htext
  exact hplain source hsource text (List.mem_of_getElem? (getElem?_templateOf.mp hi).1)

/-- The operations of the document count all requests that it was inferred from exactly when no two
operations with one method are written alike; then each of them is in the document.  None are when
the segments of the paths that were used have neither slashes nor braces. -/
theorem document_complete (exchanges : List Exchange) (options : Options) :
    let document := (infer exchanges options).1
    let keys := (operationsOf exchanges options).map Prod.fst
    (((document.paths.flatMap Prod.snd).map fun entry => entry.2.observedRequests).sum =
        document.observed ↔ WrittenApart keys) ∧
      (WrittenApart keys → ∀ key operation, (key, operation) ∈ operationsOf exchanges options →
        ∃ item, (render (ofLex key).1, item) ∈ document.paths ∧
          ((ofLex key).2, operation.render (ofLex key).1 (ofLex key).2) ∈ item) ∧
      ((∀ exchange ∈ used exchanges options, ∀ s ∈ segments exchange, Plain s) →
        WrittenApart keys) := by
  intro document keys
  have hkeys : keys.Nodup := by
    have hset : keys = _ := congrArg (List.map Prod.fst) (operationsOf_eq exchanges options)
    rw [hset, SortedMap.keys_tabulate]
    exact (SortedSet.ofList _).sorted.imp ne_of_lt
  refine ⟨?_, fun hapart key operation hmem => mem_pathsOf hkeys hapart hmem, ?_⟩
  · have hpos : ∀ entry ∈ operationsOf exchanges options, 0 < entry.2.count := by
      rintro ⟨key, operation⟩ hmem
      obtain ⟨hne, rfl⟩ := mem_operationsOf.mp hmem
      rw [operationOf_eq]
      exact List.length_pos_iff.mpr hne
    rw [← sum_pathsOf hkeys hpos, sum_counts]
    rfl
  · intro hplain key hkey key' hkey' hmethod hwritten
    have htemplates := render_injective (fun text => plain_templates hplain hkey)
      (fun text => plain_templates hplain hkey') hwritten
    exact ofLex.injective (Prod.ext htemplates hmethod)

end Documents

end Teitunnel.OpenApi
