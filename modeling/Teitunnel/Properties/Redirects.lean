import Teitunnel.Mcp.Redirects

/-!
# Where a redirect goes

The relaxed comparison looks at scheme, host, path and query.  What the parser forgets, a fragment
and credentials, it can't see: these are the texts on which it says more than it should
(`redirects_iff`), and with a fragment the answer is put behind it.
-/

namespace Teitunnel.Mcp

open Text

variable (c : UriCodec)

/-! ## The relaxed comparison -/

/-- Credentials in the authority. -/
def HasUserinfo (uri : String) : Prop :=
  ∃ parsed, c.parse uri = some parsed ∧ parsed.authority.any (fun a => '@' ∈ a.toList) = true

def HasFragment (uri : String) : Prop := '#' ∈ uri.toList

instance (uri : String) : Decidable (HasFragment uri) := inferInstanceAs (Decidable (_ ∈ _))

/-- Two URIs of which neither has credentials or a fragment, and that agree but for the port. -/
structure DifferInPort (uri uri' : String) : Prop where
  plain : ¬ HasUserinfo c uri ∧ ¬ HasFragment uri
  plain' : ¬ HasUserinfo c uri' ∧ ¬ HasFragment uri'
  agree : ∃ parsed parsed', c.parse uri = some parsed ∧ c.parse uri' = some parsed' ∧
    parsed.scheme = parsed'.scheme ∧ parsed.host = parsed'.host ∧
    parsed.pathAndQuery = parsed'.pathAndQuery

/-- A plain HTTP URI of a loopback host. -/
def IsLoopback (uri : String) : Prop :=
  ∃ parsed, c.parse uri = some parsed ∧ parsed.scheme = some "http" ∧
    parsed.host.any loopbackHost

/-- What the relaxed comparison finds: an HTTP URI of a loopback host with the host, path and query
of a registered one. -/
def Resembles (registered : List String) (asked : String) : Prop :=
  ∃ parsed, c.parse asked = some parsed ∧ parsed.scheme = some "http" ∧
    parsed.host.any loopbackHost ∧ ∃ r ∈ registered, ∃ parsed', c.parse r = some parsed' ∧
      parsed'.scheme = some "http" ∧ parsed'.host = parsed.host ∧
      parsed'.pathAndQuery = parsed.pathAndQuery

variable {c}

lemma redirectMatches_iff {registered : List String} {asked : String} :
    redirectMatches c registered asked = true ↔ asked ∈ registered ∨ Resembles c registered asked := by
  rw [redirectMatches]
  by_cases hmem : asked ∈ registered
  · rw [if_pos (by simpa using hmem)]
    simp [hmem]
  · rw [if_neg (by simpa using hmem), Resembles]
    cases hparse : c.parse asked with
    | none => simp [hmem]
    | some parsed =>
        by_cases hscheme : parsed.scheme = some "http"
        · by_cases hhost : parsed.host.any loopbackHost = true
          · simp only [hscheme, hhost, ne_eq, not_true, decide_false, Bool.false_or, Bool.not_true,
              Bool.false_eq_true, if_false, hmem, false_or, Option.some.injEq, exists_eq_left',
              true_and]
            simp only [List.any_eq_true, Option.any_eq_true, Bool.and_eq_true, decide_eq_true_eq,
              and_assoc]
          · simp [hscheme, hhost, hmem]
        · simp [hscheme, hmem]

/-- What may be registered has no fragment and no credentials. -/
lemma plain_of_allowed {uri : String} (h : redirectAllowed c uri = true) :
    ¬ HasUserinfo c uri ∧ ¬ HasFragment uri := by
  rw [redirectAllowed] at h
  cases hparse : c.parse uri with
  | none => simp [hparse] at h
  | some parsed =>
      rw [hparse] at h
      simp only at h
      cases hhost : parsed.host with
      | none => simp [hhost] at h
      | some host =>
          rw [hhost] at h
          simp only at h
          split_ifs at h with hmarks
          · obtain ⟨hfragment, huserinfo⟩ := not_or.mp hmarks
            constructor
            · rintro ⟨parsed', hparsed', hany⟩
              rw [hparse] at hparsed'
              obtain rfl := Option.some.inj hparsed'
              exact huserinfo hany
            · exact hfragment

/-- A registered URI that the asked one resembles differs from it in the port, if the asked one has no
credentials and no fragment. -/
lemma resembles_plain {registered : List String} {asked : String}
    (h : ∀ r ∈ registered, redirectAllowed c r = true)
    (hplain : ¬ HasUserinfo c asked ∧ ¬ HasFragment asked) :
    Resembles c registered asked ↔
      IsLoopback c asked ∧ ∃ r ∈ registered, DifferInPort c asked r := by
  constructor
  · rintro ⟨parsed, hparse, hscheme, hhost, r, hr, parsed', hparse', hscheme', hhost', hpath⟩
    refine ⟨⟨parsed, hparse, hscheme, hhost⟩, r, hr, hplain, plain_of_allowed (h r hr), ?_⟩
    exact ⟨parsed, parsed', hparse, hparse', hscheme.trans hscheme'.symm, hhost'.symm, hpath.symm⟩
  · rintro ⟨⟨parsed, hparse, hscheme, hhost⟩, r, hr, -, -, found, parsed', hfound, hparse',
      hschemes, hhosts, hpaths⟩
    rw [hparse] at hfound
    obtain rfl := Option.some.inj hfound
    exact ⟨parsed, hparse, hscheme, hhost, r, hr, parsed', hparse', hschemes.symm.trans hscheme,
      hhosts.symm, hpaths.symm⟩

/-! ## The answer in the query -/

/-- The text before the first `sep`, and what follows it. -/
def cut (sep : Char) (text : List Char) : List Char × Option (List Char) :=
  match splitFirst (· == sep) text with
  | some (front, rest) => (front, some rest)
  | none => (text, none)

/-- A URI's scheme, authority and path, its query and its fragment. -/
structure Parts where
  place : List Char
  query : Option (List Char)
  fragment : Option (List Char)
  deriving DecidableEq

/-- The fragment begins at the first `#`, the query at the first `?` before. -/
def parts (uri : String) : Parts :=
  let (front, fragment) := cut '#' uri.toList
  let (place, query) := cut '?' front
  ⟨place, query, fragment⟩

/-- The URI with the pairs at the end of its query, and otherwise the same. -/
def Appended (c : UriCodec) (uri : String) (pairs : List (String × String)) : Prop :=
  parts (withQuery c uri pairs) =
    { parts uri with
      query := some (match (parts uri).query with
        | some query => query ++ '&' :: (c.serialize pairs).toList
        | none => (c.serialize pairs).toList) }

lemma cut_of_notMem {sep : Char} {text : List Char} (h : sep ∉ text) (more : List Char) :
    cut sep (text ++ more) = (text ++ (cut sep more).1, (cut sep more).2) := by
  induction text with
  | nil => rfl
  | cons a text ih =>
      have hne : (a == sep) = false :=
        beq_eq_false_iff_ne.mpr fun heq => h (heq ▸ List.mem_cons_self)
      have hrest := ih fun hmem => h (List.mem_cons_of_mem a hmem)
      rw [cut] at hrest ⊢
      rw [List.cons_append, splitFirst, hne]
      cases hsplit : splitFirst (· == sep) (text ++ more) with
      | none =>
          rw [hsplit] at hrest
          simpa using hrest
      | some found =>
          rw [hsplit] at hrest
          simpa using hrest

lemma cut_of_mem {sep : Char} {text : List Char} (h : sep ∈ text) (more : List Char) :
    ∃ front rest, cut sep text = (front, some rest) ∧
      cut sep (text ++ more) = (front, some (rest ++ more)) := by
  obtain ⟨front, rest, rfl, hfront⟩ := List.eq_append_cons_of_mem h
  have hsep : cut sep (sep :: rest) = ([], some rest) := by simp [cut, splitFirst]
  have hsep' : cut sep (sep :: (rest ++ more)) = ([], some (rest ++ more)) := by
    simp [cut, splitFirst]
  refine ⟨front, rest, ?_, ?_⟩
  · rw [cut_of_notMem hfront, hsep, List.append_nil]
  · rw [List.append_assoc, List.cons_append, cut_of_notMem hfront, hsep', List.append_nil]

lemma cut_self {sep : Char} {text : List Char} (h : sep ∉ text) : cut sep text = (text, none) := by
  have hcut := cut_of_notMem h []
  rwa [List.append_nil, show cut sep [] = ([], none) from rfl, List.append_nil] at hcut

lemma toList_withQuery (uri : String) (pairs : List (String × String)) :
    (withQuery c uri pairs).toList = uri.toList ++
      (if '?' ∈ uri.toList then '&' else '?') :: (c.serialize pairs).toList := by
  rw [withQuery, String.toList_append, String.toList_append, List.append_assoc]
  split_ifs <;> rfl

/-- Without a fragment the pairs come to the end of the query. -/
lemma appended_of_plain {uri : String} (h : ¬ HasFragment uri) (pairs : List (String × String)) :
    Appended c uri pairs := by
  have hnone : '#' ∉ (withQuery c uri pairs).toList := by
    rw [toList_withQuery, List.mem_append, List.mem_cons, not_or, not_or]
    refine ⟨h, ?_, c.serialize_plain pairs⟩
    split_ifs <;> decide
  rw [Appended, parts, parts, cut_self hnone, cut_self h, toList_withQuery]
  by_cases hquery : '?' ∈ uri.toList
  · obtain ⟨front, rest, hcut, hmore⟩ := cut_of_mem hquery ('&' :: (c.serialize pairs).toList)
    rw [if_pos hquery]
    simp only [hcut, hmore]
  · have hcut : cut '?' ('?' :: (c.serialize pairs).toList) =
        ([], some (c.serialize pairs).toList) := by simp [cut, splitFirst]
    rw [if_neg hquery]
    simp only [cut_of_notMem hquery, hcut, cut_self hquery, List.append_nil]

/-- With a fragment they come to the end of that. -/
lemma not_appended {uri : String} (h : HasFragment uri) (pairs : List (String × String)) :
    ¬ Appended c uri pairs := by
  intro happended
  obtain ⟨front, rest, hcut, hmore⟩ := cut_of_mem h
    ((if '?' ∈ uri.toList then '&' else '?') :: (c.serialize pairs).toList)
  rw [Appended, parts, parts, toList_withQuery, hcut, hmore] at happended
  have hquery := congrArg Parts.query happended
  cases hfound : (cut '?' front).2 with
  | none =>
      simp only [hfound] at hquery
      exact absurd hquery (by simp)
  | some query =>
      simp only [hfound, Option.some.injEq] at hquery
      have hlength := congrArg List.length hquery
      rw [List.length_append, List.length_cons] at hlength
      omega

/-! ## Redirects -/

/-- A redirect goes to a registered URI, or to a plain HTTP URI of a loopback host that differs from
a registered one in the port, and the answer is put at the end of its query. -/
structure GoesHome (c : UriCodec) (registered : List String) (asked : String) : Prop where
  accepts : redirectMatches c registered asked = true ↔
    asked ∈ registered ∨ IsLoopback c asked ∧ ∃ r ∈ registered, DifferInPort c asked r
  answers : redirectMatches c registered asked = true → ∀ pairs, Appended c asked pairs

/-- A redirect goes where it should unless the URI isn't registered, resembles one that is, and has
credentials or a fragment. -/
theorem goesHome_iff (c : UriCodec) (registered : List String) (asked : String)
    (h : ∀ r ∈ registered, redirectAllowed c r = true) :
    GoesHome c registered asked ↔
      ¬ (asked ∉ registered ∧ Resembles c registered asked ∧
        (HasUserinfo c asked ∨ HasFragment asked)) := by
  constructor
  · rintro ⟨haccepts, -⟩ ⟨hnew, hresembles, hmarks⟩
    rcases haccepts.mp (redirectMatches_iff.mpr (.inr hresembles)) with hmem | ⟨-, r, -, hdiffer⟩
    · exact hnew hmem
    · rcases hmarks with huserinfo | hfragment
      · exact hdiffer.plain.1 huserinfo
      · exact hdiffer.plain.2 hfragment
  · intro hno
    by_cases hmem : asked ∈ registered
    · refine ⟨?_, fun _ pairs => appended_of_plain (plain_of_allowed (h asked hmem)).2 pairs⟩
      rw [redirectMatches_iff]
      simp only [hmem, true_or]
    · by_cases hresembles : Resembles c registered asked
      · have hplain : ¬ HasUserinfo c asked ∧ ¬ HasFragment asked :=
          not_or.mp fun hmarks => hno ⟨hmem, hresembles, hmarks⟩
        refine ⟨?_, fun _ pairs => appended_of_plain hplain.2 pairs⟩
        rw [redirectMatches_iff, resembles_plain h hplain]
      · have hrefused : ¬ redirectMatches c registered asked = true := by
          rw [redirectMatches_iff]
          exact not_or.mpr ⟨hmem, hresembles⟩
        refine ⟨iff_of_false hrefused ?_, fun haccepted => absurd haccepted hrefused⟩
        rintro (hin | ⟨hloopback, r, hr, hdiffer⟩)
        · exact hmem hin
        · exact hresembles ((resembles_plain h hdiffer.plain).mpr ⟨hloopback, r, hr, hdiffer⟩)

/-- Parsing and encoding of a few texts. -/
def fewUris : UriCodec where
  parse uri :=
    if uri = "http://127.0.0.1/cb" then
      some ⟨some "http", some "127.0.0.1", some "127.0.0.1", some "/cb"⟩
    else if uri = "http://127.0.0.1:8080/cb" then
      some ⟨some "http", some "127.0.0.1:8080", some "127.0.0.1", some "/cb"⟩
    else if uri = "http://me@127.0.0.1:8080/cb#top" then
      some ⟨some "http", some "me@127.0.0.1:8080", some "127.0.0.1", some "/cb"⟩
    else none
  serialize pairs := if pairs = [("code", "abc")] then "code=abc" else ""
  serialize_plain pairs := by
    split_ifs <;> decide

/-- Another port is accepted, and the code comes to the end of the query. -/
theorem goesHome_port : GoesHome fewUris ["http://127.0.0.1/cb"] "http://127.0.0.1:8080/cb" :=
  (goesHome_iff _ _ _ (by decide +kernel)).mpr (by
    rintro ⟨-, -, ⟨parsed, hparsed, hmark⟩ | hfragment⟩
    · obtain rfl := Option.some.inj hparsed
      exact absurd hmark (by decide)
    · exact absurd hfragment (by decide))

/-- Credentials and a fragment are accepted as well, and the code is put behind the fragment. -/
theorem redirect_strays :
    redirectMatches fewUris ["http://127.0.0.1/cb"] "http://me@127.0.0.1:8080/cb#top" = true ∧
      withQuery fewUris "http://me@127.0.0.1:8080/cb#top" [("code", "abc")] =
        "http://me@127.0.0.1:8080/cb#top?code=abc" ∧
      ¬ GoesHome fewUris ["http://127.0.0.1/cb"] "http://me@127.0.0.1:8080/cb#top" := by
  have hmatches : redirectMatches fewUris ["http://127.0.0.1/cb"]
      "http://me@127.0.0.1:8080/cb#top" = true := by decide +kernel
  refine ⟨hmatches, by decide +kernel, fun hhome => ?_⟩
  exact not_appended (by decide) [("code", "abc")] (hhome.answers hmatches _)

end Teitunnel.Mcp
