import Teitunnel.Lib.Pieces
import Teitunnel.Lens.Cookies

/-!
# The cookies that go to the origin

A line of cookies that is text keeps its other cookies; one that isn't is dropped whole.
-/

namespace Teitunnel.Lens

open Text

/-! ## The cookies of a header -/

/-- A value with one character for each byte. -/
def HeaderValue.chars : HeaderValue → List Char
  | .text value => value.asStr.toList
  | .bytes data => data.map fun b => Char.ofNat b.toNat

/-- The white space that a header may have. -/
def isOws (c : Char) : Bool := c == ' ' || c == '\t'

/-- The name and the value of a cookie. -/
def cookieOf (pair : List Char) : Option (List Char × List Char) :=
  splitFirst (· == '=') pair

/-- The cookies of a line, in order. -/
def cookiesIn (line : List Char) : List (List Char × List Char) :=
  ((line.splitOn ';').map (Pieces.trim isOws)).filterMap cookieOf

def cookies (headers : HeaderMap) : List (List Char × List Char) :=
  (headers.getAll COOKIE).flatMap fun value => cookiesIn value.chars

/-- The cookies with another name. -/
def others (name : String) (cookies : List (List Char × List Char)) :
    List (List Char × List Char) :=
  cookies.filter fun cookie => cookie.1 ≠ name.toList

/-- No cookie of the name is left, the others are all there in their order, and so is every other
header. -/
def StripsOnly (headers : HeaderMap) (name : String) : Prop :=
  (∀ cookie ∈ cookies (stripCookie headers name), cookie.1 ≠ name.toList) ∧
    cookies (stripCookie headers name) = others name (cookies headers) ∧
    ∀ other, other ≠ COOKIE → (stripCookie headers name).getAll other = headers.getAll other

/-! ## A line of text -/

lemma isWhitespace_visible {c : Char} (h : isVisible c = true) : isWhitespace c = isOws c := by
  have hown : isOws c = true ↔ c.toNat = 32 ∨ c.toNat = 9 := by
    unfold isOws
    rw [Bool.or_eq_true, beq_iff_eq, beq_iff_eq, Char.ext_iff, Char.ext_iff,
      UInt32.toNat_inj.symm, UInt32.toNat_inj.symm]
    rfl
  have hspace : isWhitespace c = true ↔ c.toNat = 32 ∨ c.toNat = 9 := by
    have hrange : 32 ≤ c.toNat ∧ c.toNat < 127 ∨ c.toNat = 9 := by
      unfold isVisible at h
      rw [Bool.or_eq_true, Bool.and_eq_true, decide_eq_true_iff, decide_eq_true_iff,
        beq_iff_eq] at h
      rcases h with hvisible | rfl
      · exact .inl hvisible
      · exact .inr rfl
    unfold isWhitespace
    simp only [Bool.or_eq_true, Bool.and_eq_true, decide_eq_true_eq, beq_iff_eq]
    omega
  rw [Bool.eq_iff_iff, hown, hspace]

/-- The pieces of a line of text, trimmed. -/
lemma trim_pieces {value : String} (h : AllChars isVisible value) :
    ((split ';' value).map trim).map String.toList =
      (value.toList.splitOn ';').map (Pieces.trim isOws) := by
  unfold split
  rw [List.map_map, List.map_map]
  refine List.map_congr_left fun piece hpiece => ?_
  have hvisible : ∀ c ∈ piece, isWhitespace c = isOws c := fun c hc =>
    isWhitespace_visible (allChars_iff.mp h c ((Pieces.mem_splitOn hpiece).2 c hc))
  have htrim : (trim (String.ofList piece)).toList = Pieces.trim isWhitespace piece := by
    unfold trim trimMatches trimEnd trimStart
    rw [String.toList_ofList, String.toList_ofList, String.toList_ofList]
    rfl
  exact htrim.trans (Pieces.trim_congr hvisible)

lemma isOther_eq (name pair : String) :
    isOther name pair = match cookieOf pair.toList with
      | some cookie => decide (cookie.1 ≠ name.toList)
      | none => true := by
  unfold isOther splitOnce splitOnceBy cookieOf
  cases splitFirst (· == '=') pair.toList with
  | none => rfl
  | some cookie =>
      obtain ⟨key, value⟩ := cookie
      show (String.ofList key != name) = decide (key ≠ name.toList)
      rw [Bool.eq_iff_iff, bne_iff_ne, decide_eq_true_iff, ne_eq, ne_eq, not_iff_not]
      constructor
      · rintro rfl
        exact (String.toList_ofList).symm
      · rintro rfl
        exact String.ofList_toList

/-- The cookies of the pairs that stay are those with another name. -/
lemma filterMap_isOther (name : String) (pairs : List String) :
    ((pairs.filter (isOther name)).map String.toList).filterMap cookieOf =
      others name ((pairs.map String.toList).filterMap cookieOf) := by
  induction pairs with
  | nil => rfl
  | cons pair pairs ih =>
      have hother := isOther_eq name pair
      rw [List.map_cons, List.filterMap_cons, List.filter_cons]
      cases hcookie : cookieOf pair.toList with
      | none =>
          rw [hcookie] at hother
          rw [if_pos hother, List.map_cons, List.filterMap_cons, hcookie]
          exact ih
      | some cookie =>
          rw [hcookie] at hother
          dsimp only at hother
          unfold others at ih ⊢
          rw [List.filter_cons]
          by_cases hne : cookie.1 ≠ name.toList
          · rw [decide_eq_true hne] at hother
            rw [if_pos hother, if_pos (decide_eq_true hne), List.map_cons, List.filterMap_cons,
              hcookie]
            exact congrArg (cookie :: ·) ih
          · rw [decide_eq_false hne] at hother
            rw [if_neg (ne_true_of_eq_false hother), if_neg (by simpa using hne)]
            exact ih

lemma toList_withoutCookie (name value : String) :
    (withoutCookie name value).toList =
      [';', ' '].intercalate ((((split ';' value).map trim).filter (isOther name)).map
        String.toList) := by
  unfold withoutCookie
  rw [String.toList_intercalate]
  rfl

/-- What stays of the pairs of a line. -/
lemma mem_kept {name value : String} (h : AllChars isVisible value) {piece : List Char}
    (hpiece : piece ∈ (((split ';' value).map trim).filter (isOther name)).map String.toList) :
    ';' ∉ piece ∧ Pieces.trim isOws piece = piece ∧ ∀ c ∈ piece, isVisible c = true := by
  have hall : piece ∈ (value.toList.splitOn ';').map (Pieces.trim isOws) := by
    rw [← trim_pieces h]
    obtain ⟨pair, hpair, rfl⟩ := List.mem_map.mp hpiece
    exact List.mem_map_of_mem (List.mem_of_mem_filter hpair)
  obtain ⟨whole, hwhole, rfl⟩ := List.mem_map.mp hall
  obtain ⟨hsep, hfrom⟩ := Pieces.mem_splitOn hwhole
  have hinside := Pieces.trim_sublist isOws whole
  exact ⟨fun hc => hsep (hinside _ hc), Pieces.trim_trim isOws whole,
    fun c hc => allChars_iff.mp h c (hfrom c (hinside c hc))⟩

/-- A line of text without a cookie is text and keeps the others. -/
lemma withoutCookie_spec {name value : String} (h : AllChars isVisible value) :
    AllChars isVisible (withoutCookie name value) ∧
      cookiesIn (withoutCookie name value).toList = others name (cookiesIn value.toList) := by
  have hkept := @mem_kept name value h
  have hcookies := filterMap_isOther name ((split ';' value).map trim)
  rw [trim_pieces h] at hcookies
  rw [allChars_iff, toList_withoutCookie]
  generalize (((split ';' value).map trim).filter (isOther name)).map String.toList = kept
    at hkept hcookies
  constructor
  · intro c hc
    rcases Pieces.mem_intercalate hc with hsep | ⟨piece, hpiece, hc⟩
    · rcases List.mem_cons.mp hsep with rfl | hsep
      · rfl
      · rw [List.mem_singleton.mp hsep]
        rfl
    · exact (hkept hpiece).2.2 c hc
  · show _ = others name _
    unfold cookiesIn
    rw [← hcookies]
    by_cases hnone : kept = []
    · rw [hnone]
      rfl
    · rw [Pieces.trim_splitOn_intercalate hnone (fun l hl => (hkept hl).1)
        (fun l hl => (hkept hl).2.1) rfl (by decide)]

/-! ## All lines -/

/-- What is left of the cookies of a line. -/
def left (name : String) (value : HeaderValue) : List (List Char × List Char) :=
  match value.toStr with
  | some _ => others name (cookiesIn value.chars)
  | none => []

lemma foldl_appendCookie {values : List String} (h : ∀ value ∈ values, AllChars isVisible value)
    (headers : HeaderMap) :
    cookies (values.foldl appendCookie headers) =
        cookies headers ++ values.flatMap (fun value => cookiesIn value.toList) ∧
      ∀ other, other ≠ COOKIE →
        (values.foldl appendCookie headers).getAll other = headers.getAll other := by
  induction values generalizing headers with
  | nil => exact ⟨(List.append_nil _).symm, fun _ _ => rfl⟩
  | cons value values ih =>
      have hvisible := h value List.mem_cons_self
      have happend : appendCookie headers value = headers.append COOKIE (.text ⟨value, hvisible⟩) := by
        have hvalue : HeaderValue.fromStr value = some (.text ⟨value, hvisible⟩) := dif_pos hvisible
        unfold appendCookie
        rw [hvalue]
      obtain ⟨hcookies, hothers⟩ :=
        ih (fun v hv => h v (List.mem_cons_of_mem value hv)) (appendCookie headers value)
      refine ⟨?_, ?_⟩
      · have hone : cookies (appendCookie headers value) =
            cookies headers ++ cookiesIn value.toList := by
          unfold cookies
          rw [happend, HeaderMap.getAll_append_self, List.flatMap_append, List.flatMap_singleton]
          rfl
        rw [List.foldl_cons, hcookies, hone, List.flatMap_cons, List.append_assoc]
      · intro other hne
        rw [List.foldl_cons, hothers other hne, happend, HeaderMap.getAll_append_of_ne _ hne]

lemma cookiesIn_nil : cookiesIn [] = [] := rfl

/-- The lines that are put back have what is left. -/
lemma flatMap_left (name : String) (values : List HeaderValue) :
    ((((values.filterMap HeaderValue.toStr).map (withoutCookie name)).filter (· ≠ "")).flatMap
        fun value => cookiesIn value.toList) = values.flatMap (left name) := by
  induction values with
  | nil => rfl
  | cons value values ih =>
      rw [List.filterMap_cons, List.flatMap_cons, ← ih]
      cases hstr : value.toStr with
      | none =>
          unfold left
          rw [hstr]
          rfl
      | some s =>
          have hvisible := HeaderValue.toStr_visible hstr
          have hchars : value.chars = s.toList := by
            cases value with
            | text v => rw [← Option.some.inj hstr]; rfl
            | bytes d => exact absurd hstr nofun
          have hleft : left name value = cookiesIn (withoutCookie name s).toList := by
            unfold left
            rw [hstr, hchars]
            exact (withoutCookie_spec hvisible).2.symm
          rw [List.map_cons, List.filter_cons, hleft]
          by_cases hempty : withoutCookie name s = ""
          · rw [if_neg (by simpa using hempty), hempty]
            rfl
          · rw [if_pos (by simpa using hempty), List.flatMap_cons]

lemma visible_left (name : String) (values : List HeaderValue) :
    ∀ value ∈ ((values.filterMap HeaderValue.toStr).map (withoutCookie name)).filter (· ≠ ""),
      AllChars isVisible value := by
  intro value hvalue
  obtain ⟨s, hs, rfl⟩ := List.mem_map.mp (List.mem_of_mem_filter hvalue)
  obtain ⟨v, -, hv⟩ := List.mem_filterMap.mp hs
  exact (withoutCookie_spec (HeaderValue.toStr_visible hv)).1

lemma stripCookie_spec (headers : HeaderMap) (name : String) :
    cookies (stripCookie headers name) = (headers.getAll COOKIE).flatMap (left name) ∧
      ∀ other, other ≠ COOKIE → (stripCookie headers name).getAll other = headers.getAll other := by
  obtain ⟨hcookies, hothers⟩ :=
    foldl_appendCookie (visible_left name (headers.getAll COOKIE)) (headers.remove COOKIE)
  constructor
  · unfold stripCookie
    rw [hcookies, flatMap_left]
    unfold cookies
    rw [HeaderMap.getAll_remove_self]
    rfl
  · intro other hne
    unfold stripCookie
    rw [hothers other hne, HeaderMap.getAll_remove_of_ne _ hne]

/-- Lists that are dropped or kept whole come to the same only when each dropped one is empty. -/
lemma flatMap_eq_iff {α β : Type*} {f g : α → List β} {l : List α}
    (h : ∀ a ∈ l, f a = g a ∨ f a = []) :
    l.flatMap f = l.flatMap g ↔ ∀ a ∈ l, f a = g a := by
  constructor
  · induction l with
    | nil => exact fun _ _ ha => absurd ha List.not_mem_nil
    | cons a l ih =>
        intro heq
        have hlength : ∀ m : List α, (∀ b ∈ m, f b = g b ∨ f b = []) →
            (m.flatMap f).length ≤ (m.flatMap g).length := by
          intro m hm
          induction m with
          | nil => exact le_rfl
          | cons b m ihm =>
              have hrest := ihm fun c hc => hm c (List.mem_cons_of_mem b hc)
              rw [List.flatMap_cons, List.flatMap_cons, List.length_append, List.length_append]
              rcases hm b List.mem_cons_self with hb | hb
              · rw [hb]
                omega
              · rw [hb, List.length_nil]
                omega
        have hrest := fun b hb => h b (List.mem_cons_of_mem a hb)
        have hle := hlength l hrest
        rw [List.flatMap_cons, List.flatMap_cons] at heq
        have hfirst : f a = g a := by
          rcases h a List.mem_cons_self with ha | ha
          · exact ha
          · have hsum := congrArg List.length heq
            rw [ha, List.nil_append, List.length_append] at hsum
            rw [ha, List.eq_nil_of_length_eq_zero (show (g a).length = 0 by omega)]
        rw [hfirst] at heq
        exact List.forall_mem_cons.mpr ⟨hfirst, ih hrest (List.append_cancel_left heq)⟩
  · exact fun heq => List.flatMap_congr heq

/-- Only the session's cookie goes, exactly when every line of cookies that is no text has no
other one. -/
theorem stripCookie_exact (headers : HeaderMap) (name : String) :
    StripsOnly headers name ↔
      ∀ value ∈ headers.getAll COOKIE, value.toStr = none →
        ∀ cookie ∈ cookiesIn value.chars, cookie.1 = name.toList := by
  obtain ⟨hcookies, hothers⟩ := stripCookie_spec headers name
  have hgone : ∀ cookie ∈ cookies (stripCookie headers name), cookie.1 ≠ name.toList := by
    intro cookie hcookie
    rw [hcookies] at hcookie
    obtain ⟨value, -, hmem⟩ := List.mem_flatMap.mp hcookie
    unfold left at hmem
    split at hmem
    · exact of_decide_eq_true (List.mem_filter.mp hmem).2
    · exact absurd hmem List.not_mem_nil
  have hbefore : others name (cookies headers) =
      (headers.getAll COOKIE).flatMap fun value => others name (cookiesIn value.chars) :=
    List.filter_flatMap
  have hlines : cookies (stripCookie headers name) = others name (cookies headers) ↔
      ∀ value ∈ headers.getAll COOKIE, left name value = others name (cookiesIn value.chars) := by
    rw [hcookies, hbefore]
    refine flatMap_eq_iff fun value _ => ?_
    unfold left
    split
    · exact .inl rfl
    · exact .inr rfl
  constructor
  · rintro ⟨-, hsame, -⟩ value hvalue hstr cookie hcookie
    have hnone : left name value = [] := by
      unfold left
      rw [hstr]
    have hleft := hlines.mp hsame value hvalue
    by_contra hne
    have hmem : cookie ∈ others name (cookiesIn value.chars) :=
      List.mem_filter.mpr ⟨hcookie, decide_eq_true hne⟩
    rw [← hleft, hnone] at hmem
    exact absurd hmem List.not_mem_nil
  · intro h
    refine ⟨hgone, hlines.mpr fun value hvalue => ?_, hothers⟩
    unfold left
    cases hstr : value.toStr with
    | some s => rfl
    | none =>
        refine (List.filter_eq_nil_iff.mpr fun cookie hcookie => ?_).symm
        simpa using h value hvalue hstr cookie hcookie

/-- A session and a cookie with a letter that isn't ASCII, in one line. -/
def mixedCookies : HeaderMap :=
  ⟨[(COOKIE, .bytes [0x73, 0x3d, 0x76, 0x3b, 0x20, 0x61, 0x3d, 0xe9])]⟩

/-- The other cookie is dropped with the line. -/
theorem stripCookie_dropsLine :
    cookies mixedCookies = [(['s'], ['v']), (['a'], ['é'])] ∧
      cookies (stripCookie mixedCookies "s") = [] ∧ ¬ StripsOnly mixedCookies "s" := by
  have hbefore : cookies mixedCookies = [(['s'], ['v']), (['a'], ['é'])] := by decide
  have hafter : cookies (stripCookie mixedCookies "s") = [] := by decide
  refine ⟨hbefore, hafter, fun h => ?_⟩
  have hsame := h.2.1
  rw [hbefore, hafter] at hsame
  exact absurd hsame (by decide)

end Teitunnel.Lens
