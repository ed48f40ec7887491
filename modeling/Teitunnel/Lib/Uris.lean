import Teitunnel.Lib.Trim

/-!
# Percent-encoded text and references

Bytes are decoded where an escape stands and kept elsewhere; the result is text when it is UTF-8,
and the two sides of a slash are decoded each for itself.  A reference that begins with a slash
leads from a page to a path of the same authority, or of another if it begins with two.
-/

namespace Uris

open Text

/-- The value of a hexadecimal digit. -/
def hexValue (b : UInt8) : Option UInt8 :=
  if 48 ≤ b ∧ b ≤ 57 then some (b - 48)
  else if 65 ≤ b ∧ b ≤ 70 then some (b - 55)
  else if 97 ≤ b ∧ b ≤ 102 then some (b - 87)
  else none

/-- The byte of an escape, from what is behind its sign. -/
def escaped : List UInt8 → Option UInt8
  | h :: l :: _ => (hexValue h).bind fun high => (hexValue l).map fun low => high * 16 + low
  | _ => none

/-- Decodes bytes, of which the first `skip` were read with an escape. -/
def decodeFrom : ℕ → List UInt8 → List UInt8
  | _, [] => []
  | skip + 1, _ :: rest => decodeFrom skip rest
  | 0, b :: rest =>
      if b = 37 then
        match escaped rest with
        | some c => c :: decodeFrom 2 rest
        | none => b :: decodeFrom 0 rest
      else b :: decodeFrom 0 rest

def decodeBytes (bytes : List UInt8) : List UInt8 := decodeFrom 0 bytes

/-- The text of bytes that are UTF-8. -/
def text? (bytes : List UInt8) : Option String := String.fromUTF8? ⟨bytes.toArray⟩

def decode (s : String) : Option String := text? (decodeBytes (utf8 s))

lemma text?_eq_some {bytes : List UInt8} {s : String} : text? bytes = some s ↔ utf8 s = bytes := by
  rw [text?, String.fromUTF8?]
  constructor
  · intro h
    split_ifs at h with hvalid
    rw [← Option.some.inj h]
    rfl
  · rintro rfl
    have hsame : (⟨(utf8 s).toArray⟩ : ByteArray) = s.toByteArray := ByteArray.ext (by simp [utf8])
    rw [dif_pos (hsame ▸ s.isValidUTF8)]
    congr 1

/-! ## Cutting at a character -/

lemma utf8_eq_flatMap (s : String) : utf8 s = s.toList.flatMap String.utf8EncodeChar := by
  have hbytes : s.toByteArray = s.toList.utf8Encode := by
    conv_lhs => rw [← String.ofList_toList (s := s)]
    exact String.toByteArray_ofList
  rw [utf8, hbytes, List.utf8Encode]
  simp

/-- A character that isn't ASCII has no byte of ASCII. -/
lemma utf8EncodeChar_high {c : Char} (hc : c.utf8Size ≠ 1) :
    ∀ b ∈ String.utf8EncodeChar c, 128 ≤ b.toNat := by
  have hhigh : ∀ x y : UInt8, 128 ≤ y.toNat → 128 ≤ (x ||| y).toNat := by
    intro x y hy
    rw [UInt8.toNat_or]
    exact hy.trans Nat.right_le_or
  rcases c.utf8Size_eq with h | h | h | h
  · exact absurd h hc
  · rw [String.utf8EncodeChar_eq_cons_cons h]
    simp only [List.mem_cons, List.not_mem_nil, or_false]
    rintro b (rfl | rfl) <;> exact hhigh _ _ (by decide)
  · rw [String.utf8EncodeChar_eq_cons_cons_cons h]
    simp only [List.mem_cons, List.not_mem_nil, or_false]
    rintro b (rfl | rfl | rfl) <;> exact hhigh _ _ (by decide)
  · rw [String.utf8EncodeChar_eq_cons_cons_cons_cons h]
    simp only [List.mem_cons, List.not_mem_nil, or_false]
    rintro b (rfl | rfl | rfl | rfl) <;> exact hhigh _ _ (by decide)

lemma slash_of_mem {c : Char} (h : 47 ∈ String.utf8EncodeChar c) : c = '/' := by
  by_cases hc : c.utf8Size = 1
  · rw [String.utf8EncodeChar_eq_singleton hc, List.mem_singleton] at h
    have hle : c.val.toNat ≤ 127 := UInt32.le_iff_toNat_le.mp (Char.utf8Size_eq_one_iff.mp hc)
    have hnat := congrArg UInt8.toNat h
    rw [UInt32.toNat_toUInt8, Nat.mod_eq_of_lt (by omega)] at hnat
    exact Char.ext (UInt32.toNat_inj.mp hnat.symm)
  · exact absurd (utf8EncodeChar_high hc 47 h) (by decide)

/-- Where the bytes of a text have a slash, the text has. -/
lemma flatMap_cut {l : List Char} {bytes bytes' : List UInt8}
    (h : l.flatMap String.utf8EncodeChar = bytes ++ 47 :: bytes') :
    ∃ a b, l = a ++ '/' :: b ∧ a.flatMap String.utf8EncodeChar = bytes ∧
      b.flatMap String.utf8EncodeChar = bytes' := by
  induction l generalizing bytes with
  | nil => exact absurd h.symm (List.append_ne_nil_of_right_ne_nil _ (List.cons_ne_nil _ _))
  | cons c l ih =>
      have hlater : ∀ front, l.flatMap String.utf8EncodeChar = front ++ 47 :: bytes' →
          bytes = String.utf8EncodeChar c ++ front →
          ∃ a b, c :: l = a ++ '/' :: b ∧ a.flatMap String.utf8EncodeChar = bytes ∧
            b.flatMap String.utf8EncodeChar = bytes' := by
        rintro front hrest rfl
        obtain ⟨a, b, rfl, rfl, rfl⟩ := ih hrest
        exact ⟨c :: a, b, rfl, rfl, rfl⟩
      rw [List.flatMap_cons] at h
      rcases List.append_eq_append_iff.mp h with ⟨front, hbytes, hrest⟩ | ⟨tail, hchar, hrest⟩
      · exact hlater front hrest hbytes
      · cases tail with
        | nil => exact hlater [] hrest.symm (by rw [hchar, List.append_nil, List.append_nil])
        | cons x tail =>
            obtain ⟨rfl, hrest⟩ := List.cons.inj hrest
            -- The slash is the whole character.
            obtain rfl := slash_of_mem (hchar ▸ List.mem_append_right _ List.mem_cons_self)
            have hslash : String.utf8EncodeChar '/' = [47] := by decide
            rw [hslash] at hchar
            obtain ⟨rfl, rfl⟩ : bytes = [] ∧ tail = [] := by
              have hlength := congrArg List.length hchar
              simp only [List.length_append, List.length_cons, List.length_nil] at hlength
              exact ⟨List.length_eq_zero_iff.mp (by omega), List.length_eq_zero_iff.mp (by omega)⟩
            exact ⟨[], l, rfl, rfl, (List.cons.inj hrest.symm).2⟩

lemma utf8_cut {s : String} {bytes bytes' : List UInt8} (h : utf8 s = bytes ++ 47 :: bytes') :
    ∃ a b, s = a ++ "/" ++ b ∧ utf8 a = bytes ∧ utf8 b = bytes' := by
  rw [utf8_eq_flatMap] at h
  obtain ⟨a, b, hs, ha, hb⟩ := flatMap_cut h
  refine ⟨String.ofList a, String.ofList b, ?_, ?_, ?_⟩
  · rw [← String.ofList_toList (s := s), hs, String.append_assoc]
    simp
  · rw [utf8_eq_flatMap, String.toList_ofList, ha]
  · rw [utf8_eq_flatMap, String.toList_ofList, hb]

lemma escaped_append {b : UInt8} (hb : hexValue b = none) (bytes bytes' : List UInt8) :
    escaped (bytes ++ b :: bytes') = escaped bytes := by
  rcases bytes with _ | ⟨h, _ | ⟨l, rest⟩⟩
  · cases bytes' with
    | nil => rfl
    | cons l rest => simp [escaped, hb]
  · simp [escaped, hb]
  · rfl

lemma two_le_of_escaped {bytes : List UInt8} {c : UInt8} (h : escaped bytes = some c) :
    2 ≤ bytes.length := by
  rcases bytes with _ | ⟨b, _ | ⟨b', rest⟩⟩
  · cases h
  · cases h
  · simp only [List.length_cons]
    omega

lemma decodeFrom_append {b : UInt8} (hb : hexValue b = none) (hsign : b ≠ 37)
    (bytes bytes' : List UInt8) (skip : ℕ) (hskip : skip ≤ bytes.length) :
    decodeFrom skip (bytes ++ b :: bytes') = decodeFrom skip bytes ++ b :: decodeFrom 0 bytes' := by
  induction bytes generalizing skip with
  | nil =>
      obtain rfl := Nat.le_zero.mp hskip
      rw [List.nil_append, decodeFrom.eq_def]
      exact if_neg hsign
  | cons x bytes ih =>
      cases skip with
      | succ skip =>
          rw [List.cons_append, decodeFrom, decodeFrom]
          exact ih skip (by simpa using hskip)
      | zero =>
          rw [List.cons_append, decodeFrom, decodeFrom, escaped_append hb]
          by_cases hx : x = 37
          · rw [if_pos hx, if_pos hx]
            cases hescaped : escaped bytes with
            | none =>
                dsimp only
                rw [ih 0 (Nat.zero_le _), List.cons_append]
            | some c =>
                dsimp only
                rw [ih 2 (two_le_of_escaped hescaped), List.cons_append]
          · rw [if_neg hx, if_neg hx, ih 0 (Nat.zero_le _), List.cons_append]

/-- The two sides of a slash are decoded each for itself. -/
lemma decode_slash (a b : String) :
    decode (a ++ "/" ++ b) =
      (decode a).bind fun x => (decode b).map fun y => x ++ "/" ++ y := by
  have hbytes : decodeBytes (utf8 (a ++ "/" ++ b)) =
      decodeBytes (utf8 a) ++ 47 :: decodeBytes (utf8 b) := by
    have hslash : utf8 "/" = [47] := by decide
    rw [utf8_append, utf8_append, hslash, List.append_assoc, List.singleton_append]
    exact decodeFrom_append (by decide) (by decide) _ _ 0 (Nat.zero_le _)
  refine Option.ext fun s => ?_
  rw [decode, text?_eq_some, hbytes, Option.bind_eq_some_iff]
  constructor
  · intro h
    obtain ⟨x, y, rfl, hx, hy⟩ := utf8_cut h
    refine ⟨x, text?_eq_some.mpr hx, ?_⟩
    rw [decode, text?_eq_some.mpr hy]
    rfl
  · rintro ⟨x, hx, h⟩
    obtain ⟨y, hy, rfl⟩ := Option.map_eq_some_iff.mp h
    have hslash : utf8 "/" = [47] := by decide
    rw [utf8_append, utf8_append, hslash, text?_eq_some.mp hx, text?_eq_some.mp hy,
      List.append_assoc, List.singleton_append]

/-! ## What a path names -/

section names

variable {β : Type*} (name : String → Option β)

/-- What the pieces of a decoded path name. -/
def names (path : String) : Option (List β) :=
  (decode path).map fun text => (split '/' text).filterMap name

lemma split_slash (a b : String) : split '/' (a ++ "/" ++ b) = split '/' a ++ split '/' b := by
  induction hlen : a.toList.length using Nat.strong_induction_on generalizing a with
  | _ n ih =>
    have hsep : "/" = String.singleton '/' := rfl
    by_cases ha : '/' ∈ a.toList
    · obtain ⟨x, y, rfl, hx⟩ := exists_cut ha
      have hlt : y.toList.length < n := by
        rw [← hlen, String.toList_append, String.toList_append, List.length_append,
          List.length_append, String.toList_singleton, List.length_singleton]
        omega
      have hassoc : x ++ String.singleton '/' ++ y ++ "/" ++ b =
          x ++ String.singleton '/' ++ (y ++ "/" ++ b) := by
        simp only [String.append_assoc]
      rw [hassoc, split_append hx, split_append hx, ih _ hlt y rfl]
      rfl
    · rw [hsep, split_append ha, split_of_not_mem ha]
      rfl

lemma intercalate_split (s : String) : String.intercalate "/" (split '/' s) = s := by
  refine String.toList_injective ?_
  have hback : ((split '/' s).map String.toList) = s.toList.splitOn '/' := by
    rw [split, List.map_map]
    refine (List.map_congr_left fun l _ => ?_).trans (List.map_id _)
    exact String.toList_ofList
  rw [String.toList_intercalate, hback]
  exact List.intercalate_splitOn (x := '/')

lemma names_slash (a b : String) :
    names name (a ++ "/" ++ b) =
      (names name a).bind fun x => (names name b).map fun y => x ++ y := by
  rw [names, names, names, decode_slash]
  cases decode a with
  | none => rfl
  | some x =>
      cases decode b with
      | none => rfl
      | some y =>
          rw [Option.bind_some, Option.map_some, Option.map_some, split_slash, List.filterMap_append]
          rfl

/-! ## Dots -/

/-- The segments of a path without those that are dots; `out` is what was kept so far. -/
def removeDots : List String → List String → List String
  | out, [] => out
  | out, [s] =>
      if s = "." then out ++ [""] else if s = ".." then out.dropLast ++ [""] else out ++ [s]
  | out, s :: t :: rest =>
      if s = "." then removeDots out (t :: rest)
      else if s = ".." then removeDots out.dropLast (t :: rest)
      else removeDots (out ++ [s]) (t :: rest)

lemma removeDots_folder {segments : List String} (h : ".." ∉ segments) (out : List String) :
    removeDots out (segments ++ [""]) = out ++ segments.filter (· ≠ ".") ++ [""] := by
  induction segments generalizing out with
  | nil => simp [removeDots]
  | cons s rest ih =>
      obtain ⟨hs, hrest⟩ := not_or.mp (List.mem_cons.not.mp h)
      obtain ⟨t, tail, htail⟩ : ∃ t tail, rest ++ [""] = t :: tail :=
        List.exists_cons_of_ne_nil (List.append_ne_nil_of_right_ne_nil _ (List.cons_ne_nil _ _))
      rw [List.cons_append, htail, removeDots, ← htail]
      by_cases hdot : s = "."
      · rw [if_pos hdot, ih hrest, List.filter_cons_of_neg (by simpa using hdot)]
      · rw [if_neg hdot, if_neg (Ne.symm hs), ih hrest, List.filter_cons_of_pos (by simpa using hdot)]
        simp

/-- Segments that are a dot name nothing. -/
lemma names_dots (hempty : name "" = none) (hdot : name "." = none) (segments : List String) :
    names name (String.intercalate "/" (segments.filter (· ≠ ".") ++ [""])) =
      names name (String.intercalate "/" segments) := by
  have hnone : names name "" = some [] := by
    have hdecode : decode "" = some "" := by decide +kernel
    have hsplit : split '/' "" = [""] := by decide
    rw [names, hdecode, Option.map_some, hsplit, List.filterMap_cons_none hempty, List.filterMap_nil]
  have hnoneDot : names name "." = some [] := by
    have hdecode : decode "." = some "." := by decide +kernel
    have hsplit : split '/' "." = ["."] := by decide
    rw [names, hdecode, Option.map_some, hsplit, List.filterMap_cons_none hdot, List.filterMap_nil]
  have hcons : ∀ (s : String) (l : List String), l ≠ [] → String.intercalate "/" (s :: l) =
      s ++ "/" ++ String.intercalate "/" l := by
    intro s l hl
    obtain ⟨t, rest, rfl⟩ := List.exists_cons_of_ne_nil hl
    rw [String.intercalate_cons_cons]
  have hnonempty : ∀ l : List String, l ++ [""] ≠ [] := fun l =>
    List.append_ne_nil_of_right_ne_nil _ (List.cons_ne_nil _ _)
  induction segments with
  | nil => rfl
  | cons s rest ih =>
      by_cases hs : s = "."
      · rw [List.filter_cons_of_neg (by simpa using hs), ih, hs]
        cases rest with
        | nil =>
            rw [String.intercalate_singleton, hnoneDot]
            exact hnone
        | cons t rest =>
            rw [hcons "." _ (List.cons_ne_nil t rest), names_slash, hnoneDot, Option.bind_some]
            simp
      · rw [List.filter_cons_of_pos (by simpa using hs), List.cons_append, hcons s _ (hnonempty _),
          names_slash, ih]
        cases rest with
        | nil =>
            have hnil : names name (String.intercalate "/" []) = some [] := hnone
            rw [hnil, String.intercalate_singleton]
            simp
        | cons t rest => rw [hcons s _ (List.cons_ne_nil t rest), names_slash]

end names

/-! ## References -/

/-- Where a reference leads to. -/
structure Target where
  authority : String
  path : String
  query : Option String
  deriving DecidableEq

/-- A path with its dot segments resolved. -/
def normalize (path : String) : String :=
  match stripStart "/" path with
  | some rest => "/" ++ String.intercalate "/" (removeDots [] (split '/' rest))
  | none => path

/-- What stands before the first `c`, or all. -/
def before (c : Char) (s : String) : String := ((splitOnce c s).map Prod.fst).getD s

/-- What a path and a query lead to from a page of an authority, when the path begins with a
slash. -/
def follow (authority path : String) (query : Option String) : Option Target :=
  match stripStart "//" path with
  | some rest =>
      match splitOnce '/' rest with
      | some (authority, path) => some { authority, path := normalize ("/" ++ path), query }
      | none => some { authority := rest, path := "", query }
  | none =>
      if StartsWith "/" path then some { authority, path := normalize path, query } else none

/-- What a reference leads to; its fragment stays with the reader. -/
def resolve (authority reference : String) : Option Target :=
  let reference := before '#' reference
  follow authority (before '?' reference) ((splitOnce '?' reference).map Prod.snd)

lemma before_of_not_mem {c : Char} {s : String} (h : c ∉ s.toList) : before c s = s := by
  rw [before, splitOnce_none h]
  rfl

lemma before_append {c : Char} {a b : String} (h : c ∉ a.toList) :
    before c (a ++ String.singleton c ++ b) = a := by
  rw [before, splitOnce_append h]
  rfl

lemma startsWith_before {c : Char} (hc : c ≠ '/') {s : String} (h : StartsWith "//" s) :
    StartsWith "//" (before c s) := by
  by_cases hmem : c ∈ s.toList
  · obtain ⟨a, b, rfl, ha⟩ := exists_cut hmem
    rw [before_append ha]
    obtain ⟨r, hr⟩ := startsWith_iff.mp h
    have hlist : a.toList ++ c :: b.toList = '/' :: '/' :: r.toList := by
      have hlists := congrArg String.toList hr
      simpa using hlists
    rw [startsWith_iff]
    rcases ha' : a.toList with _ | ⟨x, _ | ⟨y, rest⟩⟩
    · rw [ha', List.nil_append, List.cons.injEq] at hlist
      exact absurd hlist.1 hc
    · rw [ha', List.singleton_append, List.cons.injEq, List.cons.injEq] at hlist
      exact absurd hlist.2.1 hc
    · rw [ha', List.cons_append, List.cons_append, List.cons.injEq, List.cons.injEq] at hlist
      obtain ⟨rfl, rfl, -⟩ := hlist
      refine ⟨String.ofList rest, String.toList_injective ?_⟩
      rw [ha']
      simp
  · rwa [before_of_not_mem hmem]

lemma follow_slashes {path : String} (h : StartsWith "//" path) (query : Option String) :
    ∃ target, ∀ authority, follow authority path query = some target := by
  obtain ⟨rest, hrest⟩ := startsWith_iff.mp h
  have hstrip := stripStart_eq_some.mpr hrest
  cases hcut : splitOnce '/' rest with
  | none =>
      refine ⟨{ authority := rest, path := "", query }, fun authority => ?_⟩
      rw [follow, hstrip]
      dsimp only
      rw [hcut]
  | some cut =>
      refine ⟨{ authority := cut.1, path := normalize ("/" ++ cut.2), query }, fun authority => ?_⟩
      rw [follow, hstrip]
      dsimp only
      rw [hcut]

lemma follow_path {path : String} (hslash : StartsWith "/" path) (hslashes : ¬ StartsWith "//" path)
    (authority : String) (query : Option String) :
    follow authority path query = some { authority, path := normalize path, query } := by
  have hstrip : stripStart "//" path = none := by
    refine Option.eq_none_iff_forall_ne_some.mpr fun rest hrest => hslashes ?_
    exact startsWith_iff.mpr ⟨rest, stripStart_eq_some.mp hrest⟩
  rw [follow, hstrip]
  dsimp only
  rw [if_pos hslash]

/-- A reference with two slashes leads to the same wherever it stands. -/
lemma resolve_slashes {reference : String} (h : StartsWith "//" reference) :
    ∃ target, ∀ authority, resolve authority reference = some target :=
  follow_slashes (startsWith_before (by decide) (startsWith_before (by decide) h)) _

/-- A path with one slash leads to itself. -/
lemma resolve_path {path : String} (hslash : StartsWith "/" path) (hslashes : ¬ StartsWith "//" path)
    (hhash : '#' ∉ path.toList) (hmark : '?' ∉ path.toList) (authority : String) :
    resolve authority path = some { authority, path := normalize path, query := none } := by
  rw [resolve, before_of_not_mem hhash, before_of_not_mem hmark, splitOnce_none hmark]
  exact follow_path hslash hslashes authority none

lemma resolve_query {path query : String} (hslash : StartsWith "/" path)
    (hslashes : ¬ StartsWith "//" path) (hhash : '#' ∉ path.toList) (hmark : '?' ∉ path.toList)
    (hquery : '#' ∉ query.toList) (authority : String) :
    resolve authority (path ++ String.singleton '?' ++ query) =
      some { authority, path := normalize path, query := some query } := by
  have hall : '#' ∉ (path ++ String.singleton '?' ++ query).toList := by
    simp only [String.toList_append, String.toList_singleton, List.mem_append, List.mem_singleton,
      not_or]
    exact ⟨⟨hhash, by decide⟩, hquery⟩
  rw [resolve, before_of_not_mem hall, before_append hmark, splitOnce_append hmark]
  exact follow_path hslash hslashes authority (some query)

/-! ## A folder's path -/

lemma normalize_append (rest : String) :
    normalize ("/" ++ rest) = "/" ++ String.intercalate "/" (removeDots [] (split '/' rest)) := by
  have hstrip : stripStart "/" ("/" ++ rest) = some rest := stripStart_eq_some.mpr rfl
  rw [normalize, hstrip]

/-- With a slash behind it, a path without double dots stays a folder's. -/
lemma normalize_folder {rest : String} (h : ".." ∉ split '/' rest) :
    normalize ("/" ++ (rest ++ "/")) =
      "/" ++ String.intercalate "/" ((split '/' rest).filter (· ≠ ".") ++ [""]) := by
  have hsplit : split '/' (rest ++ "/") = split '/' rest ++ [""] := by
    have hslash := split_slash rest ""
    have hempty : split '/' "" = [""] := by decide
    rwa [String.append_empty, hempty] at hslash
  rw [normalize_append, hsplit, removeDots_folder h, List.nil_append]

lemma intercalate_endsWith (l : List String) :
    ∃ front, "/" ++ String.intercalate "/" (l ++ [""]) = front ++ "/" := by
  induction l with
  | nil => exact ⟨"", rfl⟩
  | cons s l ih =>
      obtain ⟨front, hfront⟩ := ih
      obtain ⟨t, rest, hl⟩ : ∃ t rest, l ++ [""] = t :: rest :=
        List.exists_cons_of_ne_nil (List.append_ne_nil_of_right_ne_nil _ (List.cons_ne_nil _ _))
      refine ⟨"/" ++ s ++ front, ?_⟩
      rw [List.cons_append, hl, String.intercalate_cons_cons, ← hl]
      simp only [String.append_assoc] at hfront ⊢
      rw [hfront]

/-- It names the same. -/
lemma names_normalize {β : Type*} {name : String → Option β} (hempty : name "" = none)
    (hdot : name "." = none) {rest : String} (h : ".." ∉ split '/' rest) :
    names name (normalize ("/" ++ (rest ++ "/"))) = names name ("/" ++ rest) := by
  have hroot : ∀ s, "/" ++ s = "" ++ "/" ++ s := fun s => by rw [String.empty_append]
  rw [normalize_folder h, hroot, names_slash, names_dots name hempty hdot, intercalate_split,
    hroot rest, names_slash]

/-- The pieces of what a segment decodes to are pieces of what the path does. -/
lemma mem_split_decode {path decoded segment : String} (hdecode : decode path = some decoded)
    (hsegment : segment ∈ split '/' path) :
    ∃ text, decode segment = some text ∧ ∀ piece ∈ split '/' text, piece ∈ split '/' decoded := by
  induction hlen : path.toList.length using Nat.strong_induction_on generalizing path decoded with
  | _ n ih =>
    by_cases hslash : '/' ∈ path.toList
    · obtain ⟨a, b, rfl, ha⟩ := exists_cut hslash
      have hlt : b.toList.length < n := by
        rw [← hlen, String.toList_append, String.toList_append, List.length_append,
          List.length_append, String.toList_singleton, List.length_singleton]
        omega
      have hsep : String.singleton '/' = "/" := rfl
      rw [split_append ha, List.mem_cons] at hsegment
      rw [hsep, decode_slash, Option.bind_eq_some_iff] at hdecode
      obtain ⟨x, hx, hdecode⟩ := hdecode
      obtain ⟨y, hy, rfl⟩ := Option.map_eq_some_iff.mp hdecode
      rw [split_slash]
      rcases hsegment with rfl | hsegment
      · exact ⟨x, hx, fun piece hpiece => List.mem_append_left _ hpiece⟩
      · obtain ⟨text, htext, hpieces⟩ := ih _ hlt hy hsegment rfl
        exact ⟨text, htext, fun piece hpiece => List.mem_append_right _ (hpieces piece hpiece)⟩
    · rw [split_of_not_mem hslash, List.mem_singleton] at hsegment
      exact ⟨decoded, hsegment ▸ hdecode, fun _ hpiece => hpiece⟩

end Uris
