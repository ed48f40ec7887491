import Mathlib

/-!
# Text

The string operations of a systems language that core Lean either lacks or defines through
byte positions.  Everything here goes through the list of characters, so it evaluates in the
kernel and its laws are laws of lists.

**Case.**  ASCII case folding (`toAsciiLowercase`) and equality up to it (`SameText`).

**Cutting.**  Stripping a leading text, splitting at the first occurrence of a character,
trimming, joining.

**Searching.**  `HasText p s`: `p` occurs in `s`.
-/

namespace Text

/-! ## Case -/

/-- `s` with its ASCII letters in lower case; other characters stay. -/
def toAsciiLowercase (s : String) : String :=
  String.ofList (s.toList.map Char.toLower)

/-- Equal up to the case of ASCII letters. -/
def SameText (a b : String) : Prop :=
  toAsciiLowercase a = toAsciiLowercase b

instance (a b : String) : Decidable (SameText a b) :=
  inferInstanceAs (Decidable (_ = _))

@[refl, simp] lemma SameText.refl (a : String) : SameText a a := rfl

@[symm] lemma SameText.symm {a b : String} (h : SameText a b) : SameText b a := Eq.symm h

@[trans] lemma SameText.trans {a b c : String} (h : SameText a b) (h' : SameText b c) :
    SameText a c := Eq.trans h h'

lemma SameText.comm {a b : String} : SameText a b ↔ SameText b a := ⟨.symm, .symm⟩

@[simp] lemma toList_toAsciiLowercase (s : String) :
    (toAsciiLowercase s).toList = s.toList.map Char.toLower := by
  simp [toAsciiLowercase]

lemma toAsciiLowercase_append (a b : String) :
    toAsciiLowercase (a ++ b) = toAsciiLowercase a ++ toAsciiLowercase b := by
  simp [String.ext_iff]

lemma SameText.append {a b c d : String} (h : SameText a b) (h' : SameText c d) :
    SameText (a ++ c) (b ++ d) := by
  rw [SameText, toAsciiLowercase_append, toAsciiLowercase_append, h, h']

/-! ## White space and control characters -/

/-- Unicode `White_Space`. -/
def isWhitespace (c : Char) : Bool :=
  let n := c.toNat
  (9 ≤ n && n ≤ 13) || n == 0x20 || n == 0x85 || n == 0xA0 || n == 0x1680 ||
    (0x2000 ≤ n && n ≤ 0x200A) || n == 0x2028 || n == 0x2029 || n == 0x202F ||
    n == 0x205F || n == 0x3000

/-- Unicode general category `Cc`. -/
def isControl (c : Char) : Bool :=
  let n := c.toNat
  n ≤ 0x1F || (0x7F ≤ n && n ≤ 0x9F)

/-- A letter or digit of ASCII. -/
def isAsciiAlphanumeric (c : Char) : Bool :=
  ('a' ≤ c && c ≤ 'z') || ('A' ≤ c && c ≤ 'Z') || ('0' ≤ c && c ≤ '9')

/-! ## Trimming -/

/-- `s` without the leading characters that satisfy `p`. -/
def trimStart (p : Char → Bool) (s : String) : String :=
  String.ofList (s.toList.dropWhile p)

/-- `s` without the trailing characters that satisfy `p`. -/
def trimEnd (p : Char → Bool) (s : String) : String :=
  String.ofList (s.toList.rdropWhile p)

/-- `s` without the leading and trailing characters that satisfy `p`. -/
def trimMatches (p : Char → Bool) (s : String) : String :=
  trimEnd p (trimStart p s)

/-- `s` without surrounding white space. -/
def trim (s : String) : String :=
  trimMatches isWhitespace s

/-! ## Cutting -/

/-- What follows `p` when the list starts with it. -/
def stripList : List Char → List Char → Option (List Char)
  | [], s => some s
  | _ :: _, [] => none
  | p :: ps, c :: cs => if p = c then stripList ps cs else none

/-- What follows `p` when `s` starts with it. -/
def stripStart (p s : String) : Option String :=
  (stripList p.toList s.toList).map String.ofList

/-- `s` starts with `p`. -/
def StartsWith (p s : String) : Prop :=
  (stripList p.toList s.toList).isSome

instance (p s : String) : Decidable (StartsWith p s) :=
  inferInstanceAs (Decidable (_ = true))

lemma stripList_eq_some {p s r : List Char} : stripList p s = some r ↔ s = p ++ r := by
  induction p generalizing s with
  | nil => simp [stripList, eq_comm]
  | cons a p ih =>
      cases s with
      | nil => simp [stripList]
      | cons c cs =>
          by_cases h : a = c
          · simp [stripList, h, ih]
          · simp [stripList, h, Ne.symm h]

/-- The only list that starts with `p` and goes on with `r` is `p ++ r`. -/
lemma stripStart_eq_some {p s r : String} : stripStart p s = some r ↔ s = p ++ r := by
  simp only [stripStart, Option.map_eq_some_iff, stripList_eq_some]
  constructor
  · rintro ⟨l, hl, rfl⟩
    simp [String.ext_iff, hl]
  · rintro rfl
    exact ⟨r.toList, by simp, by simp⟩

lemma startsWith_iff {p s : String} : StartsWith p s ↔ ∃ r, s = p ++ r := by
  simp only [StartsWith, Option.isSome_iff_exists, stripList_eq_some]
  constructor
  · rintro ⟨l, hl⟩
    exact ⟨String.ofList l, by simp [String.ext_iff, hl]⟩
  · rintro ⟨r, rfl⟩
    exact ⟨r.toList, by simp⟩

/-- What stands before the first character satisfying `p`, and what stands after it. -/
def splitFirst (p : Char → Bool) : List Char → Option (List Char × List Char)
  | [] => none
  | a :: rest =>
      if p a then some ([], rest)
      else (splitFirst p rest).map fun (l, r) => (a :: l, r)

/-- `s` cut at its first character satisfying `p`. -/
def splitOnceBy (p : Char → Bool) (s : String) : Option (String × String) :=
  (splitFirst p s.toList).map fun (l, r) => (String.ofList l, String.ofList r)

/-- `s` cut at its first `c`. -/
def splitOnce (c : Char) (s : String) : Option (String × String) :=
  splitOnceBy (· == c) s

/-- `s` cut at its last `c`. -/
def rsplitOnce (c : Char) (s : String) : Option (String × String) :=
  (splitFirst (· == c) s.toList.reverse).map fun (l, r) =>
    (String.ofList r.reverse, String.ofList l.reverse)

/-- The pieces of `s` between occurrences of `c` (one piece when there is none). -/
def split (c : Char) (s : String) : List String :=
  (s.toList.splitOn c).map String.ofList

/-- `s` without as many leading copies of `p` as it has. -/
def stripRepeated (p : List Char) : ℕ → List Char → List Char
  | 0, s => s
  | n + 1, s =>
      match stripList p s with
      | some rest => stripRepeated p n rest
      | none => s

/-- `s` without its leading copies of the text `p`. -/
def trimStartText (p s : String) : String :=
  String.ofList (stripRepeated p.toList s.toList.length s.toList)

/-- `s` without its trailing copies of the text `p`. -/
def trimEndText (p s : String) : String :=
  String.ofList (stripRepeated p.toList.reverse s.toList.length s.toList.reverse).reverse

/-- The first piece ends where the first character satisfying `p` stands. -/
lemma splitFirst_append {p : Char → Bool} {l r : List Char} {c : Char} (hl : ∀ a ∈ l, p a = false)
    (hc : p c = true) : splitFirst p (l ++ c :: r) = some (l, r) := by
  induction l with
  | nil => rw [List.nil_append, splitFirst, if_pos hc]
  | cons a l ih =>
      have ha : ¬ p a = true := by rw [hl a List.mem_cons_self]; exact Bool.false_ne_true
      rw [List.cons_append, splitFirst, if_neg ha, ih fun b hb => hl b (List.mem_cons_of_mem a hb)]
      rfl

lemma splitOnceBy_append {p : Char → Bool} {c : Char} {a b : String}
    (ha : ∀ x ∈ a.toList, p x = false) (hc : p c = true) :
    splitOnceBy p (a ++ String.singleton c ++ b) = some (a, b) := by
  have hlist : (a ++ String.singleton c ++ b).toList = a.toList ++ c :: b.toList := by simp
  rw [splitOnceBy, hlist, splitFirst_append ha hc]
  simp

lemma splitOnce_append {c : Char} {a b : String} (ha : c ∉ a.toList) :
    splitOnce c (a ++ String.singleton c ++ b) = some (a, b) :=
  splitOnceBy_append (fun _ hx => beq_eq_false_iff_ne.mpr fun h => ha (h ▸ hx))
    (beq_self_eq_true c)

/-- Pieces put together with one separator come apart again, empty ones left out. -/
lemma splitOnP_intercalate {p : Char → Bool} {sep : Char} (hsep : p sep = true)
    {pieces : List (List Char)} (h : ∀ l ∈ pieces, l ≠ [] ∧ ∀ c ∈ l, p c = false) :
    (([sep].intercalate pieces).splitOnP p).filter (· ≠ []) = pieces := by
  induction pieces with
  | nil => simp
  | cons l rest ih =>
      obtain ⟨hne, hl⟩ := h l List.mem_cons_self
      have hrest := ih fun m hm => h m (List.mem_cons_of_mem l hm)
      cases rest with
      | nil =>
          rw [List.intercalate_singleton, List.splitOnP_eq_singleton hl]
          simp [hne]
      | cons m rest =>
          rw [List.intercalate_cons_cons, List.append_assoc, List.singleton_append,
            List.splitOnP_append_cons_of_forall_mem hl sep hsep, List.filter_cons_of_pos (by simpa),
            hrest]

/-- A character of pieces put together is a separator or in a piece. -/
lemma mem_intercalate {c sep : Char} {pieces : List (List Char)}
    (h : c ∈ [sep].intercalate pieces) : c = sep ∨ ∃ l ∈ pieces, c ∈ l := by
  induction pieces with
  | nil => exact absurd h (by simp)
  | cons l rest ih =>
      cases rest with
      | nil =>
          rw [List.intercalate_singleton] at h
          exact .inr ⟨l, List.mem_cons_self, h⟩
      | cons m rest =>
          rw [List.intercalate_cons_cons, List.append_assoc] at h
          rcases List.mem_append.mp h with h | h
          · exact .inr ⟨l, List.mem_cons_self, h⟩
          · rcases List.mem_append.mp h with h | h
            · exact .inl (List.mem_singleton.mp h)
            · rcases ih h with h | ⟨x, hx, hc⟩
              · exact .inl h
              · exact .inr ⟨x, List.mem_cons_of_mem l hx, hc⟩

/-- Quotes around a text that has none come off again. -/
lemma trimMatches_quoted {c : Char} {s : String} (h : c ∉ s.toList) :
    trimMatches (· == c) (String.singleton c ++ s ++ String.singleton c) = s := by
  have hl : ∀ x ∈ s.toList, ¬ (x == c) = true := by
    intro x hx hxc
    exact h (eq_of_beq hxc ▸ hx)
  have hstart : (s.toList ++ [c]).dropWhile (· == c) =
      if s.toList = [] then [] else s.toList ++ [c] := by
    cases hs : s.toList with
    | nil => simp
    | cons a rest =>
        have ha : ¬ (a == c) = true := hl a (hs ▸ List.mem_cons_self)
        simp [ha]
  have hend : (s.toList ++ [c]).rdropWhile (· == c) = s.toList := by
    have hlast : (c == c) = true := beq_self_eq_true c
    rw [List.rdropWhile_concat, if_pos hlast]
    exact List.rdropWhile_eq_self_iff.mpr fun hne => hl _ (List.getLast_mem hne)
  have hlist : (String.singleton c ++ s ++ String.singleton c).toList = c :: (s.toList ++ [c]) := by
    simp
  have hfirst : (c :: (s.toList ++ [c])).dropWhile (· == c) =
      (s.toList ++ [c]).dropWhile (· == c) := by
    simp
  simp only [trimMatches, trimEnd, trimStart, hlist, hfirst, hstart, String.toList_ofList]
  split_ifs with hs
  · exact String.toList_injective (by simp [hs])
  · rw [hend, String.ofList_toList]

/-- A character at the end that is trimmed off, behind a text that is not. -/
lemma trimEnd_snoc {p : Char → Bool} {c : Char} {s : String} (hc : p c = true)
    (hs : ∀ x ∈ s.toList, p x = false) : trimEnd p (s ++ String.singleton c) = s := by
  rw [trimEnd, String.toList_append, String.toList_singleton, List.rdropWhile_concat, if_pos hc,
    List.rdropWhile_eq_self_iff.mpr fun hne => ?_, String.ofList_toList]
  rw [hs _ (List.getLast_mem hne)]
  exact Bool.false_ne_true

/-- A text without white space has none around it. -/
lemma trim_eq_self {s : String} (h : ∀ c ∈ s.toList, isWhitespace c = false) : trim s = s := by
  have hstart : s.toList.dropWhile isWhitespace = s.toList := by
    cases hs : s.toList with
    | nil => rfl
    | cons a rest =>
        have ha : isWhitespace a = false := h a (hs ▸ List.mem_cons_self)
        rw [List.dropWhile_cons_of_neg (by rw [ha]; exact Bool.false_ne_true)]
  have hend : s.toList.rdropWhile isWhitespace = s.toList := by
    refine List.rdropWhile_eq_self_iff.mpr fun hne => ?_
    rw [h _ (List.getLast_mem hne)]
    exact Bool.false_ne_true
  rw [trim, trimMatches, trimEnd, trimStart, hstart, String.ofList_toList, hend,
    String.ofList_toList]

/-- Pieces joined by a character that none of them has come apart again. -/
lemma split_joined {c : Char} {pieces : List String} (hne : pieces ≠ [])
    (h : ∀ s ∈ pieces, c ∉ s.toList) :
    split c (String.intercalate (String.singleton c) pieces) = pieces := by
  have hback : (pieces.map String.toList).map String.ofList = pieces := by
    rw [List.map_map]
    refine (List.map_congr_left fun s _ => ?_).trans (List.map_id pieces)
    exact String.ofList_toList
  rw [split, String.toList_intercalate, String.toList_singleton, List.splitOn_intercalate]
  · exact hback
  · intro l hl
    obtain ⟨s, hs, rfl⟩ := List.mem_map.mp hl
    exact h s hs
  · simpa using hne

/-- Joined pieces are the first one, and each other one behind a separator. -/
lemma intercalate_cons (sep s : String) (l : List String) :
    String.intercalate sep (s :: l) = s ++ l.foldr (fun t rest => sep ++ t ++ rest) "" := by
  induction l generalizing s with
  | nil => rw [String.intercalate_singleton, List.foldr_nil, String.append_empty]
  | cons t l ih =>
      rw [String.intercalate_cons_cons, ih, List.foldr_cons]
      simp only [String.append_assoc]

/-! ## ASCII -/

/-- A text of ASCII characters has as many bytes as characters. -/
lemma utf8ByteSize_ascii {s : String} (h : ∀ c ∈ s.toList, c.toNat < 128) :
    s.utf8ByteSize = s.toList.length := by
  have hone : ∀ c : Char, c.toNat < 128 → c.utf8Size = 1 := by
    intro c hc
    have hval : c.val ≤ 127 := by
      rw [UInt32.le_iff_toNat_le]
      exact Nat.le_of_lt_succ hc
    exact if_pos hval
  have hlen : ∀ l : List Char, (∀ c ∈ l, c.toNat < 128) →
      (String.ofList l).utf8ByteSize = l.length := by
    intro l hl
    induction l with
    | nil => rfl
    | cons a l ih =>
        have hsplit : String.ofList (a :: l) = String.ofList [a] ++ String.ofList l := by
          rw [← String.ofList_append]
          rfl
        have hfirst : (String.ofList [a]).utf8ByteSize = 1 := by
          rw [← String.singleton_eq_ofList, String.utf8ByteSize_singleton]
          exact hone a (hl a List.mem_cons_self)
        rw [hsplit, String.utf8ByteSize_append, hfirst,
          ih fun c hc => hl c (List.mem_cons_of_mem a hc), List.length_cons, Nat.add_comm]
  have h' := hlen s.toList h
  rwa [String.ofList_toList] at h'

/-! ## Searching -/

/-- `p` occurs in `s`. -/
def HasText (p s : String) : Prop :=
  p.toList <:+: s.toList

instance (p s : String) : Decidable (HasText p s) :=
  inferInstanceAs (Decidable (_ <:+: _))

/-- A text occurs between any two others. -/
lemma hasText_append (a p b : String) : HasText p (a ++ p ++ b) :=
  ⟨a.toList, b.toList, by simp⟩

/-- A text with a character that `s` lacks doesn't occur in `s`. -/
lemma not_hasText {p s : String} {c : Char} (hp : c ∈ p.toList) (hs : c ∉ s.toList) :
    ¬ HasText p s :=
  fun h => hs (h.subset hp)

/-- `s` ends with `p`. -/
def EndsWith (p s : String) : Prop :=
  p.toList <:+ s.toList

instance (p s : String) : Decidable (EndsWith p s) :=
  inferInstanceAs (Decidable (_ <:+ _))

/-! ## Characters of a text

Facts of the form "a text of such characters stays the same under an operation". -/

/-- Every character of `s` satisfies `p`. -/
def AllChars (p : Char → Bool) (s : String) : Prop :=
  s.toList.all p

instance (p : Char → Bool) (s : String) : Decidable (AllChars p s) :=
  inferInstanceAs (Decidable (_ = true))

lemma allChars_iff {p : Char → Bool} {s : String} :
    AllChars p s ↔ ∀ c ∈ s.toList, p c := by
  simp [AllChars]

lemma AllChars.append {p : Char → Bool} {a b : String} (ha : AllChars p a)
    (hb : AllChars p b) : AllChars p (a ++ b) := by
  rw [AllChars, String.toList_append, List.all_append, ha, hb, Bool.and_self]

/-! ## Bytes -/

/-- The UTF-8 bytes of a text. -/
def utf8 (s : String) : List UInt8 := s.toByteArray.data.toList

lemma utf8_append (a b : String) : utf8 (a ++ b) = utf8 a ++ utf8 b := by
  simp [utf8]

lemma utf8_injective {a b : String} (h : utf8 a = utf8 b) : a = b :=
  String.toByteArray_inj.mp (ByteArray.ext (Array.ext' h))

end Text
