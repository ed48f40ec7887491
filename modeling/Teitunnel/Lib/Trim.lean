import Teitunnel.Lib.Text

/-!
# Trimmed texts

A text without white space at its ends is what it is trimmed to; lower case neither makes nor
takes white space; and a text split at a character is what is before and behind it.
-/

namespace Text

/-- The text has no white space in front. -/
def NoLeadingSpace (s : String) : Prop := ∀ c ∈ s.toList.head?, isWhitespace c = false

instance (s : String) : Decidable (NoLeadingSpace s) :=
  inferInstanceAs (Decidable (∀ c ∈ s.toList.head?, _))

lemma noLeadingSpace_of {s : String} {c : Char} (h : s.toList.head? = some c)
    (hc : isWhitespace c = false) : NoLeadingSpace s := by
  intro d hd
  rw [Option.mem_def, h] at hd
  obtain rfl := Option.some.inj hd
  exact hc

/-- The text has no white space behind. -/
def NoTrailingSpace (s : String) : Prop := ∀ c ∈ s.toList.getLast?, isWhitespace c = false

lemma dropWhile_eq_self {α : Type} {p : α → Bool} {l : List α} (h : ∀ a ∈ l.head?, p a = false) :
    l.dropWhile p = l := by
  cases l with
  | nil => rfl
  | cons a l =>
      rw [List.dropWhile_cons_of_neg]
      rw [h a rfl]
      exact Bool.false_ne_true

lemma rdropWhile_eq_self {α : Type} {p : α → Bool} {l : List α}
    (h : ∀ a ∈ l.getLast?, p a = false) : l.rdropWhile p = l := by
  refine List.rdropWhile_eq_self_iff.mpr fun hne => ?_
  rw [h _ (List.getLast?_eq_some_getLast hne)]
  exact Bool.false_ne_true

/-- What has no white space at its ends stays. -/
lemma trim_eq {s : String} (h : NoLeadingSpace s) (h' : NoTrailingSpace s) : trim s = s := by
  rw [trim, trimMatches, trimEnd, trimStart, dropWhile_eq_self h, String.ofList_toList,
    rdropWhile_eq_self h', String.ofList_toList]

lemma head_dropWhile {α : Type} {p : α → Bool} {l : List α} {a : α}
    (h : a ∈ (l.dropWhile p).head?) : p a = false := by
  have hfirst := List.head?_dropWhile_not p l
  rw [Option.mem_def.mp h] at hfirst
  exact hfirst

lemma mem_getLast?_of_suffix {α : Type} {l l' : List α} (h : l' <:+ l) {a : α}
    (ha : a ∈ l'.getLast?) : a ∈ l.getLast? := by
  obtain ⟨front, rfl⟩ := h
  rw [List.getLast?_append, Option.mem_def.mp ha]
  rfl

lemma noTrailingSpace_trim (s : String) : NoTrailingSpace (trim s) := by
  intro c hc
  rw [trim, trimMatches, trimEnd, String.toList_ofList] at hc
  obtain ⟨hne, rfl⟩ := List.mem_getLast?_eq_getLast hc
  exact Bool.eq_false_iff.mpr (List.rdropWhile_last_not _ _ hne)

lemma noLeadingSpace_trim (s : String) : NoLeadingSpace (trim s) := by
  intro c hc
  rw [trim, trimMatches, trimEnd, trimStart, String.toList_ofList, String.toList_ofList] at hc
  have hbegins : (s.toList.dropWhile isWhitespace).rdropWhile isWhitespace <+:
      s.toList.dropWhile isWhitespace := List.rdropWhile_prefix _ _
  obtain ⟨rest, hrest⟩ := hbegins
  have hhead : c ∈ (s.toList.dropWhile isWhitespace).head? := by
    rw [← hrest, List.head?_append, Option.mem_def.mp hc]
    rfl
  exact head_dropWhile hhead

lemma trimEnd_eq_self {p : Char → Bool} {s : String} (h : ∀ c ∈ s.toList.getLast?, p c = false) :
    trimEnd p s = s := by
  rw [trimEnd, rdropWhile_eq_self h, String.ofList_toList]

lemma trimStart_eq_self {p : Char → Bool} {s : String} (h : ∀ c ∈ s.toList.head?, p c = false) :
    trimStart p s = s := by
  rw [trimStart, dropWhile_eq_self h, String.ofList_toList]

/-- With something in front that has no space there, the end decides. -/
lemma trim_append {a s : String} (ha : NoLeadingSpace a) (hne : a ≠ "") (hs : NoTrailingSpace s)
    (hne' : s ≠ "") : trim (a ++ s) = a ++ s := by
  have hnil : a.toList ≠ [] := fun hnil => hne (String.toList_injective hnil)
  have hnil' : s.toList ≠ [] := fun hnil => hne' (String.toList_injective hnil)
  refine trim_eq ?_ ?_
  · intro c hc
    rw [String.toList_append, List.head?_append_of_ne_nil _ hnil] at hc
    exact ha c hc
  · intro c hc
    rw [String.toList_append, List.getLast?_append_of_ne_nil _ hnil'] at hc
    exact hs c hc

lemma length_trim_le (s : String) : (trim s).toList.length ≤ s.toList.length := by
  rw [trim, trimMatches, trimEnd, trimStart, String.toList_ofList, String.toList_ofList]
  exact (List.rdropWhile_prefix _ _).length_le.trans (List.dropWhile_suffix _).length_le

/-! ## Characters -/

/-- Between a space and the end of ASCII nothing is white space. -/
lemma not_isWhitespace {c : Char} (h : 33 ≤ c.toNat ∧ c.toNat ≤ 126) : isWhitespace c = false := by
  rw [isWhitespace]
  simp only [Bool.or_eq_false_iff, Bool.and_eq_false_iff, decide_eq_false_iff_not, beq_eq_false_iff_ne]
  omega

/-- A letter in lower case is one of 26, and any other character stays. -/
lemma toLower_cases (c : Char) :
    c.toLower = c ∨ (65 ≤ c.toNat ∧ c.toNat ≤ 90) ∧ c.toLower.toNat = c.toNat + 32 := by
  by_cases hupper : c.isUpper = true
  · right
    have hrange : 65 ≤ c.toNat ∧ c.toNat ≤ 90 := by
      simpa [Char.isUpper, UInt32.le_iff_toNat_le] using hupper
    refine ⟨hrange, ?_⟩
    rw [Char.toLower_eq_of_isUpper hupper, Char.toNat_ofNat, if_pos]
    exact .inl (by omega)
  · exact .inl (Char.toLower_eq_of_not_isUpper hupper)

lemma isWhitespace_toLower (c : Char) : isWhitespace c.toLower = isWhitespace c := by
  rcases toLower_cases c with hsame | ⟨hrange, hlower⟩
  · rw [hsame]
  · rw [not_isWhitespace (by omega), not_isWhitespace (by omega)]

/-- Only letters are lower-case forms of other characters. -/
lemma toLower_eq {c d : Char} (h : c.toLower = d) (hd : ¬ (97 ≤ d.toNat ∧ d.toNat ≤ 122)) :
    c = d := by
  rcases toLower_cases c with hsame | ⟨hrange, hlower⟩
  · rw [← hsame, h]
  · rw [h] at hlower
    omega

lemma toLower_eq_at {c : Char} (h : c.toLower = '@') : c = '@' := toLower_eq h (by decide)

/-- A text has as many bytes in lower case. -/
lemma utf8ByteSize_toAsciiLowercase (s : String) :
    (toAsciiLowercase s).utf8ByteSize = s.utf8ByteSize := by
  have hchar : ∀ c : Char, c.toLower.utf8Size = c.utf8Size := by
    intro c
    rcases toLower_cases c with hsame | ⟨hrange, hlower⟩
    · rw [hsame]
    · have hone : ∀ d : Char, d.toNat ≤ 127 → d.utf8Size = 1 := by
        intro d hd
        exact if_pos (by rw [UInt32.le_iff_toNat_le]; exact hd)
      rw [hone _ (by omega), hone _ (by omega)]
  have hlist : ∀ l : List Char,
      (String.ofList (l.map Char.toLower)).utf8ByteSize = (String.ofList l).utf8ByteSize := by
    intro l
    induction l with
    | nil => rfl
    | cons c l ih =>
        rw [List.map_cons, ← List.singleton_append, ← List.singleton_append (l := l),
          String.ofList_append, String.ofList_append, String.utf8ByteSize_append,
          String.utf8ByteSize_append, ih, ← String.singleton_eq_ofList, ← String.singleton_eq_ofList,
          String.utf8ByteSize_singleton, String.utf8ByteSize_singleton, hchar]
  rw [toAsciiLowercase, hlist, String.ofList_toList]

/-! ## Splitting -/

lemma splitOnce_none {c : Char} {s : String} (h : c ∉ s.toList) : splitOnce c s = none := by
  have hfirst : ∀ l : List Char, c ∉ l → splitFirst (· == c) l = none := by
    intro l hl
    induction l with
    | nil => rfl
    | cons a l ih =>
        have hne : (a == c) = false :=
          beq_eq_false_iff_ne.mpr fun heq => hl (heq ▸ List.mem_cons_self)
        rw [splitFirst, hne, ih fun hmem => hl (List.mem_cons_of_mem a hmem)]
        rfl
  rw [splitOnce, splitOnceBy, hfirst _ h]
  rfl

lemma splitFirst_eq_some {p : Char → Bool} {l x y : List Char} (h : splitFirst p l = some (x, y)) :
    (∀ a ∈ x, p a = false) ∧ ∃ c, p c = true ∧ l = x ++ c :: y := by
  induction l generalizing x with
  | nil => simp [splitFirst] at h
  | cons d l ih =>
      rw [splitFirst] at h
      split_ifs at h with hd
      · obtain ⟨rfl, rfl⟩ := Prod.mk.inj (Option.some.inj h)
        exact ⟨fun _ hmem => absurd hmem List.not_mem_nil, d, hd, rfl⟩
      · obtain ⟨⟨x', y'⟩, hfound, heq⟩ := Option.map_eq_some_iff.mp h
        obtain ⟨rfl, rfl⟩ := Prod.mk.inj heq
        obtain ⟨hx, c, hc, rfl⟩ := ih hfound
        refine ⟨fun a ha => ?_, c, hc, rfl⟩
        rcases List.mem_cons.mp ha with rfl | ha
        · exact Bool.eq_false_iff.mpr hd
        · exact hx a ha

lemma splitOnce_eq {c : Char} {s a b : String} (h : splitOnce c s = some (a, b)) :
    s = a ++ String.singleton c ++ b := by
  obtain ⟨⟨x, y⟩, hfound, heq⟩ := Option.map_eq_some_iff.mp h
  obtain ⟨rfl, rfl⟩ := Prod.mk.inj heq
  obtain ⟨-, d, hd, hlist⟩ := splitFirst_eq_some hfound
  obtain rfl := eq_of_beq hd
  refine String.toList_injective ?_
  simp [hlist]

lemma splitOnce_eq_some {c : Char} {s a b : String} :
    splitOnce c s = some (a, b) ↔ s = a ++ String.singleton c ++ b ∧ c ∉ a.toList := by
  constructor
  · intro h
    refine ⟨splitOnce_eq h, fun hmem => ?_⟩
    obtain ⟨⟨x, y⟩, hfound, heq⟩ := Option.map_eq_some_iff.mp h
    obtain ⟨rfl, rfl⟩ := Prod.mk.inj heq
    rw [String.toList_ofList] at hmem
    have hnot := (splitFirst_eq_some hfound).1 c hmem
    rw [beq_self_eq_true] at hnot
    cases hnot
  · rintro ⟨rfl, ha⟩
    exact splitOnce_append ha

lemma split_append {c : Char} {a b : String} (ha : c ∉ a.toList) :
    split c (a ++ String.singleton c ++ b) = a :: split c b := by
  have hlist : (a ++ String.singleton c ++ b).toList = a.toList ++ c :: b.toList := by simp
  have hnot : ∀ x ∈ a.toList, (x == c) = false := fun x hx =>
    beq_eq_false_iff_ne.mpr fun heq => ha (heq ▸ hx)
  rw [split, hlist, List.splitOn, List.splitOnP_append_cons_of_forall_mem hnot c (beq_self_eq_true c),
    List.map_cons, String.ofList_toList]
  rfl

lemma split_ne_nil (c : Char) (s : String) : split c s ≠ [] := by
  rw [split, Ne, List.map_eq_nil_iff]
  exact List.splitOn_ne_nil c s.toList

lemma split_of_not_mem {c : Char} {s : String} (h : c ∉ s.toList) : split c s = [s] := by
  have hnot : ∀ x ∈ s.toList, (x == c) = false := fun x hx =>
    beq_eq_false_iff_ne.mpr fun heq => h (heq ▸ hx)
  rw [split, List.splitOn, List.splitOnP_eq_singleton hnot, List.map_singleton, String.ofList_toList]

/-- A text is cut at its first `c`, if it has one. -/
lemma exists_cut {c : Char} {s : String} (h : c ∈ s.toList) :
    ∃ a b, s = a ++ String.singleton c ++ b ∧ c ∉ a.toList := by
  obtain ⟨x, y, hsplit, hx⟩ := List.eq_append_cons_of_mem h
  refine ⟨String.ofList x, String.ofList y, ?_, by rwa [String.toList_ofList]⟩
  refine String.toList_injective ?_
  simp [hsplit]

/-- A text ends with its last piece, after a separator unless it is its only piece. -/
lemma getLast?_split {c : Char} {s t : String} (h : (split c s).getLast? = some t) :
    s = t ∨ ∃ front, s = front ++ String.singleton c ++ t := by
  induction hlen : s.toList.length using Nat.strong_induction_on generalizing s with
  | _ n ih =>
    by_cases hc : c ∈ s.toList
    · obtain ⟨a, b, rfl, ha⟩ := exists_cut hc
      rw [split_append ha, List.getLast?_cons_of_ne_nil (split_ne_nil c b)] at h
      have hlt : b.toList.length < n := by
        rw [← hlen, String.toList_append, String.toList_append, List.length_append, List.length_append]
        simp
      rcases ih _ hlt h rfl with rfl | ⟨front, rfl⟩
      · exact .inr ⟨a, rfl⟩
      · exact .inr ⟨a ++ String.singleton c ++ front, by simp only [String.append_assoc]⟩
    · rw [split_of_not_mem hc] at h
      exact .inl (Option.some.inj h)

lemma rsplitOnce_eq {c : Char} {s a b : String} (h : rsplitOnce c s = some (a, b)) :
    s = a ++ String.singleton c ++ b := by
  obtain ⟨⟨x, y⟩, hfound, heq⟩ := Option.map_eq_some_iff.mp h
  obtain ⟨rfl, rfl⟩ := Prod.mk.inj heq
  obtain ⟨-, d, hd, hlist⟩ := splitFirst_eq_some hfound
  obtain rfl := eq_of_beq hd
  have hrev := congrArg List.reverse hlist
  rw [List.reverse_reverse] at hrev
  refine String.toList_injective ?_
  simp [hrev]

lemma rsplitOnce_append {c : Char} {a b : String} (hb : c ∉ b.toList) :
    rsplitOnce c (a ++ String.singleton c ++ b) = some (a, b) := by
  have hlist : (a ++ String.singleton c ++ b).toList.reverse =
      b.toList.reverse ++ c :: a.toList.reverse := by simp
  have hnot : ∀ x ∈ b.toList.reverse, (x == c) = false := fun x hx =>
    beq_eq_false_iff_ne.mpr fun heq => hb (heq ▸ List.mem_reverse.mp hx)
  rw [rsplitOnce, hlist, splitFirst_append hnot (beq_self_eq_true c)]
  simp

end Text
