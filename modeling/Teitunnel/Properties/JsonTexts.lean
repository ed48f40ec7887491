import Teitunnel.Reference

/-!
# JSON text reads back in one way

Compact JSON text is a prefix code for strings, and for values followed by what may follow a value:
two texts that agree begin with the same value.
-/

namespace Teitunnel

open Text

/-! ## Strings -/

/-- The digit that a hexadecimal character stands for. -/
def hexValue (c : Char) : ℕ := "0123456789abcdef".toList.idxOf c

lemma hexValue_hexDigit : ∀ d : Fin 16, hexValue (hexDigit d) = d.val := by
  decide

/-- The character of an escape with four digits, and what follows it. -/
def unescapeHex : List Char → Option (Char × List Char)
  | _ :: _ :: high :: low :: rest => some (Char.ofNat (hexValue high * 16 + hexValue low), rest)
  | _ => none

/-- The first character of a JSON string's text, and what follows it. -/
def unescape : List Char → Option (Char × List Char)
  | [] => none
  | [c] => if c = '"' ∨ c = '\\' then none else some (c, [])
  | c :: d :: rest =>
      if c = '"' then none
      else if c = '\\' then
        if d = 'u' then unescapeHex rest
        else if d = 'n' then some ('\n', rest)
        else if d = 'r' then some ('\r', rest)
        else if d = 't' then some ('\t', rest)
        else if d = 'b' then some ('\x08', rest)
        else if d = 'f' then some ('\x0c', rest)
        else some (d, rest)
      else some (c, d :: rest)

lemma unescape_escapeChar (c : Char) (rest : List Char) :
    unescape ((escapeChar c).toList ++ rest) = some (c, rest) := by
  rw [escapeChar]
  split_ifs with hquote hslash hn hr ht hb hf hcontrol
  · rw [hquote]
    rfl
  · rw [hslash]
    rfl
  · rw [hn]
    rfl
  · rw [hr]
    rfl
  · rw [ht]
    rfl
  · rw [hb]
    rfl
  · rw [hf]
    rfl
  · have hlist : ("\\u00" ++ String.ofList [hexDigit (Sha256.lowDigit (c.toNat / 16)),
        hexDigit (Sha256.lowDigit c.toNat)]).toList ++ rest =
          '\\' :: 'u' :: '0' :: '0' :: hexDigit (Sha256.lowDigit (c.toNat / 16)) ::
            hexDigit (Sha256.lowDigit c.toNat) :: rest := by
      simp
    have hvalue : hexValue (hexDigit (Sha256.lowDigit (c.toNat / 16))) * 16 +
        hexValue (hexDigit (Sha256.lowDigit c.toNat)) = c.toNat := by
      rw [hexValue_hexDigit, hexValue_hexDigit]
      show c.toNat / 16 % 16 * 16 + c.toNat % 16 = c.toNat
      omega
    rw [hlist, unescape, if_neg (by decide), if_pos rfl, if_pos rfl, unescapeHex, hvalue,
      Char.ofNat_toNat]
  · have hlist : (String.singleton c).toList ++ rest = c :: rest := by simp
    rw [hlist]
    cases rest with
    | nil => rw [unescape, if_neg (not_or.mpr ⟨hquote, hslash⟩)]
    | cons d rest => rw [unescape, if_neg hquote, if_neg hslash]

lemma unescape_quote (rest : List Char) : unescape ('"' :: rest) = none := by
  cases rest <;> rfl

/-- The characters of a JSON string before its closing quote. -/
def stringBody (s : List Char) : List Char := s.flatMap fun c => (escapeChar c).toList

lemma stringBody_inj {s t x y : List Char} (h : stringBody s ++ '"' :: x = stringBody t ++ '"' :: y) :
    s = t ∧ x = y := by
  induction s generalizing t with
  | nil =>
      cases t with
      | nil => exact ⟨rfl, (List.cons.inj h).2⟩
      | cons d t =>
          have hread := congrArg unescape h
          rw [stringBody, stringBody, List.flatMap_nil, List.nil_append, unescape_quote,
            List.flatMap_cons, List.append_assoc, unescape_escapeChar] at hread
          cases hread
  | cons c s ih =>
      cases t with
      | nil =>
          have hread := congrArg unescape h
          rw [stringBody, stringBody, List.flatMap_nil, List.nil_append, unescape_quote,
            List.flatMap_cons, List.append_assoc, unescape_escapeChar] at hread
          cases hread
      | cons d t =>
          have hread := congrArg unescape h
          rw [stringBody, stringBody, List.flatMap_cons, List.flatMap_cons, List.append_assoc,
            List.append_assoc, unescape_escapeChar, unescape_escapeChar] at hread
          obtain ⟨rfl, hrest⟩ := Prod.mk.inj (Option.some.inj hread)
          obtain ⟨rfl, hxy⟩ := ih hrest
          exact ⟨rfl, hxy⟩

lemma toList_quoteText (s : String) : (quoteText s).toList = '"' :: (stringBody s.toList ++ ['"']) := by
  rw [quoteText, String.toList_append, String.toList_append, String.toList_join, List.flatMap_map]
  rfl

/-- A JSON string's text ends where it ends. -/
lemma quoteText_inj {s t : String} {x y : List Char}
    (h : (quoteText s).toList ++ x = (quoteText t).toList ++ y) : s = t ∧ x = y := by
  rw [toList_quoteText, toList_quoteText, List.cons_append, List.cons_append, List.append_assoc,
    List.append_assoc] at h
  obtain ⟨hs, hxy⟩ := stringBody_inj (List.cons.inj h).2
  exact ⟨String.toList_injective hs, hxy⟩

/-! ## Numbers -/

/-- A character of a number. -/
def isNumberChar (c : Char) : Bool := c.isDigit || "-+.eE".toList.contains c

/-- A number that is no integer is written as one. -/
def IsFloatText (text : String) : Prop :=
  (∀ c ∈ text.toList, isNumberChar c = true) ∧ ∃ c ∈ text.toList, ".eE".toList.contains c = true

/-- What may follow a value. -/
def Ends (x : List Char) : Prop := ∀ c ∈ x.head?, ",]\x7d".toList.contains c = true

lemma digit_of_nat {n : ℕ} {c : Char} (h : c ∈ (toString n).toList) : c.isDigit = true := by
  have hlist : (toString n).toList = Nat.toDigits 10 n := by simp
  rw [hlist] at h
  exact Nat.isDigit_of_mem_toDigits (by decide) (by decide) h

lemma isNumberChar_of_isDigit {c : Char} (h : c.isDigit = true) :
    isNumberChar c = true ∧ ".eE".toList.contains c = false := by
  refine ⟨by rw [isNumberChar, h]; rfl, ?_⟩
  have hall : ∀ d ∈ ".eE".toList, d.isDigit = false := by simp
  rw [Bool.eq_false_iff]
  intro hmem
  rw [hall c (List.contains_iff_mem.mp hmem)] at h
  cases h

/-- An integer's text is digits, perhaps after a sign. -/
lemma int_chars {n : ℤ} {c : Char} (h : c ∈ (toString n).toList) :
    isNumberChar c = true ∧ ".eE".toList.contains c = false := by
  cases n with
  | ofNat n => exact isNumberChar_of_isDigit (digit_of_nat h)
  | negSucc n =>
      have hlist : (toString (Int.negSucc n)).toList = '-' :: (toString (n + 1)).toList := by
        show ("-" ++ toString (n + 1)).toList = _
        rw [String.toList_append]
        rfl
      rw [hlist] at h
      rcases List.mem_cons.mp h with rfl | hdigit
      · decide
      · exact isNumberChar_of_isDigit (digit_of_nat hdigit)

lemma int_ne_nil (n : ℤ) : (toString n).toList ≠ [] := by
  cases n with
  | ofNat n =>
      have hlist : (toString (Int.ofNat n)).toList = Nat.toDigits 10 n := by
        show (toString n).toList = _
        simp
      rw [hlist]
      exact Nat.toDigits_ne_nil
  | negSucc n =>
      show ("-" ++ toString (n + 1)).toList ≠ []
      rw [String.toList_append]
      exact List.cons_ne_nil _ _

/-- A number's text ends where its characters end. -/
lemma number_inj {a b x y : List Char} (ha : ∀ c ∈ a, isNumberChar c = true)
    (hb : ∀ c ∈ b, isNumberChar c = true) (hx : Ends x) (hy : Ends y) (h : a ++ x = b ++ y) :
    a = b ∧ x = y := by
  have hstop : ∀ z : List Char, Ends z → z.takeWhile isNumberChar = [] := by
    intro z hz
    cases z with
    | nil => rfl
    | cons c z =>
        have hall : ",]\x7d".toList.all (fun d => !isNumberChar d) = true := by decide
        have hnot := List.all_eq_true.mp hall c (List.contains_iff_mem.mp (hz c (by simp)))
        rw [Bool.not_eq_true'] at hnot
        rw [List.takeWhile_cons, hnot, if_neg Bool.false_ne_true]
  have hread := congrArg (List.takeWhile isNumberChar) h
  rw [List.takeWhile_append_of_pos ha, List.takeWhile_append_of_pos hb, hstop x hx, hstop y hy,
    List.append_nil, List.append_nil] at hread
  subst hread
  exact ⟨rfl, List.append_cancel_left h⟩

/-! ## Values -/

mutual

/-- Numbers that are no integers are written as ones, all through a value. -/
def WellWritten : Json → Prop
  | .float text => IsFloatText text
  | .arr items => ItemsWritten items
  | .obj fields => FieldsWritten fields
  | _ => True

def ItemsWritten : List Json → Prop
  | [] => True
  | item :: rest => WellWritten item ∧ ItemsWritten rest

def FieldsWritten : List (String × Json) → Prop
  | [] => True
  | (_, value) :: rest => WellWritten value ∧ FieldsWritten rest

end

/-- What kind of value a text's first character begins. -/
def kindOfChar (c : Char) : ℕ :=
  if c = 'n' then 0
  else if c = 't' ∨ c = 'f' then 1
  else if isNumberChar c then 2
  else if c = '"' then 3
  else if c = '[' then 4
  else if c = '\x7b' then 5
  else 6

def kindOf : Json → ℕ
  | .null => 0
  | .bool _ => 1
  | .num _ | .float _ => 2
  | .str _ => 3
  | .arr _ => 4
  | .obj _ => 5

lemma kindOfChar_number {c : Char} (h : isNumberChar c = true) : kindOfChar c = 2 := by
  have hne : ∀ d, isNumberChar d = false → c ≠ d := by
    rintro d hd rfl
    rw [h] at hd
    cases hd
  rw [kindOfChar, if_neg (hne 'n' (by decide)),
    if_neg (not_or.mpr ⟨hne 't' (by decide), hne 'f' (by decide)⟩), if_pos h]

/-- A value's text begins with a character of its kind. -/
lemma exists_head {value : Json} (h : WellWritten value) :
    ∃ c rest, (writeJson value).toList = c :: rest ∧ kindOfChar c = kindOf value := by
  have hnumber : ∀ text : List Char, text ≠ [] → (∀ c ∈ text, isNumberChar c = true) →
      ∃ c rest, text = c :: rest ∧ kindOfChar c = 2 := by
    intro text hne hchars
    obtain ⟨c, rest, rfl⟩ := List.exists_cons_of_ne_nil hne
    exact ⟨c, rest, rfl, kindOfChar_number (hchars c List.mem_cons_self)⟩
  cases value with
  | null => exact ⟨'n', _, rfl, rfl⟩
  | bool b =>
      cases b with
      | true => exact ⟨'t', _, rfl, rfl⟩
      | false => exact ⟨'f', _, rfl, rfl⟩
  | num n => exact hnumber _ (int_ne_nil n) fun c hc => (int_chars hc).1
  | float text =>
      obtain ⟨hchars, c, hc, -⟩ : IsFloatText text := h
      exact hnumber text.toList (List.ne_nil_of_mem hc) hchars
  | str s => exact ⟨'"', _, toList_quoteText s, rfl⟩
  | arr items =>
      refine ⟨'[', (String.intercalate "," (writeItems items)).toList ++ [']'], ?_, rfl⟩
      rw [writeJson, String.toList_append, String.toList_append]
      rfl
  | obj fields =>
      refine ⟨'\x7b', (String.intercalate "," (writeFields fields)).toList ++ ['\x7d'], ?_, rfl⟩
      rw [writeJson, String.toList_append, String.toList_append]
      rfl

/-- A value's text begins no text that closes a list. -/
lemma writeJson_ne {value : Json} {close : Char} {rest x : List Char} (h : WellWritten value)
    (hclose : kindOfChar close = 6) : (writeJson value).toList ++ rest ≠ close :: x := by
  obtain ⟨c, more, hlist, hkind⟩ := exists_head h
  intro heq
  rw [hlist] at heq
  obtain rfl := (List.cons.inj heq).1
  rw [hclose] at hkind
  cases value <;> cases hkind

/-! ## Lists -/

/-- The text of a list's items, its closing bracket and what follows. -/
def listText (texts : List String) (close : Char) (x : List Char) : List Char :=
  (String.intercalate "," texts).toList ++ close :: x

/-- What follows the first item of a list. -/
def restText (texts : List String) (close : Char) (x : List Char) : List Char :=
  if texts = [] then close :: x else ',' :: listText texts close x

lemma listText_cons (text : String) (texts : List String) (close : Char) (x : List Char) :
    listText (text :: texts) close x = text.toList ++ restText texts close x := by
  cases texts with
  | nil => simp [listText, restText]
  | cons other texts =>
      rw [listText, String.intercalate_cons_cons, String.toList_append, String.toList_append]
      simp [listText, restText]

lemma ends_of_head {c : Char} (h : ",]\x7d".toList.contains c = true) (x : List Char) :
    Ends (c :: x) := by
  intro d hd
  obtain rfl := Option.some.inj hd
  exact h

lemma ends_restText {close : Char} (hclose : ",]\x7d".toList.contains close = true)
    (texts : List String) (x : List Char) : Ends (restText texts close x) := by
  rw [restText]
  split_ifs
  · exact ends_of_head hclose x
  · exact ends_of_head (by decide) _

section lists

variable {α : Type} {write : α → String} {P : α → Prop} {close : Char} {l l' : List α}
  {x y : List Char}

/-- Lists whose items read back do so themselves. -/
lemma list_inj (hclose : ",]\x7d".toList.contains close = true) (hcomma : close ≠ ',')
    (hne : ∀ a, P a → ∀ rest x, (write a).toList ++ rest ≠ close :: x) (hl : ∀ a ∈ l, P a)
    (hl' : ∀ a ∈ l', P a)
    (hreads : ∀ a ∈ l, ∀ b x y, P b → Ends x → Ends y →
      (write a).toList ++ x = (write b).toList ++ y → a = b ∧ x = y)
    (heq : listText (l.map write) close x = listText (l'.map write) close y) : l = l' ∧ x = y := by
  induction l generalizing l' with
  | nil =>
      cases l' with
      | nil => exact ⟨rfl, (List.cons.inj heq).2⟩
      | cons b l' =>
          rw [List.map_cons, listText_cons] at heq
          exact absurd heq.symm (hne b (hl' b List.mem_cons_self) _ _)
  | cons a l ih =>
      cases l' with
      | nil =>
          rw [List.map_cons, listText_cons] at heq
          exact absurd heq (hne a (hl a List.mem_cons_self) _ _)
      | cons b l' =>
          rw [List.map_cons, List.map_cons, listText_cons, listText_cons] at heq
          obtain ⟨rfl, hrest⟩ := hreads a List.mem_cons_self b _ _ (hl' b List.mem_cons_self)
            (ends_restText hclose _ x) (ends_restText hclose _ y) heq
          cases l with
          | nil =>
              cases l' with
              | nil => exact ⟨rfl, (List.cons.inj hrest).2⟩
              | cons c l' => exact absurd (List.cons.inj hrest).1 hcomma
          | cons d l =>
              cases l' with
              | nil => exact absurd (List.cons.inj hrest).1.symm hcomma
              | cons c l' =>
                  obtain ⟨hsame, hxy⟩ := ih (fun e he => hl e (List.mem_cons_of_mem _ he))
                    (fun e he => hl' e (List.mem_cons_of_mem _ he))
                    (fun e he => hreads e (List.mem_cons_of_mem _ he)) (List.cons.inj hrest).2
                  exact ⟨congrArg (a :: ·) hsame, hxy⟩

end lists

/-! ## The whole text -/

/-- A value's text is followed by what follows it, whatever other value the text may be one of. -/
def Reads (value : Json) : Prop :=
  ∀ other x y, WellWritten other → Ends x → Ends y →
    (writeJson value).toList ++ x = (writeJson other).toList ++ y → value = other ∧ x = y

/-- A field as it is written. -/
def writeField (field : String × Json) : String := quoteText field.1 ++ ":" ++ writeJson field.2

lemma writeItems_eq (items : List Json) : writeItems items = items.map writeJson := by
  induction items with
  | nil => rfl
  | cons item items ih => rw [writeItems, ih, List.map_cons]

lemma writeFields_eq (fields : List (String × Json)) :
    writeFields fields = fields.map writeField := by
  induction fields with
  | nil => rfl
  | cons field fields ih =>
      obtain ⟨name, value⟩ := field
      rw [writeFields, ih, List.map_cons]
      rfl

lemma itemsWritten_iff {items : List Json} :
    ItemsWritten items ↔ ∀ item ∈ items, WellWritten item := by
  induction items with
  | nil => exact iff_of_true trivial fun item h => absurd h List.not_mem_nil
  | cons item items ih => rw [ItemsWritten, List.forall_mem_cons, ih]

lemma fieldsWritten_iff {fields : List (String × Json)} :
    FieldsWritten fields ↔ ∀ field ∈ fields, WellWritten field.2 := by
  induction fields with
  | nil => exact iff_of_true trivial fun item h => absurd h List.not_mem_nil
  | cons field fields ih =>
      obtain ⟨name, value⟩ := field
      rw [FieldsWritten, List.forall_mem_cons, ih]

lemma toList_arr (items : List Json) (x : List Char) :
    (writeJson (.arr items)).toList ++ x = '[' :: listText (items.map writeJson) ']' x := by
  rw [writeJson, String.toList_append, String.toList_append, writeItems_eq, listText]
  simp

lemma toList_obj (fields : List (String × Json)) (x : List Char) :
    (writeJson (.obj fields)).toList ++ x =
      '\x7b' :: listText (fields.map writeField) '\x7d' x := by
  rw [writeJson, String.toList_append, String.toList_append, writeFields_eq, listText]
  simp

lemma toList_writeField (field : String × Json) (x : List Char) :
    (writeField field).toList ++ x =
      (quoteText field.1).toList ++ ':' :: ((writeJson field.2).toList ++ x) := by
  rw [writeField, String.toList_append, String.toList_append, List.append_assoc, List.append_assoc]
  rfl

lemma writeField_ne (field : String × Json) (rest x : List Char) :
    (writeField field).toList ++ rest ≠ '\x7d' :: x := by
  rw [toList_writeField, toList_quoteText]
  intro heq
  exact absurd (List.cons.inj heq).1 (by decide)

lemma kind_of_text {value other : Json} {x y : List Char} (h : WellWritten value)
    (h' : WellWritten other)
    (heq : (writeJson value).toList ++ x = (writeJson other).toList ++ y) :
    kindOf value = kindOf other := by
  obtain ⟨c, rest, hlist, hkind⟩ := exists_head h
  obtain ⟨d, rest', hlist', hkind'⟩ := exists_head h'
  rw [hlist, hlist'] at heq
  obtain rfl := (List.cons.inj heq).1
  exact hkind.symm.trans hkind'

/-- A number's text is one of no other number. -/
lemma numbers_differ {n : ℤ} {text : String} (h : IsFloatText text) :
    (toString n).toList ≠ text.toList := by
  obtain ⟨-, c, hc, hmark⟩ := h
  intro heq
  rw [(int_chars (heq ▸ hc)).2] at hmark
  cases hmark

/-- A value's text reads back as that value and nothing else. -/
theorem reads_of_written {value : Json} (h : WellWritten value) : Reads value := by
  induction hsize : sizeOf value using Nat.strong_induction_on generalizing value with
  | _ size ih =>
  subst hsize
  intro other x y hother hx hy heq
  have hkind := kind_of_text h hother heq
  cases value with
  | null =>
      cases other with
      | null => exact ⟨rfl, List.append_cancel_left heq⟩
      | _ => cases hkind
  | bool b =>
      cases other with
      | bool b' =>
          cases b <;> cases b'
          · exact ⟨rfl, List.append_cancel_left heq⟩
          · exact absurd (List.cons.inj heq).1 (by decide)
          · exact absurd (List.cons.inj heq).1 (by decide)
          · exact ⟨rfl, List.append_cancel_left heq⟩
      | _ => cases hkind
  | num n =>
      cases other with
      | num m =>
          obtain ⟨htext, hxy⟩ := number_inj (fun c hc => (int_chars hc).1)
            (fun c hc => (int_chars hc).1) hx hy heq
          have hsame : n = m := Int.repr_injective (String.toList_injective htext)
          exact ⟨congrArg Json.num hsame, hxy⟩
      | float text =>
          have hfloat : IsFloatText text := hother
          obtain ⟨htext, -⟩ := number_inj (fun c hc => (int_chars hc).1) hfloat.1 hx hy heq
          exact absurd htext (numbers_differ hfloat)
      | _ => cases hkind
  | float text =>
      have hfloat : IsFloatText text := h
      cases other with
      | num m =>
          obtain ⟨htext, -⟩ := number_inj hfloat.1 (fun c hc => (int_chars hc).1) hx hy heq
          exact absurd htext.symm (numbers_differ hfloat)
      | float text' =>
          have hfloat' : IsFloatText text' := hother
          obtain ⟨htext, hxy⟩ := number_inj hfloat.1 hfloat'.1 hx hy heq
          exact ⟨congrArg Json.float (String.toList_injective htext), hxy⟩
      | _ => cases hkind
  | str s =>
      cases other with
      | str s' =>
          obtain ⟨rfl, hxy⟩ := quoteText_inj heq
          exact ⟨rfl, hxy⟩
      | _ => cases hkind
  | arr items =>
      cases other with
      | arr others =>
          have hitems := itemsWritten_iff.mp h
          rw [toList_arr, toList_arr] at heq
          obtain ⟨rfl, hxy⟩ := list_inj (P := WellWritten) (by decide) (by decide)
            (fun item hitem rest x => writeJson_ne hitem (by decide)) hitems
            (itemsWritten_iff.mp hother)
            (fun item hmem => ih (sizeOf item) (by
              have hlt := List.sizeOf_lt_of_mem hmem
              simp only [Json.arr.sizeOf_spec]
              omega) (hitems item hmem) rfl)
            (List.cons.inj heq).2
          exact ⟨rfl, hxy⟩
      | _ => cases hkind
  | obj fields =>
      cases other with
      | obj others =>
          have hfields := fieldsWritten_iff.mp h
          rw [toList_obj, toList_obj] at heq
          obtain ⟨rfl, hxy⟩ := list_inj (P := fun field => WellWritten field.2) (by decide)
            (by decide) (fun field _ rest x => writeField_ne field rest x) hfields
            (fieldsWritten_iff.mp hother) (fun field hmem other x y hother hx hy heq => by
              rw [toList_writeField, toList_writeField] at heq
              obtain ⟨hname, hrest⟩ := quoteText_inj heq
              have hlt := List.sizeOf_lt_of_mem hmem
              have hreads := ih (sizeOf field.2) (by
                simp only [Json.obj.sizeOf_spec]
                have hfield : sizeOf field = 1 + sizeOf field.1 + sizeOf field.2 := rfl
                omega) (hfields field hmem) rfl
              obtain ⟨hvalue, hxy⟩ := hreads other.2 x y hother hx hy (List.cons.inj hrest).2
              exact ⟨Prod.ext hname hvalue, hxy⟩)
            (List.cons.inj heq).2
          exact ⟨rfl, hxy⟩
      | _ => cases hkind

/-- Two values with one text are the same. -/
lemma writeJson_injective {value other : Json} (h : WellWritten value) (h' : WellWritten other)
    (heq : writeJson value = writeJson other) : value = other := by
  have hnil : Ends [] := fun c hc => by cases hc
  refine (reads_of_written h other [] [] h' hnil hnil ?_).1
  rw [heq]

end Teitunnel
