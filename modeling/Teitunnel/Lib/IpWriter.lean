import Teitunnel.Lib.IpText

/-!
# Addresses written

The text of an address: four numbers with dots between, or eight groups in hexadecimal with `::`
for the longest run of zeros, an IPv4-mapped address with its last part in dotted form.  Reading it
gives the address back.
-/

namespace IpText

/-- A number's digits. -/
def writeNumber (radix n : ℕ) : List Char := Nat.toDigits radix n

def writeV4 (octets : List ℕ) : List Char :=
  ['.'].intercalate (octets.map (writeNumber 10))

/-- Groups with colons between. -/
def writeGroups (groups : List ℕ) : List Char :=
  [':'].intercalate (groups.map (writeNumber 16))

/-- A run of zeros: where it starts, and how many. -/
structure Run where
  start : ℕ := 0
  length : ℕ := 0
  deriving DecidableEq, Repr

/-- The longest run of zeros so far, and the one that ends here. -/
def scanZeros : (i : ℕ) → (longest current : Run) → List ℕ → Run
  | _, longest, _, [] => longest
  | i, longest, current, group :: groups =>
      if group = 0 then
        let current : Run := ⟨if current.length = 0 then i else current.start, current.length + 1⟩
        scanZeros (i + 1) (if longest.length < current.length then current else longest) current
          groups
      else scanZeros (i + 1) longest {} groups

/-- The first longest run of zeros. -/
def zeros (groups : List ℕ) : Run := scanZeros 0 {} {} groups

def writeV6 (groups : List ℕ) : List Char :=
  match groups with
  | [0, 0, 0, 0, 0, 0xffff, ab, cd] =>
      "::ffff:".toList ++ writeV4 [ab / 256, ab % 256, cd / 256, cd % 256]
  | groups =>
      let run := zeros groups
      if 1 < run.length then
        writeGroups (groups.take run.start) ++ ':' :: ':' ::
          writeGroups (groups.drop (run.start + run.length))
      else writeGroups groups

def write : Address → List Char
  | .v4 octets => writeV4 octets
  | .v6 groups => writeV6 groups

/-- The address has as many parts as it should, and they are as small as they should be. -/
def Address.Valid : Address → Prop
  | .v4 octets => octets.length = 4 ∧ ∀ n ∈ octets, n < 256
  | .v6 groups => groups.length = 8 ∧ ∀ n ∈ groups, n < 65536

/-! ## Numbers -/

lemma digit_digitChar {radix d : ℕ} (hd : d < radix) (hradix : radix ≤ 16) :
    digit radix (Nat.digitChar d) = some d := by
  have hlt : d < 16 := hd.trans_le hradix
  have hvalue : ∀ d < 16, digit 16 (Nat.digitChar d) = some d := by decide
  have hfound := hvalue d hlt
  rw [digit, Option.filter_eq_some_iff] at hfound ⊢
  exact ⟨hfound.1, decide_eq_true hd⟩

/-- The digits of a number, without a zero in front. -/
lemma exists_digits {radix : ℕ} (hradix : 1 < radix) (n : ℕ) :
    ∃ l : List ℕ, writeNumber radix n = l.map Nat.digitChar ∧ (∀ d ∈ l, d < radix) ∧
      l.foldl (fun value d => value * radix + d) 0 = n ∧ (0 < n → l.head? ≠ some 0) ∧ l ≠ [] := by
  induction n using Nat.strongRecOn with
  | ind n ih =>
      rw [writeNumber, Nat.toDigits_eq_if hradix]
      split_ifs with hlt
      · refine ⟨[n], rfl, ?_, ?_, ?_, List.cons_ne_nil n []⟩
        · intro d hd
          rwa [List.mem_singleton.mp hd]
        · rw [List.foldl_cons, List.foldl_nil]
          omega
        · intro hpos hzero
          rw [List.head?_cons, Option.some.injEq] at hzero
          omega
      · have hpos : 0 < n / radix := Nat.div_pos (not_lt.mp hlt) (by omega)
        obtain ⟨l, hl, hdigits, hvalue, hhead, hne⟩ :=
          ih (n / radix) (Nat.div_lt_self (by omega) hradix)
        refine ⟨l ++ [n % radix], ?_, ?_, ?_, ?_, List.append_ne_nil_of_left_ne_nil hne _⟩
        · rw [writeNumber] at hl
          rw [hl, List.map_append]
          rfl
        · intro d hd
          rcases List.mem_append.mp hd with hd | hd
          · exact hdigits d hd
          · rw [List.mem_singleton.mp hd]
            exact Nat.mod_lt n (by omega)
        · rw [List.foldl_append, hvalue, List.foldl_cons, List.foldl_nil, mul_comm]
          exact Nat.div_add_mod n radix
        · intro _
          rw [List.head?_append_of_ne_nil _ hne]
          exact hhead hpos

/-- The text doesn't go on with a digit. -/
def NoDigit (radix : ℕ) (rest : List Char) : Prop := ∀ c ∈ rest.head?, digit radix c = none

lemma takeWhile_digits {radix : ℕ} (hradix : radix ≤ 16) {l : List ℕ} (hl : ∀ d ∈ l, d < radix)
    {rest : List Char} (hrest : NoDigit radix rest) :
    (l.map Nat.digitChar ++ rest).takeWhile (fun c => (digit radix c).isSome) =
      l.map Nat.digitChar := by
  induction l with
  | nil =>
      cases rest with
      | nil => rfl
      | cons c rest =>
          have hc := hrest c rfl
          rw [List.map_nil, List.nil_append, List.takeWhile_cons_of_neg]
          rw [hc]
          exact Bool.false_ne_true
  | cons d l ih =>
      have hd := digit_digitChar (hl d List.mem_cons_self) hradix
      rw [List.map_cons, List.cons_append, List.takeWhile_cons_of_pos, ih]
      · exact fun x hx => hl x (List.mem_cons_of_mem d hx)
      · rw [hd]
        rfl

lemma filterMap_digits {radix : ℕ} (hradix : radix ≤ 16) {l : List ℕ} (hl : ∀ d ∈ l, d < radix) :
    (l.map Nat.digitChar).filterMap (digit radix) = l := by
  rw [List.filterMap_map]
  induction l with
  | nil => rfl
  | cons d l ih =>
      rw [List.filterMap_cons, Function.comp_apply,
        digit_digitChar (hl d List.mem_cons_self) hradix]
      dsimp only
      rw [ih fun x hx => hl x (List.mem_cons_of_mem d hx)]

/-- A number that was written is read back. -/
lemma readNumber_write {radix most bound n : ℕ} (hradix : 1 < radix) (hradix' : radix ≤ 16)
    (hmost : 0 < most) (hlength : n < radix ^ most) (hbound : n < bound) (zeroPrefix : Bool)
    {rest : List Char} (hrest : NoDigit radix rest) :
    readNumber radix most bound zeroPrefix (writeNumber radix n ++ rest) = some (n, rest) := by
  obtain ⟨l, hl, hdigits, hvalue, hhead, hne⟩ := exists_digits hradix n
  have hcount : l.length ≤ most := by
    have hle := (Nat.length_toDigits_le_iff hradix hmost).mpr hlength
    rw [← writeNumber, hl, List.length_map] at hle
    exact hle
  have hzero : ¬ (zeroPrefix = false ∧ l.head? = some 0 ∧ 1 < l.length) := by
    rintro ⟨-, hfirst, hlong⟩
    rcases Nat.eq_zero_or_pos n with rfl | hpos
    · -- zero is one digit
      rw [writeNumber, Nat.toDigits_zero] at hl
      have := congrArg List.length hl
      rw [List.length_map, List.length_singleton] at this
      omega
    · exact hhead hpos hfirst
  rw [readNumber, hl, takeWhile_digits hradix' hdigits hrest, filterMap_digits hradix' hdigits]
  rw [if_neg (by rintro (h | h); exacts [hne h, absurd h (by omega)]), if_neg hzero, hvalue,
    if_neg (by omega)]
  have hdrop : (l.map Nat.digitChar ++ rest).drop l.length = rest :=
    List.drop_left' (List.length_map _)
  rw [hdrop]

lemma toList_toString (n : ℕ) : (toString n).toList = writeNumber 10 n := by
  rw [Nat.toString_eq_ofList_toDigits, String.toList_ofList]
  rfl

/-! ## Dotted form -/

lemma noDigit_cons {radix : ℕ} {c : Char} {rest : List Char} (h : digit radix c = none) :
    NoDigit radix (c :: rest) := by
  intro d hd
  rw [← Option.some.inj hd]
  exact h

/-- Four numbers that were written are read back. -/
lemma readV4_writeV4 {octets : List ℕ} (h : (Address.v4 octets).Valid) {rest : List Char}
    (hrest : NoDigit 10 rest) : readV4 (writeV4 octets ++ rest) = some (octets, rest) := by
  obtain ⟨hlength, hsmall⟩ := h
  obtain ⟨a, b, c, d, rfl⟩ := List.length_eq_four.mp hlength
  have hread : ∀ n ∈ [a, b, c, d], ∀ rest, NoDigit 10 rest →
      readNumber 10 3 256 false (writeNumber 10 n ++ rest) = some (n, rest) := by
    intro n hn rest hrest
    have hlt := hsmall n hn
    exact readNumber_write (by decide) (by decide) (by decide) (by omega) hlt false hrest
  have hdot : ∀ rest, NoDigit 10 ('.' :: rest) := fun rest => noDigit_cons (by decide)
  have htext : writeV4 [a, b, c, d] ++ rest = writeNumber 10 a ++ '.' :: (writeNumber 10 b ++
      '.' :: (writeNumber 10 c ++ '.' :: (writeNumber 10 d ++ rest))) := by
    simp [writeV4, List.intercalate]
  rw [htext, readV4]
  simp only [hread a (by simp) _ (hdot _), hread b (by simp) _ (hdot _),
    hread c (by simp) _ (hdot _), hread d (by simp) _ hrest, separated, Option.bind_eq_bind,
    Option.bind_some, if_true, Bool.false_eq_true, if_false, Option.pure_def]

/-! ## Groups -/

/-- The groups behind the first. -/
def moreGroups (groups : List ℕ) : List Char :=
  groups.flatMap fun group => ':' :: writeNumber 16 group

lemma writeGroups_cons (group : ℕ) (groups : List ℕ) :
    writeGroups (group :: groups) = writeNumber 16 group ++ moreGroups groups := by
  induction groups generalizing group with
  | nil => simp [writeGroups, moreGroups, List.intercalate]
  | cons next groups ih =>
      have hnext := ih next
      rw [writeGroups, List.map_cons, List.map_cons]
      rw [writeGroups, List.map_cons] at hnext
      simp only [List.intercalate, List.intersperse_cons_cons, List.flatten_cons] at hnext ⊢
      rw [hnext]
      rfl

/-- No group begins here. -/
def Ends (rest : List Char) : Prop :=
  rest = [] ∨ (∃ rest', rest = '/' :: rest') ∨ ∃ rest', rest = ':' :: ':' :: rest'

lemma Ends.noDigit {rest : List Char} (h : Ends rest) : NoDigit 16 rest := by
  rcases h with rfl | ⟨rest', rfl⟩ | ⟨rest', rfl⟩
  · intro c hc
    exact absurd hc (by simp)
  · exact noDigit_cons (by decide)
  · exact noDigit_cons (by decide)

lemma readNumber_none {radix most bound : ℕ} {zeroPrefix : Bool} {rest : List Char}
    (h : NoDigit radix rest) : readNumber radix most bound zeroPrefix rest = none := by
  have hnil : rest.takeWhile (fun c => (digit radix c).isSome) = [] := by
    cases rest with
    | nil => rfl
    | cons c rest =>
        rw [List.takeWhile_cons_of_neg]
        rw [h c rfl]
        exact Bool.false_ne_true
  rw [readNumber, hnil]
  exact if_pos (.inl rfl)

lemma noDigit_ten {rest : List Char} (h : NoDigit 16 rest) : NoDigit 10 rest := by
  intro c hc
  have hnone := h c hc
  rw [digit, Option.filter_eq_none_iff] at hnone ⊢
  intro n hn hlt
  exact hnone n hn (decide_eq_true ((of_decide_eq_true hlt).trans (by decide)))

lemma readV4_none {rest : List Char} (h : NoDigit 16 rest) : readV4 rest = none := by
  rw [readV4, readNumber_none (noDigit_ten h)]
  rfl

lemma readNumber_rest {radix most bound n : ℕ} {zeroPrefix : Bool} {text rest : List Char}
    (h : readNumber radix most bound zeroPrefix text = some (n, rest)) :
    rest = text.drop (text.takeWhile fun c => (digit radix c).isSome).length := by
  have hcount : ((text.takeWhile fun c => (digit radix c).isSome).filterMap (digit radix)).length =
      (text.takeWhile fun c => (digit radix c).isSome).length :=
    List.filterMap_length_eq_length.mpr fun c hc => List.all_eq_true.mp List.all_takeWhile c hc
  rw [readNumber] at h
  split_ifs at h
  rw [hcount] at h
  exact ((Prod.mk.inj (Option.some.inj h)).2).symm

/-- A group isn't the beginning of a dotted form. -/
lemma readV4_group {group : ℕ} {rest : List Char} (h : NoDigit 16 rest)
    (hdot : '.' ∉ rest.head?) : readV4 (writeNumber 16 group ++ rest) = none := by
  obtain ⟨l, hl, hdigits, -, -, -⟩ := exists_digits (show 1 < 16 by decide) group
  have hchars : ∀ c ∈ l.map Nat.digitChar, c ≠ '.' := by
    rintro c hc rfl
    obtain ⟨d, hd, heq⟩ := List.mem_map.mp hc
    have hsome := digit_digitChar (hdigits d hd) le_rfl
    have hnone : digit 16 '.' = none := by decide
    rw [heq, hnone] at hsome
    cases hsome
  rw [readV4]
  cases hread : readNumber 10 3 256 false (writeNumber 16 group ++ rest) with
  | none => rfl
  | some found =>
      obtain ⟨n, text⟩ := found
      have htext := readNumber_rest hread
      -- what is left begins with a digit of the group or with what is behind it
      have hhead : '.' ∉ text.head? := by
        rw [htext, hl, List.takeWhile_append]
        split_ifs with hall
        · have hnil : rest.takeWhile (fun c => (digit 10 c).isSome) = [] := by
            cases rest with
            | nil => rfl
            | cons c rest =>
                rw [List.takeWhile_cons_of_neg]
                rw [noDigit_ten h c rfl]
                exact Bool.false_ne_true
          rw [hnil, List.append_nil, List.drop_left]
          exact hdot
        · have hle : ((l.map Nat.digitChar).takeWhile fun c => (digit 10 c).isSome).length <
              (l.map Nat.digitChar).length :=
            lt_of_le_of_ne (List.takeWhile_prefix _).length_le hall
          rw [List.drop_append_of_le_length hle.le]
          intro hc
          rw [List.head?_append_of_ne_nil _ (by simpa using hle)] at hc
          exact hchars '.' (List.mem_of_mem_drop (List.mem_of_mem_head? hc)) rfl
      cases text with
      | nil => rfl
      | cons c text =>
          have hc : c ≠ '.' := fun heq => hhead (by rw [heq]; rfl)
          simp only [Option.bind_eq_bind, Option.bind_some, separated, Bool.false_eq_true, if_false,
            if_neg hc, Option.bind_none]

/-- Behind a group comes another or the end. -/
lemma Ends.more {rest : List Char} (h : Ends rest) (groups : List ℕ) :
    NoDigit 16 (moreGroups groups ++ rest) ∧ '.' ∉ (moreGroups groups ++ rest).head? := by
  cases groups with
  | nil =>
      refine ⟨h.noDigit, ?_⟩
      rcases h with rfl | ⟨rest', rfl⟩ | ⟨rest', rfl⟩ <;> simp [moreGroups]
  | cons group groups =>
      have htext : moreGroups (group :: groups) ++ rest =
          ':' :: (writeNumber 16 group ++ (moreGroups groups ++ rest)) := by
        simp [moreGroups]
      rw [htext]
      exact ⟨noDigit_cons (by decide), by simp⟩

/-- Groups that were written behind a first one are read back. -/
lemma readGroups_more {groups : List ℕ} (hgroups : ∀ n ∈ groups, n < 65536) {most : ℕ}
    (hmost : groups.length ≤ most) {rest : List Char} (hrest : Ends rest) :
    readGroups most false (moreGroups groups ++ rest) = (groups, false, rest) := by
  induction groups generalizing most with
  | nil =>
      cases most with
      | zero => rfl
      | succ most =>
          have hnone : ∀ {α : Type} (read : List Char → Option (α × List Char)),
              (∀ text, NoDigit 16 text → read text = none) →
                separated ':' false read rest = none := by
            intro α read hread
            rcases hrest with rfl | ⟨rest', rfl⟩ | ⟨rest', rfl⟩
            · rfl
            · rfl
            · exact hread _ (noDigit_cons (by decide))
          rw [moreGroups, List.flatMap_nil, List.nil_append, readGroups,
            hnone readV4 fun text => readV4_none, ite_self,
            hnone (readNumber 16 4 65536 true) fun text => readNumber_none]
  | cons group groups ih =>
      cases most with
      | zero => exact absurd hmost (by simp)
      | succ most =>
          have hgroup := hgroups group List.mem_cons_self
          have htext : moreGroups (group :: groups) ++ rest =
              ':' :: (writeNumber 16 group ++ (moreGroups groups ++ rest)) := by
            simp [moreGroups]
          rw [htext, readGroups]
          simp only [separated, Bool.false_eq_true, if_false, if_true,
            readV4_group (hrest.more groups).1 (hrest.more groups).2, ite_self,
            readNumber_write (show 1 < 16 by decide) le_rfl (show 0 < 4 by decide) hgroup hgroup
              true (hrest.more groups).1,
            ih (fun n hn => hgroups n (List.mem_cons_of_mem group hn))
              (Nat.le_of_succ_le_succ hmost)]

/-- Groups that were written are read back. -/
lemma readGroups_write {groups : List ℕ} (hgroups : ∀ n ∈ groups, n < 65536) {most : ℕ}
    (hmost : groups.length ≤ most) {rest : List Char} (hrest : Ends rest) :
    readGroups most true (writeGroups groups ++ rest) = (groups, false, rest) := by
  cases groups with
  | nil =>
      rw [writeGroups, List.map_nil]
      cases most with
      | zero => rfl
      | succ most =>
          show readGroups (most + 1) true rest = _
          rw [readGroups]
          simp only [separated, if_true, readV4_none hrest.noDigit, ite_self,
            readNumber_none hrest.noDigit]
  | cons group groups =>
      cases most with
      | zero => exact absurd hmost (by simp)
      | succ most =>
          have hgroup := hgroups group List.mem_cons_self
          rw [writeGroups_cons, List.append_assoc, readGroups]
          simp only [separated, if_true,
            readV4_group (hrest.more groups).1 (hrest.more groups).2, ite_self,
            readNumber_write (show 1 < 16 by decide) le_rfl (show 0 < 4 by decide) hgroup hgroup
              true (hrest.more groups).1,
            readGroups_more (fun n hn => hgroups n (List.mem_cons_of_mem group hn))
              (Nat.le_of_succ_le_succ hmost) hrest]

/-! ## Runs of zeros -/

/-- There are zeros where the run says. -/
def Run.In (run : Run) (groups : List ℕ) : Prop :=
  ∃ head tail, groups = head ++ List.replicate run.length 0 ++ tail ∧
    (0 < run.length → head.length = run.start)

/-- The run goes up to the end. -/
def Run.AtEnd (run : Run) (groups : List ℕ) : Prop :=
  ∃ head, groups = head ++ List.replicate run.length 0 ∧
    (0 < run.length → head.length = run.start)

lemma Run.AtEnd.isIn {run : Run} {groups : List ℕ} (h : run.AtEnd groups) : run.In groups := by
  obtain ⟨head, heq, hstart⟩ := h
  exact ⟨head, [], by rw [List.append_nil, heq], hstart⟩

lemma Run.In.append {run : Run} {groups : List ℕ} (h : run.In groups) (more : List ℕ) :
    run.In (groups ++ more) := by
  obtain ⟨head, tail, heq, hstart⟩ := h
  exact ⟨head, tail ++ more, by rw [heq, List.append_assoc _ tail], hstart⟩

lemma scanZeros_isIn {groups before : List ℕ} {longest current : Run} (hlongest : longest.In before)
    (hcurrent : current.AtEnd before) :
    (scanZeros before.length longest current groups).In (before ++ groups) := by
  induction groups generalizing before longest current with
  | nil =>
      rw [List.append_nil]
      exact hlongest
  | cons group groups ih =>
      have hlength : before.length + 1 = (before ++ [group]).length := by simp
      rw [scanZeros, List.append_cons before group groups, hlength]
      by_cases hzero : group = 0
      · rw [if_pos hzero]
        have hnext : Run.AtEnd ⟨if current.length = 0 then before.length else current.start,
            current.length + 1⟩ (before ++ [group]) := by
          obtain ⟨head, heq, hstart⟩ := hcurrent
          refine ⟨head, ?_, fun _ => ?_⟩
          · rw [heq, hzero, List.append_assoc, List.replicate_succ']
          · dsimp only
            by_cases hnone : current.length = 0
            · rw [if_pos hnone, heq, hnone]
              simp
            · rw [if_neg hnone]
              exact hstart (Nat.pos_of_ne_zero hnone)
        generalize (⟨if current.length = 0 then before.length else current.start,
          current.length + 1⟩ : Run) = next at hnext ⊢
        refine ih ?_ hnext
        split
        · exact hnext.isIn
        · exact hlongest.append [group]
      · rw [if_neg hzero]
        refine ih (hlongest.append [group]) ⟨before ++ [group], ?_, fun h => absurd h (by simp)⟩
        exact (List.append_nil _).symm

/-- The groups are those before the run, its zeros and those behind. -/
lemma zeros_spec (groups : List ℕ) (h : 0 < (zeros groups).length) :
    groups = groups.take (zeros groups).start ++ List.replicate (zeros groups).length 0 ++
      groups.drop ((zeros groups).start + (zeros groups).length) := by
  have hin : (zeros groups).In ([] ++ groups) :=
    scanZeros_isIn ⟨[], [], rfl, fun h => absurd h (by simp)⟩ ⟨[], rfl, fun h => absurd h (by simp)⟩
  obtain ⟨head, tail, heq, hstart⟩ := hin
  rw [List.nil_append] at heq
  generalize (zeros groups).length = length at *
  generalize (zeros groups).start = start at *
  obtain rfl := hstart h
  conv_lhs => rw [heq]
  rw [heq, List.append_assoc, List.take_left, List.append_assoc]
  congr 2
  rw [← List.append_assoc, List.drop_append_of_le_length (by simp), List.drop_eq_nil_of_le (by simp)]
  rfl

/-! ## Addresses -/

/-- Eight groups that were written are read back. -/
lemma readV6_writeV6 {groups : List ℕ} (h : (Address.v6 groups).Valid) :
    readV6 (writeV6 groups) = some (groups, []) := by
  obtain ⟨hlength, hsmall⟩ := h
  rw [writeV6.eq_def]
  split
  · rename_i ab cd
    have hab : ab < 65536 := hsmall ab (by simp)
    have hcd : cd < 65536 := hsmall cd (by simp)
    have hvalid : (Address.v4 [ab / 256, ab % 256, cd / 256, cd % 256]).Valid := by
      refine ⟨rfl, fun n hn => ?_⟩
      simp only [List.mem_cons, List.not_mem_nil, or_false] at hn
      rcases hn with rfl | rfl | rfl | rfl <;> omega
    have hdotted := @readV4_writeV4 _ hvalid [] (fun c hc => absurd hc (by simp))
    rw [List.append_nil] at hdotted
    have hcolon : NoDigit 16 (':' :: writeV4 [ab / 256, ab % 256, cd / 256, cd % 256]) :=
      noDigit_cons (by decide)
    have htext : "::ffff:".toList ++ writeV4 [ab / 256, ab % 256, cd / 256, cd % 256] =
        ':' :: ':' :: (writeNumber 16 0xffff ++
          ':' :: writeV4 [ab / 256, ab % 256, cd / 256, cd % 256]) := rfl
    have hhead : readGroups 8 true (':' :: ':' :: (writeNumber 16 0xffff ++
        ':' :: writeV4 [ab / 256, ab % 256, cd / 256, cd % 256])) = ([], false, _) :=
      @readGroups_write [] (fun n hn => absurd hn List.not_mem_nil) 8 (by decide) _
        (.inr (.inr ⟨_, rfl⟩))
    have htail : readGroups 7 true (writeNumber 16 0xffff ++
        ':' :: writeV4 [ab / 256, ab % 256, cd / 256, cd % 256]) =
          ([0xffff, ab / 256 * 256 + ab % 256, cd / 256 * 256 + cd % 256], true, []) := by
      rw [readGroups]
      simp only [separated, if_true, readV4_group hcolon (by simp), ite_self,
        readNumber_write (show 1 < 16 by decide) le_rfl (show 0 < 4 by decide)
          (show 0xffff < 16 ^ 4 by decide) (show 0xffff < 65536 by decide) true hcolon]
      rw [readGroups]
      simp only [separated, Bool.false_eq_true, if_false, if_true, hdotted]
      rfl
    rw [htext, readV6, hhead]
    simp only [List.length_nil, Nat.reduceEqDiff, if_false, Bool.false_eq_true]
    rw [show 8 - (0 + 1) = 7 from rfl, htail]
    simp only [List.nil_append, List.length_cons, List.length_nil]
    rw [Nat.div_add_mod', Nat.div_add_mod']
    rfl
  · dsimp only
    split
    · rename_i hrun
      have hspec := zeros_spec groups (by omega)
      generalize (zeros groups).start = start at *
      generalize (zeros groups).length = length at *
      have hsum := congrArg List.length hspec
      simp only [List.length_append, List.length_take, List.length_drop, List.length_replicate,
        hlength] at hsum
      have htake : (groups.take start).length = start := by
        rw [List.length_take]
        omega
      have hdrop : (groups.drop (start + length)).length = 8 - start - length := by
        rw [List.length_drop]
        omega
      have hhead := @readGroups_write (groups.take start)
        (fun n hn => hsmall n (List.mem_of_mem_take hn)) 8 (by omega)
        (':' :: ':' :: writeGroups (groups.drop (start + length))) (.inr (.inr ⟨_, rfl⟩))
      have htail := @readGroups_write (groups.drop (start + length))
        (fun n hn => hsmall n (List.mem_of_mem_drop hn)) (8 - (start + 1)) (by omega) [] (.inl rfl)
      rw [List.append_nil] at htail
      rw [readV6, hhead]
      dsimp only
      rw [htake, if_neg (by omega), if_neg Bool.false_ne_true]
      simp only [htail]
      rw [hdrop, show 8 - start - (8 - start - length) = length by omega, ← hspec]
    · have hread := @readGroups_write _ hsmall 8 hlength.le [] (.inl rfl)
      rw [List.append_nil] at hread
      rw [readV6, hread]
      exact if_pos hlength

/-- Groups aren't the beginning of a dotted form. -/
lemma readV4_writeGroups (groups : List ℕ) {rest : List Char} (hrest : Ends rest) :
    readV4 (writeGroups groups ++ rest) = none := by
  cases groups with
  | nil => exact readV4_none hrest.noDigit
  | cons group groups =>
      rw [writeGroups_cons, List.append_assoc]
      exact readV4_group (hrest.more groups).1 (hrest.more groups).2

lemma readV4_writeV6 (groups : List ℕ) : readV4 (writeV6 groups) = none := by
  rw [writeV6.eq_def]
  split
  · exact readV4_none (noDigit_cons (by decide))
  · dsimp only
    split
    · exact readV4_writeGroups _ (.inr (.inr ⟨_, rfl⟩))
    · have hread := @readV4_writeGroups groups [] (.inl rfl)
      rwa [List.append_nil] at hread

/-- An address that was written is read back. -/
theorem parse_write {address : Address} (h : address.Valid) :
    parse (write address) = some address := by
  cases address with
  | v4 octets =>
      have hread := @readV4_writeV4 _ h [] (fun c hc => absurd hc (by simp))
      rw [List.append_nil] at hread
      rw [write, parse, hread]
      rfl
  | v6 groups =>
      rw [write, parse, readV4_writeV6, readV6_writeV6 h]
      rfl

/-! ## Characters -/

/-- A character that an address is written with. -/
def IsAddressChar (c : Char) : Prop := c = ':' ∨ c = '.' ∨ ∃ d < 16, c = Nat.digitChar d

lemma writeNumber_chars {radix n : ℕ} (hradix : 1 < radix) (hradix' : radix ≤ 16) {c : Char}
    (hc : c ∈ writeNumber radix n) : IsAddressChar c := by
  obtain ⟨l, hl, hdigits, -, -, -⟩ := exists_digits hradix n
  rw [hl] at hc
  obtain ⟨d, hd, rfl⟩ := List.mem_map.mp hc
  exact .inr (.inr ⟨d, (hdigits d hd).trans_le hradix', rfl⟩)

lemma mem_intersperse {sep piece : List Char} {pieces : List (List Char)}
    (h : piece ∈ pieces.intersperse sep) : piece = sep ∨ piece ∈ pieces := by
  induction pieces with
  | nil => exact .inr h
  | cons first pieces ih =>
      cases pieces with
      | nil => exact .inr h
      | cons next pieces =>
          rw [List.intersperse_cons_cons, List.mem_cons, List.mem_cons] at h
          rcases h with rfl | rfl | h
          · exact .inr List.mem_cons_self
          · exact .inl rfl
          · exact (ih h).imp_right (List.mem_cons_of_mem first)

/-- Joined pieces have the separator's characters and their own. -/
lemma mem_intercalate {sep : List Char} {pieces : List (List Char)} {c : Char}
    (hc : c ∈ sep.intercalate pieces) : c ∈ sep ∨ ∃ piece ∈ pieces, c ∈ piece := by
  obtain ⟨piece, hpiece, hmem⟩ := List.mem_flatten.mp hc
  rcases mem_intersperse hpiece with rfl | h
  · exact .inl hmem
  · exact .inr ⟨piece, h, hmem⟩

lemma writeV4_chars {octets : List ℕ} {c : Char} (hc : c ∈ writeV4 octets) : IsAddressChar c := by
  rcases mem_intercalate hc with hc | ⟨piece, hpiece, hc⟩
  · exact .inr (.inl (List.mem_singleton.mp hc))
  · obtain ⟨n, -, rfl⟩ := List.mem_map.mp hpiece
    exact writeNumber_chars (by decide) (by decide) hc

lemma writeGroups_chars {groups : List ℕ} {c : Char} (hc : c ∈ writeGroups groups) :
    IsAddressChar c := by
  rcases mem_intercalate hc with hc | ⟨piece, hpiece, hc⟩
  · exact .inl (List.mem_singleton.mp hc)
  · obtain ⟨n, -, rfl⟩ := List.mem_map.mp hpiece
    exact writeNumber_chars (by decide) (by decide) hc

lemma write_chars {address : Address} {c : Char} (hc : c ∈ write address) : IsAddressChar c := by
  cases address with
  | v4 octets => exact writeV4_chars hc
  | v6 groups =>
      rw [write, writeV6.eq_def] at hc
      split at hc
      · rcases List.mem_append.mp hc with hc | hc
        · have hlist : "::ffff:".toList = [':', ':', 'f', 'f', 'f', 'f', ':'] := by decide
          have hf : IsAddressChar 'f' := .inr (.inr ⟨15, by decide, rfl⟩)
          rw [hlist] at hc
          simp only [List.mem_cons, List.not_mem_nil, or_false] at hc
          rcases hc with rfl | rfl | rfl | rfl | rfl | rfl | rfl
          exacts [.inl rfl, .inl rfl, hf, hf, hf, hf, .inl rfl]
        · exact writeV4_chars hc
      · dsimp only at hc
        split at hc
        · rw [List.mem_append, List.mem_cons, List.mem_cons] at hc
          rcases hc with hc | rfl | rfl | hc
          exacts [writeGroups_chars hc, .inl rfl, .inl rfl, writeGroups_chars hc]
        · exact writeGroups_chars hc

/-! ## Numbers in parts -/

/-- So many digits of a number in a base, the highest first. -/
def parts (base : ℕ) : (width : ℕ) → ℕ → List ℕ
  | 0, _ => []
  | width + 1, n => parts base width (n / base) ++ [n % base]

/-- The number with these digits. -/
def value (base : ℕ) (l : List ℕ) : ℕ := l.foldl (fun value d => value * base + d) 0

lemma length_parts (base width n : ℕ) : (parts base width n).length = width := by
  induction width generalizing n with
  | zero => rfl
  | succ width ih => rw [parts, List.length_append, ih, List.length_singleton]

lemma parts_lt {base width n : ℕ} (hbase : 0 < base) : ∀ d ∈ parts base width n, d < base := by
  induction width generalizing n with
  | zero => exact fun d hd => absurd hd List.not_mem_nil
  | succ width ih =>
      intro d hd
      rcases List.mem_append.mp hd with hd | hd
      · exact ih d hd
      · rw [List.mem_singleton.mp hd]
        exact Nat.mod_lt n hbase

lemma value_parts {base width n : ℕ} (h : n < base ^ width) :
    value base (parts base width n) = n := by
  induction width generalizing n with
  | zero => exact (Nat.lt_one_iff.mp h).symm
  | succ width ih =>
      have hrest : n / base < base ^ width := by
        rw [pow_succ, mul_comm] at h
        exact Nat.div_lt_of_lt_mul h
      rw [parts, value, List.foldl_append, ← value, ih hrest, List.foldl_cons, List.foldl_nil]
      exact Nat.div_add_mod' n base

end IpText
