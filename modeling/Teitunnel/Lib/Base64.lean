import Mathlib

/-!
# Base64

Bytes as text of 64 characters, three bytes to four, with padding or without.  Decoding takes
what encoding writes and nothing else: the bits that no byte has must be zero.
-/

namespace Base64

/-! ## Sextets -/

/-- Bytes, six bits at a time. -/
def toSextets : List UInt8 → List ℕ
  | [] => []
  | [a] => [a.toNat / 4, a.toNat % 4 * 16]
  | [a, b] => [a.toNat / 4, a.toNat % 4 * 16 + b.toNat / 16, b.toNat % 16 * 4]
  | a :: b :: c :: rest =>
      a.toNat / 4 :: (a.toNat % 4 * 16 + b.toNat / 16) :: (b.toNat % 16 * 4 + c.toNat / 64) ::
        c.toNat % 64 :: toSextets rest

/-- The bytes of sextets. -/
def ofSextets : List ℕ → Option (List UInt8)
  | [] => some []
  | [_] => none
  | [x, y] => if y % 16 = 0 then some [.ofNat (x * 4 + y / 16)] else none
  | [x, y, z] =>
      if z % 4 = 0 then some [.ofNat (x * 4 + y / 16), .ofNat (y % 16 * 16 + z / 4)] else none
  | x :: y :: z :: w :: rest =>
      (ofSextets rest).map fun bytes =>
        .ofNat (x * 4 + y / 16) :: .ofNat (y % 16 * 16 + z / 4) :: .ofNat (z % 4 * 64 + w) :: bytes

lemma ofNat_of_eq {n : ℕ} {b : UInt8} (h : n = b.toNat) : UInt8.ofNat n = b := by
  rw [h, UInt8.ofNat_toNat]

lemma ofSextets_toSextets (bytes : List UInt8) : ofSextets (toSextets bytes) = some bytes := by
  induction bytes using toSextets.induct with
  | case1 => rfl
  | case2 a =>
      have ha : a.toNat < 256 := a.toNat_lt
      rw [toSextets, ofSextets, if_pos (by omega), ofNat_of_eq (b := a) (by omega)]
  | case3 a b =>
      have ha : a.toNat < 256 := a.toNat_lt
      have hb : b.toNat < 256 := b.toNat_lt
      rw [toSextets, ofSextets, if_pos (by omega), ofNat_of_eq (b := a) (by omega),
        ofNat_of_eq (b := b) (by omega)]
  | case4 a b c rest ih =>
      have ha : a.toNat < 256 := a.toNat_lt
      have hb : b.toNat < 256 := b.toNat_lt
      have hc : c.toNat < 256 := c.toNat_lt
      rw [toSextets, ofSextets, ih, Option.map_some, ofNat_of_eq (b := a) (by omega),
        ofNat_of_eq (b := b) (by omega), ofNat_of_eq (b := c) (by omega)]

lemma sextet_lt {bytes : List UInt8} {n : ℕ} (h : n ∈ toSextets bytes) : n < 64 := by
  induction bytes using toSextets.induct with
  | case1 => exact absurd h List.not_mem_nil
  | case2 a =>
      have ha : a.toNat < 256 := a.toNat_lt
      simp only [toSextets, List.mem_cons, List.not_mem_nil, or_false] at h
      omega
  | case3 a b =>
      have ha : a.toNat < 256 := a.toNat_lt
      have hb : b.toNat < 256 := b.toNat_lt
      simp only [toSextets, List.mem_cons, List.not_mem_nil, or_false] at h
      omega
  | case4 a b c rest ih =>
      have ha : a.toNat < 256 := a.toNat_lt
      have hb : b.toNat < 256 := b.toNat_lt
      have hc : c.toNat < 256 := c.toNat_lt
      simp only [toSextets, List.mem_cons] at h
      rcases h with h | h | h | h | h
      · omega
      · omega
      · omega
      · omega
      · exact ih h

/-! ## Text -/

/-- The characters of the two alphabets. -/
inductive Alphabet where
  | standard
  | urlSafe
  deriving DecidableEq

def Alphabet.chars : Alphabet → List Char
  | .standard => "ABCDEFGHIJKLMNOPQRSTUVWXYZabcdefghijklmnopqrstuvwxyz0123456789+/".toList
  | .urlSafe => "ABCDEFGHIJKLMNOPQRSTUVWXYZabcdefghijklmnopqrstuvwxyz0123456789-_".toList

/-- The character of a sextet. -/
def Alphabet.char (alphabet : Alphabet) (n : ℕ) : Char := alphabet.chars.getD n 'A'

/-- The sextet of a character. -/
def Alphabet.sextet (alphabet : Alphabet) (c : Char) : Option ℕ := alphabet.chars.idxOf? c

variable (alphabet : Alphabet)

lemma sextet_char : ∀ n < 64, alphabet.sextet (alphabet.char n) = some n := by
  cases alphabet <;> decide +kernel

lemma char_mem {n : ℕ} (h : n < 64) : alphabet.char n ∈ alphabet.chars := by
  revert n
  cases alphabet <;> decide +kernel

/-- Without padding. -/
def encode (bytes : List UInt8) : String :=
  String.ofList ((toSextets bytes).map alphabet.char)

def decode (text : String) : Option (List UInt8) :=
  (text.toList.mapM alphabet.sextet).bind ofSextets

lemma mapM_sextet {sextets : List ℕ} (h : ∀ n ∈ sextets, n < 64) :
    (sextets.map alphabet.char).mapM alphabet.sextet = some sextets := by
  induction sextets with
  | nil => rfl
  | cons n rest ih =>
      rw [List.map_cons, List.mapM_cons, sextet_char alphabet n (h n List.mem_cons_self),
        ih fun m hm => h m (List.mem_cons_of_mem n hm)]
      rfl

/-- What is written is read back. -/
lemma decode_encode (bytes : List UInt8) : decode alphabet (encode alphabet bytes) = some bytes := by
  rw [decode, encode, String.toList_ofList, mapM_sextet alphabet fun n hn => sextet_lt hn,
    Option.bind_some, ofSextets_toSextets]

lemma mem_encode {bytes : List UInt8} {c : Char} (h : c ∈ (encode alphabet bytes).toList) :
    c ∈ alphabet.chars := by
  rw [encode, String.toList_ofList] at h
  obtain ⟨n, hn, rfl⟩ := List.mem_map.mp h
  exact char_mem alphabet (sextet_lt hn)

/-! ## Padding -/

/-- With padding to a multiple of four characters. -/
def encodePadded (bytes : List UInt8) : String :=
  encode alphabet bytes ++ String.ofList (List.replicate ((3 - bytes.length % 3) % 3) '=')

/-- Reads padded text: the padding must be there. -/
def decodePadded (text : String) : Option (List UInt8) :=
  if text.toList.length % 4 = 0 ∧ text.toList.reverse.takeWhile (· = '=') ∈
      [[], ['='], ['=', '=']] then
    decode alphabet (String.ofList (text.toList.rdropWhile (· = '=')))
  else none

lemma length_toSextets (bytes : List UInt8) :
    (toSextets bytes).length + (3 - bytes.length % 3) % 3 = (bytes.length + 2) / 3 * 4 := by
  induction bytes using toSextets.induct with
  | case1 => rfl
  | case2 a => simp [toSextets]
  | case3 a b => simp [toSextets]
  | case4 a b c rest ih =>
      simp only [toSextets, List.length_cons] at ih ⊢
      omega

lemma decodePadded_encodePadded (bytes : List UInt8) :
    decodePadded alphabet (encodePadded alphabet bytes) = some bytes := by
  have hchars : ∀ c ∈ (encode alphabet bytes).toList, c ≠ '=' := by
    intro c hc
    have hmem := mem_encode alphabet hc
    rintro rfl
    revert hmem
    cases alphabet <;> decide
  have hlist : (encodePadded alphabet bytes).toList =
      (encode alphabet bytes).toList ++ List.replicate ((3 - bytes.length % 3) % 3) '=' := by
    rw [encodePadded, String.toList_append, String.toList_ofList]
  have hlength : (encode alphabet bytes).toList.length = (toSextets bytes).length := by
    rw [encode, String.toList_ofList, List.length_map]
  have hpadding := length_toSextets bytes
  have hdrop : ∀ n, ((encode alphabet bytes).toList ++ List.replicate n '=').rdropWhile (· = '=') =
      (encode alphabet bytes).toList := by
    intro n
    induction n with
    | zero =>
        rw [List.replicate_zero, List.append_nil]
        refine List.rdropWhile_eq_self_iff.mpr fun hne => ?_
        simpa using hchars _ (List.getLast_mem hne)
    | succ n ih =>
        rw [List.replicate_succ', ← List.append_assoc, List.rdropWhile_concat_pos _ _ _ (by simp), ih]
  have htake : ((encodePadded alphabet bytes).toList.reverse.takeWhile (· = '=')) =
      List.replicate ((3 - bytes.length % 3) % 3) '=' := by
    rw [hlist, List.reverse_append, List.reverse_replicate,
      List.takeWhile_append_of_pos (by simp)]
    have hnone : (encode alphabet bytes).toList.reverse.takeWhile (· = '=') = [] := by
      cases hrev : (encode alphabet bytes).toList.reverse with
      | nil => rfl
      | cons c rest =>
          have hc : c ∈ (encode alphabet bytes).toList := by
            rw [← List.mem_reverse, hrev]
            exact List.mem_cons_self
          rw [List.takeWhile_cons_of_neg (by simpa using hchars c hc)]
    rw [hnone, List.append_nil]
  have hshort : (3 - bytes.length % 3) % 3 = 0 ∨ (3 - bytes.length % 3) % 3 = 1 ∨
      (3 - bytes.length % 3) % 3 = 2 := by omega
  rw [decodePadded, if_pos]
  · rw [hlist, hdrop, String.ofList_toList, decode_encode]
  · constructor
    · rw [hlist, List.length_append, List.length_replicate, hlength, hpadding]
      omega
    · rw [htake]
      rcases hshort with h | h | h <;> rw [h] <;> decide

end Base64
