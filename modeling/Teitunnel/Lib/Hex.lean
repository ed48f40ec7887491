import Mathlib

/-!
# Hexadecimal text

Bytes as text of two digits each, written in lower case and read in either case.
-/

namespace Hex

/-- The value of a digit. -/
def nibble (c : Char) : Option ℕ :=
  if 48 ≤ c.toNat ∧ c.toNat ≤ 57 then some (c.toNat - 48)
  else if 97 ≤ c.toNat ∧ c.toNat ≤ 102 then some (c.toNat - 97 + 10)
  else if 65 ≤ c.toNat ∧ c.toNat ≤ 70 then some (c.toNat - 65 + 10)
  else none

/-- The two digits of a byte. -/
def pair (b : UInt8) : List Char := [(b.toNat / 16).digitChar, (b.toNat % 16).digitChar]

def encode (bytes : List UInt8) : String := String.ofList (bytes.flatMap pair)

def decodePairs : List Char → Option (List UInt8)
  | [] => some []
  | [_] => none
  | high :: low :: rest => do
      let high ← nibble high
      let low ← nibble low
      let bytes ← decodePairs rest
      some (.ofNat (high * 16 + low) :: bytes)

def decode (text : String) : Option (List UInt8) := decodePairs text.toList

lemma nibble_digitChar : ∀ n < 16, nibble n.digitChar = some n := by
  decide

/-- What is written is read back. -/
lemma decode_encode (bytes : List UInt8) : decode (encode bytes) = some bytes := by
  rw [decode, encode, String.toList_ofList]
  induction bytes with
  | nil => rfl
  | cons b rest ih =>
      have hb : b.toNat < 256 := b.toNat_lt
      have hbyte : UInt8.ofNat (b.toNat / 16 * 16 + b.toNat % 16) = b := by
        rw [Nat.div_add_mod' b.toNat 16, UInt8.ofNat_toNat]
      have hcons : (b :: rest).flatMap pair = (b.toNat / 16).digitChar ::
          (b.toNat % 16).digitChar :: rest.flatMap pair := rfl
      rw [hcons, decodePairs, nibble_digitChar _ (by omega), nibble_digitChar _ (by omega), ih]
      simp only [Option.bind_eq_bind, Option.bind_some, hbyte]

lemma digitChar_mem : ∀ n < 16, n.digitChar ∈ "0123456789abcdef".toList := by
  decide

lemma mem_encode {bytes : List UInt8} {c : Char} (h : c ∈ (encode bytes).toList) :
    c ∈ "0123456789abcdef".toList := by
  rw [encode, String.toList_ofList] at h
  obtain ⟨b, -, hb⟩ := List.mem_flatMap.mp h
  have hlt : b.toNat < 256 := b.toNat_lt
  simp only [pair, List.mem_cons, List.not_mem_nil, or_false] at hb
  rcases hb with rfl | rfl
  · exact digitChar_mem _ (by omega)
  · exact digitChar_mem _ (by omega)

end Hex
