import Mathlib

/-!
# Numbers of a fixed width

Decimal numbers with zeros in front, all of one width: they read back as what was written, and
texts made of them come in the order of the numbers.
-/

namespace Digits

/-- The last `width` decimal digits of a number. -/
def fixed : ℕ → ℕ → List Char
  | 0, _ => []
  | width + 1, n => fixed width (n / 10) ++ [(n % 10).digitChar]

variable {width n n' : ℕ}

lemma length_fixed : (fixed width n).length = width := by
  induction width generalizing n with
  | zero => rfl
  | succ width ih => rw [fixed, List.length_append, ih, List.length_singleton]

lemma isDigit_fixed {c : Char} (h : c ∈ fixed width n) : c.isDigit = true := by
  induction width generalizing n with
  | zero => exact absurd h List.not_mem_nil
  | succ width ih =>
      rcases List.mem_append.mp h with h | h
      · exact ih h
      · rw [List.mem_singleton.mp h]
        rw [Nat.isDigit_digitChar]
        exact decide_eq_true (Nat.mod_lt n (by decide))

lemma ofDigitChars_fixed (h : n < 10 ^ width) : Nat.ofDigitChars 10 (fixed width n) 0 = n := by
  induction width generalizing n with
  | zero => exact (Nat.lt_one_iff.mp h).symm
  | succ width ih =>
      have hrest : n / 10 < 10 ^ width := by
        rw [pow_succ] at h
        omega
      rw [fixed, Nat.ofDigitChars_append, ih hrest,
        Nat.ofDigitChars_cons_digitChar_of_lt_ten (Nat.mod_lt n (by decide)),
        Nat.ofDigitChars_nil]
      omega

/-- A number is written in the width with zeros in front of its digits. -/
lemma fixed_eq (h : n < 10 ^ width) (hwidth : 0 < width) :
    fixed width n =
      List.replicate (width - (Nat.toDigits 10 n).length) '0' ++ Nat.toDigits 10 n := by
  induction width generalizing n with
  | zero => exact absurd hwidth (lt_irrefl 0)
  | succ width ih =>
      have hrest : n / 10 < 10 ^ width := by
        rw [pow_succ] at h
        omega
      rw [fixed, Nat.toDigits_eq_if (by decide)]
      split_ifs with hn
      · have hzero : ∀ w, fixed w 0 = List.replicate w '0' := by
          intro w
          induction w with
          | zero => rfl
          | succ w ihw =>
              rw [fixed, Nat.zero_div, ihw, List.replicate_succ']
              rfl
        rw [Nat.div_eq_of_lt hn, Nat.mod_eq_of_lt hn, hzero]
        rfl
      · have hpos : 0 < width := by
          rcases width.eq_zero_or_pos with rfl | hpos
          · rw [pow_zero] at hrest
            omega
          · exact hpos
        rw [ih hrest hpos, List.length_append, List.length_singleton, Nat.add_sub_add_right,
          List.append_assoc]

/-! ## Order -/

/-- Lists with first parts of one length are in the order of these, then of what follows. -/
lemma append_lt_append {α : Type*} [LinearOrder α] {a a' b b' : List α}
    (h : a.length = a'.length) : a ++ b < a' ++ b' ↔ a < a' ∨ a = a' ∧ b < b' := by
  induction a generalizing a' with
  | nil =>
      rw [List.length_nil, eq_comm, List.length_eq_zero_iff] at h
      subst h
      simp
  | cons x a ih =>
      cases a' with
      | nil => cases h
      | cons y a' =>
          rw [List.cons_append, List.cons_append, List.cons_lt_cons_iff, List.cons_lt_cons_iff,
            ih (Nat.succ.inj h), List.cons.injEq]
          tauto

lemma digitChar_lt {d d' : ℕ} (hd : d < 10) (hd' : d' < 10) :
    d.digitChar < d'.digitChar ↔ d < d' := by
  rw [Char.lt_def, UInt32.lt_iff_toNat_lt]
  show d.digitChar.toNat < d'.digitChar.toNat ↔ _
  rw [Nat.toNat_digitChar_of_lt_ten hd, Nat.toNat_digitChar_of_lt_ten hd']
  omega

lemma fixed_injective (h : n < 10 ^ width) (h' : n' < 10 ^ width)
    (heq : fixed width n = fixed width n') : n = n' := by
  rw [← ofDigitChars_fixed h, heq, ofDigitChars_fixed h']

lemma fixed_lt (h : n < 10 ^ width) (h' : n' < 10 ^ width) :
    fixed width n < fixed width n' ↔ n < n' := by
  induction width generalizing n n' with
  | zero =>
      rw [pow_zero] at h h'
      rw [Nat.lt_one_iff.mp h, Nat.lt_one_iff.mp h']
      simp
  | succ width ih =>
      have hrest : n / 10 < 10 ^ width := by
        rw [pow_succ] at h
        omega
      have hrest' : n' / 10 < 10 ^ width := by
        rw [pow_succ] at h'
        omega
      have hsame : fixed width (n / 10) = fixed width (n' / 10) ↔ n / 10 = n' / 10 :=
        ⟨fixed_injective hrest hrest', fun heq => by rw [heq]⟩
      have hlast : [(n % 10).digitChar] < [(n' % 10).digitChar] ↔ n % 10 < n' % 10 := by
        rw [List.cons_lt_cons_iff, digitChar_lt (Nat.mod_lt n (by decide))
          (Nat.mod_lt n' (by decide))]
        simp
      rw [fixed, fixed, append_lt_append (by rw [length_fixed, length_fixed]),
        ih hrest hrest', hsame, hlast]
      omega

lemma fixed_append_lt {width a b : ℕ} (ha : a < 10 ^ width) (hb : b < 10 ^ width)
    {l l' : List Char} :
    fixed width a ++ l < fixed width b ++ l' ↔ a < b ∨ a = b ∧ l < l' := by
  have hsame : fixed width a = fixed width b ↔ a = b :=
    ⟨fixed_injective ha hb, fun heq => by rw [heq]⟩
  rw [append_lt_append (by rw [length_fixed, length_fixed]), fixed_lt ha hb, hsame]

end Digits
