import Mathlib.Tactic

/-!
# Numbers as bytes

The most significant byte comes first.
-/

namespace Bytes

/-- A number as `n` bytes. -/
def ofNat : ℕ → ℕ → List UInt8
  | 0, _ => []
  | n + 1, value => ofNat n (value / 256) ++ [UInt8.ofNat (value % 256)]

/-- The number of some bytes. -/
def toNat (bytes : List UInt8) : ℕ := bytes.foldl (fun n b => n * 256 + b.toNat) 0

@[simp]
lemma length_ofNat (n value : ℕ) : (ofNat n value).length = n := by
  induction n generalizing value with
  | zero => rfl
  | succ n ih => rw [ofNat, List.length_append, ih, List.length_singleton]

lemma toNat_ofNat (n value : ℕ) : toNat (ofNat n value) = value % 256 ^ n := by
  induction n generalizing value with
  | zero => rw [pow_zero, Nat.mod_one, ofNat, toNat, List.foldl_nil]
  | succ n ih =>
      have hlast : (UInt8.ofNat (value % 256)).toNat = value % 256 := by simp
      have hfirst := ih (value / 256)
      unfold toNat at hfirst
      rw [ofNat, toNat, List.foldl_append, hfirst, List.foldl_cons, List.foldl_nil, hlast,
        pow_succ', Nat.mod_mul, Nat.mul_comm, Nat.add_comm]

end Bytes
