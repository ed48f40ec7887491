import Mathlib.Tactic
import Mathlib.Algebra.Order.Floor.Semiring

/-!
# Latencies

A histogram of microseconds: up to 16 each value has its bucket, then each power of two has
sixteen.
-/

namespace Teitunnel.Lens

def SUB_BITS : ℕ := 4
def SUB : ℕ := 2 ^ SUB_BITS

/-- The powers of two above the values that have a bucket each. -/
def EXPONENTS : ℕ := 40
def BUCKETS : ℕ := SUB + EXPONENTS * SUB

/-- A log-linear histogram of microseconds. -/
structure Histogram where
  /-- How many values each bucket has: no tap lives to see 2 ^ 64 of them. -/
  buckets : List ℕ
  count : ℕ
  /-- It goes round at 2 ^ 64. -/
  sum : ℕ
  max : ℕ
  deriving DecidableEq

namespace Histogram

def new : Histogram where
  buckets := List.replicate BUCKETS 0
  count := 0
  sum := 0
  max := 0

/-- The zeros before a number of 64 bits. -/
def leadingZeros (value : ℕ) : ℕ := if value = 0 then 64 else 63 - value.log2

def index (value : ℕ) : ℕ :=
  if value < SUB then value
  else
    let exp := 63 - leadingZeros value
    let sub := (value >>> (exp - SUB_BITS)) &&& (SUB - 1)
    let group := exp - SUB_BITS
    min (SUB + group * SUB + sub) (BUCKETS - 1)

/-- The middle of a bucket. -/
def valueOf (index : ℕ) : ℕ :=
  if index < SUB then index
  else
    let group := (index - SUB) / SUB
    let sub := (index - SUB) % SUB
    let exp := group + SUB_BITS
    let width := 1 <<< (exp - SUB_BITS)
    let low := (1 <<< exp) + sub * width
    low + width / 2

def record (h : Histogram) (micros : ℕ) : Histogram where
  buckets := h.buckets.modify (index micros) (· + 1)
  count := h.count + 1
  sum := (h.sum + micros) % 2 ^ 64
  max := Max.max h.max micros

/-- The first bucket, from `index` on, with which as many are seen. -/
def firstWith (rank : ℕ) : ℕ → ℕ → List ℕ → Option ℕ
  | _, _, [] => none
  | seen, index, bucket :: buckets =>
      if rank ≤ seen + bucket then some index
      else firstWith rank (seen + bucket) (index + 1) buckets

/-- The rank of a quantile among the values. -/
def rank (q : ℚ) (count : ℕ) : ℕ := Max.max ⌈Max.max 0 (min q 1) * count⌉₊ 1

def quantile (h : Histogram) (q : ℚ) : Option ℕ :=
  if h.count = 0 then none
  else if 1 ≤ q then some h.max
  else
    match firstWith (rank q h.count) 0 0 h.buckets with
    | some index => some (min (valueOf index) h.max)
    | none => some h.max

end Histogram

end Teitunnel.Lens
