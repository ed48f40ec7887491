import Mathlib.Tactic

/-!
# Lines and blocks

Lines end with LF, CR or CR LF; a blank line ends a block of them.  What isn't ended is none.
-/

namespace Lines

def LF : UInt8 := 10
def CR : UInt8 := 13

/-- Without an LF at the beginning. -/
def skipLf : List UInt8 → List UInt8
  | b :: bytes => if b = LF then bytes else b :: bytes
  | [] => []

lemma length_skipLf (bytes : List UInt8) : (skipLf bytes).length ≤ bytes.length := by
  cases bytes with
  | nil => exact le_rfl
  | cons b bytes =>
      rw [skipLf]
      split
      · exact Nat.le_succ _
      · exact le_rfl

/-- The lines that end in some bytes, when `line` has come of the first one. -/
def linesFrom (line : List UInt8) : List UInt8 → List (List UInt8)
  | [] => []
  | b :: bytes =>
      if b = LF then line :: linesFrom [] bytes
      else if b = CR then line :: linesFrom [] (skipLf bytes)
      else linesFrom (line ++ [b]) bytes
termination_by bytes => bytes.length
decreasing_by
  · exact Nat.lt_succ_self _
  · exact Nat.lt_succ_of_le (length_skipLf bytes)
  · exact Nat.lt_succ_self _

/-- The blocks that end in some lines, when `block` has come of the first one. -/
def blocksFrom (block : List (List UInt8)) : List (List UInt8) → List (List (List UInt8))
  | [] => []
  | line :: lines =>
      if line = [] then block :: blocksFrom [] lines else blocksFrom (block ++ [line]) lines

/-- The blocks of a stream. -/
def blocks (bytes : List UInt8) : List (List (List UInt8)) := blocksFrom [] (linesFrom [] bytes)

lemma linesFrom_lf (line bytes : List UInt8) :
    linesFrom line (LF :: bytes) = line :: linesFrom [] bytes := by
  rw [linesFrom, if_pos rfl]

lemma linesFrom_cr (line bytes : List UInt8) :
    linesFrom line (CR :: bytes) = line :: linesFrom [] (skipLf bytes) := by
  rw [linesFrom, if_neg (by decide), if_pos rfl]

lemma linesFrom_of_ne {b : UInt8} (hlf : b ≠ LF) (hcr : b ≠ CR) (line bytes : List UInt8) :
    linesFrom line (b :: bytes) = linesFrom (line ++ [b]) bytes := by
  rw [linesFrom, if_neg hlf, if_neg hcr]

end Lines
