import Mathlib.Data.List.Basic
import Mathlib.Tactic

/-!
# Addresses as text

IPv4 in dotted form, IPv6 in groups with at most one `::`, its last two groups possibly in dotted
form.  Each reader takes what it can from the front.
-/

namespace IpText

/-- The value of a digit, in any radix up to sixteen. -/
def digit (radix : ℕ) (c : Char) : Option ℕ :=
  let n := c.toNat
  let value :=
    if 48 ≤ n ∧ n ≤ 57 then some (n - 48)
    else if 97 ≤ n ∧ n ≤ 102 then some (n - 87)
    else if 65 ≤ n ∧ n ≤ 70 then some (n - 55)
    else none
  value.filter (· < radix)

/-- A number of at most `most` digits and below `bound`. -/
def readNumber (radix most bound : ℕ) (zeroPrefix : Bool) (text : List Char) :
    Option (ℕ × List Char) :=
  let digits := (text.takeWhile fun c => (digit radix c).isSome).filterMap (digit radix)
  let value := digits.foldl (fun value d => value * radix + d) 0
  if digits = [] ∨ most < digits.length then none
  else if zeroPrefix = false ∧ digits.head? = some 0 ∧ 1 < digits.length then none
  else if bound ≤ value then none
  else some (value, text.drop digits.length)

/-- What `read` takes, after a separator unless it comes first. -/
def separated {α : Type} (sep : Char) (first : Bool) (read : List Char → Option (α × List Char))
    (text : List Char) : Option (α × List Char) :=
  if first then read text
  else
    match text with
    | c :: rest => if c = sep then read rest else none
    | [] => none

/-- Four numbers with dots between. -/
def readV4 (text : List Char) : Option (List ℕ × List Char) := do
  let octet := readNumber 10 3 256 false
  let (a, text) ← octet text
  let (b, text) ← separated '.' false octet text
  let (c, text) ← separated '.' false octet text
  let (d, text) ← separated '.' false octet text
  return ([a, b, c, d], text)

/-- At most `most` groups, and whether the last two were in dotted form. -/
def readGroups : (most : ℕ) → (first : Bool) → List Char → List ℕ × Bool × List Char
  | 0, _, text => ([], false, text)
  | most + 1, first, text =>
      match if 1 ≤ most then separated ':' first readV4 text else none with
      | some ([a, b, c, d], rest) => ([a * 256 + b, c * 256 + d], true, rest)
      | _ =>
          match separated ':' first (readNumber 16 4 65536 true) text with
          | some (group, rest) =>
              let (groups, dotted, rest) := readGroups most false rest
              (group :: groups, dotted, rest)
          | none => ([], false, text)

/-- Eight groups, or fewer with `::` in place of zeros. -/
def readV6 (text : List Char) : Option (List ℕ × List Char) :=
  let (head, dotted, rest) := readGroups 8 true text
  if head.length = 8 then some (head, rest)
  else if dotted then none
  else
    match rest with
    | ':' :: ':' :: rest =>
        let (tail, _, rest) := readGroups (8 - (head.length + 1)) true rest
        some (head ++ List.replicate (8 - head.length - tail.length) 0 ++ tail, rest)
    | _ => none

/-- An address. -/
inductive Address where
  | v4 (octets : List ℕ)
  | v6 (groups : List ℕ)
  deriving DecidableEq, Repr

/-- The address that a text is, if it is one. -/
def parse (text : List Char) : Option Address :=
  match readV4 text with
  | some (octets, rest) => if rest = [] then some (.v4 octets) else none
  | none =>
      match readV6 text with
      | some (groups, rest) => if rest = [] then some (.v6 groups) else none
      | none => none

/-- `127.0.0.0/8` and `::1`. -/
def Address.isLoopback : Address → Bool
  | .v4 octets => octets.head? = some 127
  | .v6 groups => groups = [0, 0, 0, 0, 0, 0, 0, 1]

example : parse "127.0.0.1".toList = some (.v4 [127, 0, 0, 1]) := by decide

example : parse "::ffff:1.2.3.4".toList = some (.v6 [0, 0, 0, 0, 0, 0xffff, 0x102, 0x304]) := by
  decide

end IpText
