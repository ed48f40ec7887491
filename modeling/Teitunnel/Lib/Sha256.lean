import Mathlib

/-!
# SHA-256

The hash of FIPS 180-4 on lists of bytes, as a function that evaluates: padding, the message
schedule, 64 rounds for each block, and the digest as 64 hex digits.  Words are naturals below
`2 ^ 32`, so that the kernel computes with them.
-/

namespace Sha256

/-- A 32-bit word. -/
abbrev Word := ℕ

def modulus : ℕ := 2 ^ 32

/-- Addition of words. -/
def add (x y : Word) : Word := (x + y) % modulus

/-- Rotation to the right. -/
def rotr (n : ℕ) (x : Word) : Word := (x >>> n) ||| ((x <<< (32 - n)) % modulus)

def ch (x y z : Word) : Word := (x &&& y) ^^^ ((x ^^^ (modulus - 1)) &&& z)

def maj (x y z : Word) : Word := (x &&& y) ^^^ (x &&& z) ^^^ (y &&& z)

def bigSigma0 (x : Word) : Word := rotr 2 x ^^^ rotr 13 x ^^^ rotr 22 x

def bigSigma1 (x : Word) : Word := rotr 6 x ^^^ rotr 11 x ^^^ rotr 25 x

def smallSigma0 (x : Word) : Word := rotr 7 x ^^^ rotr 18 x ^^^ (x >>> 3)

def smallSigma1 (x : Word) : Word := rotr 17 x ^^^ rotr 19 x ^^^ (x >>> 10)

/-- The constants of the 64 rounds. -/
def constants : List Word :=
  [0x428a2f98, 0x71374491, 0xb5c0fbcf, 0xe9b5dba5, 0x3956c25b, 0x59f111f1, 0x923f82a4, 0xab1c5ed5,
   0xd807aa98, 0x12835b01, 0x243185be, 0x550c7dc3, 0x72be5d74, 0x80deb1fe, 0x9bdc06a7, 0xc19bf174,
   0xe49b69c1, 0xefbe4786, 0x0fc19dc6, 0x240ca1cc, 0x2de92c6f, 0x4a7484aa, 0x5cb0a9dc, 0x76f988da,
   0x983e5152, 0xa831c66d, 0xb00327c8, 0xbf597fc7, 0xc6e00bf3, 0xd5a79147, 0x06ca6351, 0x14292967,
   0x27b70a85, 0x2e1b2138, 0x4d2c6dfc, 0x53380d13, 0x650a7354, 0x766a0abb, 0x81c2c92e, 0x92722c85,
   0xa2bfe8a1, 0xa81a664b, 0xc24b8b70, 0xc76c51a3, 0xd192e819, 0xd6990624, 0xf40e3585, 0x106aa070,
   0x19a4c116, 0x1e376c08, 0x2748774c, 0x34b0bcb5, 0x391c0cb3, 0x4ed8aa4a, 0x5b9cca4f, 0x682e6ff3,
   0x748f82ee, 0x78a5636f, 0x84c87814, 0x8cc70208, 0x90befffa, 0xa4506ceb, 0xbef9a3f7, 0xc67178f2]

/-- The working variables. -/
structure Working where
  a : Word
  b : Word
  c : Word
  d : Word
  e : Word
  f : Word
  g : Word
  h : Word

def initial : Working where
  a := 0x6a09e667
  b := 0xbb67ae85
  c := 0x3c6ef372
  d := 0xa54ff53a
  e := 0x510e527f
  f := 0x9b05688c
  g := 0x1f83d9ab
  h := 0x5be0cd19

/-- One round with a constant and a word of the schedule. -/
def round (s : Working) (k w : Word) : Working :=
  let t1 := (s.h + bigSigma1 s.e + ch s.e s.f s.g + k + w) % modulus
  let t2 := (bigSigma0 s.a + maj s.a s.b s.c) % modulus
  ⟨add t1 t2, s.a, s.b, s.c, add s.d t1, s.e, s.f, s.g⟩

/-- The rounds of a block: the schedule is kept as its last 16 words. -/
def rounds : List Word → List Word → Working → Working
  | k :: ks, w :: window, s =>
      let next := (smallSigma1 (window.getD 13 0) + window.getD 8 0 +
        smallSigma0 (window.getD 0 0) + w) % modulus
      rounds ks (window ++ [next]) (round s k w)
  | _, _, s => s

/-- The state after a block. -/
def compress (s : Working) (block : List Word) : Working :=
  let r := rounds constants block s
  ⟨add s.a r.a, add s.b r.b, add s.c r.c, add s.d r.d, add s.e r.e, add s.f r.f, add s.g r.g,
    add s.h r.h⟩

/-- A number as `n` bytes, the most significant first. -/
def bigEndian (n value : ℕ) : List ℕ :=
  (List.range n).reverse.map fun i => value / 256 ^ i % 256

/-- The message with a one bit, zeros and its length in bits. -/
def pad (bytes : List ℕ) : List ℕ :=
  bytes ++ [0x80] ++ List.replicate ((119 - bytes.length % 64) % 64) 0 ++
    bigEndian 8 (8 * bytes.length)

/-- Words from bytes, four at a time. -/
def toWords : List ℕ → List Word
  | a :: b :: c :: d :: rest => (((a * 256 + b) * 256 + c) * 256 + d) :: toWords rest
  | _ => []

/-- The state after all blocks. -/
def hashWords (message : List Word) : Working :=
  (message.toChunks 16).foldl compress initial

/-- The words of the hash. -/
def hashBytes (bytes : List ℕ) : List Word :=
  let s := hashWords (toWords (pad bytes))
  [s.a, s.b, s.c, s.d, s.e, s.f, s.g, s.h]

/-- The last hex digit of a number. -/
def lowDigit (n : ℕ) : Fin 16 := Fin.ofNat 16 n

/-- The `i`-th hex digit of the hash. -/
def digit (words : List Word) (i : Fin 64) : Fin 16 :=
  lowDigit (words.getD (i.val / 8) 0 / 16 ^ (7 - i.val % 8))

/-- The hash of a text's UTF-8 bytes, as hex digits. -/
def digest (text : String) : Fin 64 → Fin 16 :=
  let words := hashBytes (text.toList.flatMap fun c => (String.utf8EncodeChar c).map UInt8.toNat)
  fun i => digit words i

/-- The hash of some bytes. -/
def bytes (message : List UInt8) : List UInt8 :=
  (hashBytes (message.map UInt8.toNat)).flatMap fun word => (bigEndian 4 word).map UInt8.ofNat

@[simp]
lemma length_bigEndian (n value : ℕ) : (bigEndian n value).length = n := by
  rw [bigEndian, List.length_map, List.length_reverse, List.length_range]

lemma length_bytes (message : List UInt8) : (bytes message).length = 32 := by
  simp only [bytes, hashBytes, List.flatMap_cons, List.flatMap_nil, List.length_append,
    List.length_map, length_bigEndian, List.length_nil]

/-- The hash of some bytes under a key. -/
def hmac (key message : List UInt8) : List UInt8 :=
  let key := if 64 < key.length then bytes key else key
  let block := key ++ List.replicate (64 - key.length) 0
  bytes (block.map (· ^^^ 0x5c) ++ bytes (block.map (· ^^^ 0x36) ++ message))

end Sha256
