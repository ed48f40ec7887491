import Teitunnel.Reference
import Teitunnel.Lib.IpWriter

/-!
# Ranges as text

An IP range is written as its address, a slash and the length of its network part, and read back
from that; a bare address is a range of one.
-/

namespace Teitunnel

open IpText Text

/-- An IP address. -/
inductive IpAddr where
  | v4 (addr : BitVec 32)
  | v6 (addr : BitVec 128)
  deriving DecidableEq

namespace IpNet

/-- The parts of the address. -/
def address : IpNet → Address
  | v4 addr _ => .v4 (parts 256 4 addr.toNat)
  | v6 addr _ => .v6 (parts 65536 8 addr.toNat)

/-- The length of the network part. -/
def prefixLen : IpNet → ℕ
  | v4 _ len => len
  | v6 _ len => len

/-- The range of an address, with so long a network part. -/
def ofAddress (len : ℕ) : Address → Option IpNet
  | .v4 octets => if h : len < 33 then some (v4 (BitVec.ofNat 32 (value 256 octets)) ⟨len, h⟩) else none
  | .v6 groups =>
      if h : len < 129 then some (v6 (BitVec.ofNat 128 (value 65536 groups)) ⟨len, h⟩) else none

/-- An address of the range: one with the same network part. -/
def Has : IpNet → IpAddr → Prop
  | v4 addr len, .v4 a => a >>> (32 - len.val) = addr >>> (32 - len.val)
  | v6 addr len, .v6 a => a >>> (128 - len.val) = addr >>> (128 - len.val)
  | _, _ => False

end IpNet

namespace IpAddr

/-- Loopback, link-local, multicast, unspecified or broadcast. -/
def Unroutable : IpAddr → Prop
  | v4 a =>
      a >>> 24 = 127 ∨ a >>> 16 = 0xA9FE ∨ a >>> 28 = 0xE ∨ a = 0 ∨ a = 0xFFFFFFFF
  | v6 a => a = 1 ∨ a >>> 118 = 0x3FA ∨ a >>> 120 = 0xFF ∨ a = 0

end IpAddr

/-- A range as text. -/
def writeNet (net : IpNet) : String :=
  String.ofList (write net.address) ++ "/" ++ toString net.prefixLen

/-- A range from an address, a slash and a length, or one address from its text. -/
def readNet (s : String) : Option IpNet :=
  match rsplitOnce '/' s with
  | some (addr, len) => do
      let address ← IpText.parse addr.toList
      let (len, rest) ← readNumber 10 3 129 false len.toList
      guard (rest = [])
      IpNet.ofAddress len address
  | none =>
      match IpText.parse s.toList with
      | some (.v4 octets) => IpNet.ofAddress 32 (.v4 octets)
      | some (.v6 groups) => IpNet.ofAddress 128 (.v6 groups)
      | none => none

end Teitunnel
