import Teitunnel.Lib.Fallible
import Teitunnel.Lib.Json
import Teitunnel.Lib.Text

/-!
# Hostnames, paths, origins and private ranges

The validated values routes are made of.  A `Hostname` carries the proof that it has the form
its parser accepts, so the planner never meets another one.

**Foreign code.**  `External` collects what the engine calls but does not contain: the hash, the
serializer, IDNA, regular expressions and the text form of IP ranges.  Nothing is assumed of
them here; a result that needs one of their documented properties names it.
-/

namespace Teitunnel

open Text

/-! ## Code from other packages -/

/-- The 64 hex digits of a SHA-256 digest. -/
abbrev Digest := Fin 64 → Fin 16

/-- A hex digit, in lower case. -/
def hexDigit (d : Fin 16) : Char :=
  "0123456789abcdef".toList.get (d.cast (by decide))

/-- The digest in hex. -/
def Digest.hex (d : Digest) : String :=
  String.ofList (List.ofFn fun i => hexDigit (d i))

/-- An IP range: address and length of its network part. -/
inductive IpNet where
  | v4 (addr : BitVec 32) (len : Fin 33)
  | v6 (addr : BitVec 128) (len : Fin 129)
  deriving DecidableEq

/-- What the engine uses of other packages. -/
class External where
  /-- SHA-256 of a text's UTF-8 bytes. -/
  sha256 : String → Digest
  /-- The text a JSON value is written as. -/
  jsonText : Json → String
  /-- IDNA's conversion to ASCII (lower case, punycode). -/
  domainToAscii : String → Option String
  /-- Whether a pattern compiles as a regular expression; its error otherwise. -/
  regexError : String → Option String
  /-- An IP range, or an address as a range of one, from its text. -/
  parseNet : String → Option IpNet
  /-- The text of an IP range. -/
  printNet : IpNet → String

/-! ## Hostnames -/

/-- Why a hostname was rejected. -/
inductive HostnameError where
  | empty
  | invalid
  | noDomain
  | badWildcard
  | tooLong
  deriving DecidableEq, Repr

/-- A character a label may have. -/
def isLabelChar (c : Char) : Bool :=
  ('a' ≤ c && c ≤ 'z') || ('0' ≤ c && c ≤ '9') || c == '-'

/-- A DNS label in lower case. -/
def ValidLabel (l : List Char) : Prop :=
  l ≠ [] ∧ l.length ≤ 63 ∧ l.all isLabelChar ∧ l.head? ≠ some '-' ∧ l.getLast? ≠ some '-'

instance (l : List Char) : Decidable (ValidLabel l) :=
  inferInstanceAs (Decidable (_ ∧ _ ∧ _ ∧ _ ∧ _))

/-- `name` after a leading `*.`, if it has one. -/
def withoutWildcard (name : List Char) : List Char :=
  (stripList ['*', '.'] name).getD name

/-- The form of a validated hostname: at least two valid labels, optionally after `*.`. -/
def ValidHostname (s : String) : Prop :=
  2 ≤ ((withoutWildcard s.toList).splitOn '.').length ∧
    (∀ l ∈ (withoutWildcard s.toList).splitOn '.', ValidLabel l) ∧ s.utf8ByteSize ≤ 253

instance (s : String) : Decidable (ValidHostname s) :=
  have : Decidable (∀ l ∈ (withoutWildcard s.toList).splitOn '.', ValidLabel l) :=
    List.decidableBAll _ _
  inferInstanceAs (Decidable (_ ∧ _ ∧ _))

/-- A name of valid labels has no wildcard to strip: its first label would be `*`. -/
lemma withoutWildcard_of_labels {name : List Char}
    (h : ∀ l ∈ name.splitOn '.', ValidLabel l) : withoutWildcard name = name := by
  cases hs : stripList ['*', '.'] name with
  | none => rw [withoutWildcard, hs, Option.getD_none]
  | some rest =>
      obtain rfl := stripList_eq_some.mp hs
      have hstar : ['*'] ∈ (['*', '.'] ++ rest).splitOn '.' := by
        simp [List.splitOn, List.splitOnP_cons_eq_if_modifyHead]
      exact absurd (h _ hstar) (by decide)

/-- What the parser checks is what a validated hostname promises. -/
lemma validHostname_of_checks {ascii : String} {wildcard : Bool}
    (hlen : ¬ (ascii.toList.splitOn '.').length < 2)
    (hlabels : ∀ l ∈ ascii.toList.splitOn '.', ValidLabel l)
    (hsize : ¬ (if wildcard then "*." ++ ascii else ascii).utf8ByteSize > 253) :
    ValidHostname (if wildcard then "*." ++ ascii else ascii) := by
  have hname : withoutWildcard (if wildcard then "*." ++ ascii else ascii).toList
      = ascii.toList := by
    cases wildcard with
    | true =>
        have hs : stripList ['*', '.'] ("*." ++ ascii).toList = some ascii.toList :=
          stripList_eq_some.mpr (by simp)
        simp only [withoutWildcard, if_true, hs, Option.getD_some]
    | false => exact withoutWildcard_of_labels hlabels
  refine ⟨?_, ?_, by omega⟩
  · rw [hname]; omega
  · rw [hname]; exact hlabels

/-- A validated, lower-case ASCII hostname, optionally a leading wildcard. -/
@[ext] structure Hostname where
  asStr : String
  valid : ValidHostname asStr
  deriving DecidableEq

namespace Hostname

/-- Parses user input (Unicode names become punycode). -/
def parse [External] (input : String) : Except HostnameError Hostname :=
  let trimmed := trimEnd (· == '.') (trim input)
  if trimmed = "" then .error .empty
  else
    let (wildcard, rest) := match stripStart "*." trimmed with
      | some rest => (true, rest)
      | none => (false, trimmed)
    if HasText "*" rest then .error .badWildcard
    else match External.domainToAscii rest with
      | none => .error .invalid
      | some ascii =>
          if hlen : (ascii.toList.splitOn '.').length < 2 then .error .noDomain
          else if hlabels : ∀ l ∈ ascii.toList.splitOn '.', ValidLabel l then
            let full := if wildcard then "*." ++ ascii else ascii
            if hsize : full.utf8ByteSize > 253 then .error .tooLong
            else .ok ⟨full, validHostname_of_checks hlen hlabels hsize⟩
          else .error .invalid

/-- Whether it lies within `zone` (an apex like `example.com`). -/
def isInZone (h : Hostname) (zone : String) : Bool :=
  let name := trimStartText "*." h.asStr
  name = zone || decide (EndsWith ("." ++ zone) name)

/-- The last of the longest elements of a list. -/
def lastLongest {α : Type*} (len : α → ℕ) : List α → Option α
  | [] => none
  | a :: rest =>
      match lastLongest len rest with
      | some b => if len a > len b then some a else some b
      | none => some a

end Hostname

/-! ## Paths and origins -/

/-- Why a path rule was rejected. -/
inductive PathError where
  | invalid (detail : String)
  | unsupported
  deriving DecidableEq, Repr

/-- A path regex for an ingress rule, e.g. `^/api/`. -/
@[ext] structure PathRule where
  asStr : String
  deriving DecidableEq, Repr

/-- Validates a path pattern. -/
def PathRule.parse [External] (input : String) : Except PathError PathRule :=
  let pattern := trim input
  if (["(?=", "(?!", "(?<=", "(?<!"].any fun s => decide (HasText s pattern)) ||
      decide (HasText "\\1" pattern) then
    .error .unsupported
  else match External.regexError pattern with
    | some detail => .error (.invalid detail)
    | none => .ok ⟨pattern⟩

/-- Where a route sends traffic: the `service` of an ingress rule. -/
@[ext] structure RouteOrigin where
  asStr : String
  deriving DecidableEq, Repr

namespace RouteOrigin

/-- The text before the first `://` and the text after it. -/
def splitScheme : List Char → Option (List Char × List Char)
  | [] => none
  | c :: rest =>
      match stripList "://".toList (c :: rest) with
      | some after => some ([], after)
      | none => (splitScheme rest).map fun (l, r) => (c :: l, r)

/-- Whether a browser can open it (not SSH, RDP, SMB or raw TCP). -/
def isWeb (o : RouteOrigin) : Bool :=
  !(["tcp://", "ssh://", "rdp://", "smb://"].any fun scheme =>
    decide (StartsWith scheme o.asStr))

/-- Whether the origin points at this machine. -/
def isLocal (o : RouteOrigin) : Bool :=
  match splitScheme o.asStr.toList with
  | none => decide (StartsWith "unix" o.asStr) || o.asStr == "hello_world"
  | some (_, rest) =>
      let rest := String.ofList rest
      let host := match rsplitOnce ':' rest with
        | some (host, _) => host
        | none => rest
      ["localhost", "127.0.0.1", "[::1]", "0.0.0.0"].contains host

end RouteOrigin

/-! ## Private hostnames and ranges -/

/-- Why a private hostname was rejected. -/
inductive PrivateHostnameError where
  | invalid
  | wildcard
  | localhost (hostname : String)
  deriving DecidableEq, Repr

/-- A validated hostname without a wildcard, outside `localhost`. -/
@[ext] structure PrivateHostname where
  host : Hostname
  exact : ¬ HasText "*" host.asStr
  reachable : host.isInZone "localhost" = false
  deriving DecidableEq

namespace PrivateHostname

/-- The hostname as ASCII. -/
def asStr (h : PrivateHostname) : String := h.host.asStr

/-- Parses and checks a hostname typed by the user. -/
def parse [External] (input : String) : Except PrivateHostnameError PrivateHostname :=
  if HasText "*" input then .error .wildcard
  else match Hostname.parse input with
    | .error _ => .error .invalid
    | .ok host =>
        if local? : host.isInZone "localhost" = true then .error (.localhost host.asStr)
        else if star : HasText "*" host.asStr then .error .wildcard
        else .ok ⟨host, star, Bool.eq_false_iff.mpr local?⟩

/-- Whether `stored` (a route's hostname as Cloudflare returns it) is this name. -/
def Matches (h : PrivateHostname) (stored : String) : Prop :=
  SameText (trimEnd (· == '.') stored) h.asStr

instance (h : PrivateHostname) (stored : String) : Decidable (h.Matches stored) :=
  inferInstanceAs (Decidable (SameText _ _))

end PrivateHostname

namespace IpNet

/-- The range with its host bits cleared. -/
def trunc : IpNet → IpNet
  | v4 addr len => v4 (addr >>> (32 - len.val) <<< (32 - len.val)) len
  | v6 addr len => v6 (addr >>> (128 - len.val) <<< (128 - len.val)) len

/-- Every address of `other` is in the range. -/
def contains : IpNet → IpNet → Bool
  | v4 a l, v4 b m => l.val ≤ m.val && a >>> (32 - l.val) == b >>> (32 - l.val)
  | v6 a l, v6 b m => l.val ≤ m.val && a >>> (128 - l.val) == b >>> (128 - l.val)
  | _, _ => false

/-- Covers a large part of the internet. -/
def tooBroad : IpNet → Bool
  | v4 _ len => len.val < 8
  | v6 _ len => len.val < 16

/-- Loopback, link-local, multicast, unspecified or broadcast: never through a tunnel. -/
def unroutable : IpNet → Bool
  | v4 a _ =>
      a >>> 24 == 127 || a >>> 16 == 0xA9FE || a >>> 28 == 0xE || a == 0 || a == 0xFFFFFFFF
  | v6 a _ => a == 1 || a >>> 120 == 0xFF || a == 0 || a >>> 118 == 0x3FA

end IpNet

/-- Why a range was rejected. -/
inductive PrivateNetworkError where
  | invalid
  | tooBroad (network : String)
  | unroutable (network : String)
  deriving DecidableEq, Repr

/-- A validated range, host bits cleared. -/
@[ext] structure PrivateNetwork where
  net : IpNet
  truncated : net.trunc = net
  narrow : net.tooBroad = false
  routable : net.unroutable = false
  deriving DecidableEq

namespace PrivateNetwork

/-- Parses and checks a range typed by the user. -/
def parse [External] (input : String) : Except PrivateNetworkError PrivateNetwork :=
  match External.parseNet (trim input) with
  | none => .error .invalid
  | some parsed =>
      let net := parsed.trunc
      if broad : net.tooBroad = true then .error (.tooBroad (External.printNet net))
      else if bad : net.unroutable = true then .error (.unroutable (External.printNet net))
      else if h : net.trunc = net then
        .ok ⟨net, h, Bool.eq_false_iff.mpr broad, Bool.eq_false_iff.mpr bad⟩
      else .error .invalid

/-- The range as text. -/
def toText [External] (n : PrivateNetwork) : String := External.printNet n.net

/-- Whether it is in space reserved for private use. -/
def isPrivate (n : PrivateNetwork) : Bool :=
  match n.net with
  | .v4 .. =>
      (IpNet.v4 0x0A000000 8).contains n.net || (IpNet.v4 0xAC100000 12).contains n.net ||
        (IpNet.v4 0xC0A80000 16).contains n.net || (IpNet.v4 0x64400000 10).contains n.net
  | .v6 .. => (IpNet.v6 (0xFC00#128 <<< 112) 7).contains n.net

/-- Whether the two ranges share an address. -/
def overlaps (n other : PrivateNetwork) : Bool :=
  n.net.contains other.net || other.net.contains n.net

end PrivateNetwork

end Teitunnel
