import Teitunnel.Types
import Teitunnel.Lib.Sha256

/-!
# A reference for the foreign code

`reference` is one `External` whose functions do what the real ones do: SHA-256 itself, compact
JSON text, IDNA on ASCII names, and IPv4 ranges in dotted form.  Concrete plans are made with it,
from snapshots that grow out of `newAccount`.
-/

namespace Teitunnel

open Text

/-- A character of a JSON string, escaped where it must be. -/
def escapeChar (c : Char) : String :=
  if c = '"' then "\\\""
  else if c = '\\' then "\\\\"
  else if c = '\n' then "\\n"
  else if c = '\r' then "\\r"
  else if c = '\t' then "\\t"
  else if c = '\x08' then "\\b"
  else if c = '\x0c' then "\\f"
  else if c.toNat < 32 then
    "\\u00" ++ String.ofList [hexDigit (Sha256.lowDigit (c.toNat / 16)),
      hexDigit (Sha256.lowDigit c.toNat)]
  else String.singleton c

/-- A text as a JSON string. -/
def quoteText (s : String) : String :=
  "\"" ++ String.join (s.toList.map escapeChar) ++ "\""

mutual

/-- A JSON value as compact text. -/
def writeJson : Json → String
  | .null => "null"
  | .bool b => if b then "true" else "false"
  | .num n => toString n
  | .float text => text
  | .str s => quoteText s
  | .arr items => "[" ++ String.intercalate "," (writeItems items) ++ "]"
  | .obj fields => "\x7b" ++ String.intercalate "," (writeFields fields) ++ "\x7d"

def writeItems : List Json → List String
  | [] => []
  | item :: rest => writeJson item :: writeItems rest

def writeFields : List (String × Json) → List String
  | [] => []
  | (name, value) :: rest => (quoteText name ++ ":" ++ writeJson value) :: writeFields rest

end

/-- A number below 256 in decimal. -/
def parseOctet (s : String) : Option ℕ :=
  match s.toNat? with
  | some n => if n < 256 then some n else none
  | none => none

/-- An IPv4 address in dotted form. -/
def parseV4 (s : String) : Option (BitVec 32) :=
  match (split '.' s).map parseOctet with
  | [some a, some b, some c, some d] =>
      some (BitVec.ofNat 32 (((a * 256 + b) * 256 + c) * 256 + d))
  | _ => none

/-- An IPv4 range, or one address. -/
def parseV4Net (s : String) : Option IpNet :=
  match splitOnce '/' s with
  | none => (parseV4 s).map fun addr => .v4 addr (Fin.last 32)
  | some (addr, len) => do
      let addr ← parseV4 addr
      let len ← len.toNat?
      if h : len < 33 then some (.v4 addr ⟨len, h⟩) else none

/-- A range as text. -/
def printV4Net : IpNet → String
  | .v4 addr len =>
      String.intercalate "." ([24, 16, 8, 0].map fun i => toString ((addr.toNat >>> i) % 256)) ++
        "/" ++ toString len.val
  | .v6 addr len => toString addr.toNat ++ "/" ++ toString len.val

/-- The foreign code, on ASCII names and IPv4 ranges. -/
abbrev reference : External where
  sha256 := Sha256.digest
  jsonText := writeJson
  domainToAscii s :=
    if s.toList.all fun c => c.toNat < 128 then some (toAsciiLowercase s) else none
  regexError _ := none
  parseNet := parseV4Net
  printNet := printV4Net

/-- An account with one zone, nothing in it, and a machine without a tunnel. -/
def newAccount : Snapshot where
  accountId := "acc"
  machineName := "machine"
  zones := [⟨"zone", "example.com"⟩]
  tunnel := none
  tunnelNames := []
  elsewhere := []
  records := []
  access := none
  networks := none
  balance := none
  site := none
  held := []
  owner := "owner"
  now := 0
  edge := []
  serviceTokens := none
  database := none
  front := []

/-- A hostname in its zone. -/
def appHostname : Hostname := ⟨"app.example.com", by decide⟩

/-- A route of `app.example.com` to a local port. -/
def appRoute (path : Option PathRule) : RouteSpec where
  id := "r1"
  hostname := appHostname
  path := path
  origin := ⟨"http://localhost:3000"⟩
  options := []
  access := none

end Teitunnel
