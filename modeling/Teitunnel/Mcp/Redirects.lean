import Teitunnel.Lib.IpText
import Teitunnel.Lib.Text

/-!
# Redirect URIs

Where a client may have people sent back to, and the answer put into the query.  URIs are read by
a foreign parser, which drops a fragment and keeps credentials in the authority; so is the form
encoding foreign, of which only that it has no `#` matters.
-/

namespace Teitunnel.Mcp

open Text

/-- The parts of a URI, as its parser gives them. -/
structure HttpUri where
  scheme : Option String
  /-- With credentials and port. -/
  authority : Option String
  host : Option String
  pathAndQuery : Option String
  deriving DecidableEq

/-- The foreign code: reading URIs, and form encoding. -/
structure UriCodec where
  parse : String → Option HttpUri
  serialize : List (String × String) → String
  serialize_plain : ∀ pairs, '#' ∉ (serialize pairs).toList

def loopbackHost (host : String) : Bool :=
  let bare := trimEnd (· == ']') (trimStart (· == '[') host)
  toAsciiLowercase host = "localhost" ||
    (IpText.parse bare.toList).any IpText.Address.isLoopback

variable (c : UriCodec)

/-- Whether a redirect URI is acceptable at all: HTTPS, or HTTP to this computer, with no fragment
or credentials. -/
def redirectAllowed (uri : String) : Bool :=
  match c.parse uri with
  | none => false
  | some parsed =>
      match parsed.host with
      | none => false
      | some host =>
          if '#' ∈ uri.toList ∨ parsed.authority.any (fun a => '@' ∈ a.toList) = true then false
          else
            match parsed.scheme with
            | some "https" => true
            | some "http" => loopbackHost host
            | _ => false

/-- Whether `asked` is one of the `registered` redirect URIs: exactly, except that a loopback URI
may use any port. -/
def redirectMatches (registered : List String) (asked : String) : Bool :=
  if registered.any (· = asked) then true
  else
    match c.parse asked with
    | none => false
    | some askedUri =>
        if askedUri.scheme ≠ some "http" || !askedUri.host.any loopbackHost then false
        else
          registered.any fun r =>
            (c.parse r).any fun reg =>
              reg.scheme = some "http" && reg.host = askedUri.host &&
                reg.pathAndQuery = askedUri.pathAndQuery

/-- `uri` with `pairs` added to its query. -/
def withQuery (uri : String) (pairs : List (String × String)) : String :=
  uri ++ (if '?' ∈ uri.toList then "&" else "?") ++ c.serialize pairs

end Teitunnel.Mcp
