import Teitunnel.Lens.Capture
import Teitunnel.Lens.Query

/-!
# Exports of captured requests

The command lines that repeat a captured request, from a view of it in which secrets may be masked.
Bodies are exported decoded.
-/

namespace Teitunnel.Lens

open Text

/-- One header in a view. -/
structure HeaderView where
  name : String
  value : String
  deriving DecidableEq

/-- A body in a view. -/
structure BodyView where
  /-- Bytes on the wire. -/
  size : ℕ := 0
  /-- Bytes captured. -/
  captured : ℕ := 0
  truncated : Bool := false
  complete : Bool := true
  /-- Text bodies: decoded and masked. -/
  text : Option String := none
  /-- Binary bodies: decoded, as base64. -/
  base64 : Option String := none
  /-- A body is text or binary. -/
  exclusive : text = none ∨ base64 = none
  deriving DecidableEq

/-- The request part of a view. -/
structure RequestView where
  method : String
  url : String
  host : String
  headers : List HeaderView
  body : BodyView
  deriving DecidableEq

/-- How each part of a request is read and masked. -/
structure Masks where
  text : String → Redaction → String
  query : String → Redaction → String
  header : String → String → Redaction → String
  body : HeaderMap → BodyRecord → Redaction → BodyView
  /-- Bytes that are no text, as text. -/
  lossy : List UInt8 → String

namespace RequestRecord

variable (masks : Masks) (request : RequestRecord) (redaction : Redaction)

def headersView : List HeaderView :=
  request.headers.entries.map fun (name, value) =>
    let raw := match value with
      | .text text => text.asStr
      | .bytes data => masks.lossy data
    { name, value := masks.header name raw redaction }

/-- A display- and export-ready copy with secrets handled per `redaction`. -/
def view : RequestView :=
  let path := masks.text request.uri.path redaction
  let query := request.uri.query.map fun query => masks.query query redaction
  { method := request.method
    url := request.scheme ++ "://" ++ request.host ++ path ++
      (query.map fun q => "?" ++ q).getD ""
    host := request.host
    headers := request.headersView masks redaction
    body := masks.body request.headers request.body redaction }

end RequestRecord

/-- Headers never worth exporting in a request someone will re-run. -/
def skipRequestHeader (name : String) (hostMatchesUrl : Bool) : Bool :=
  ["content-length", "connection", "keep-alive", "transfer-encoding", "content-encoding",
    "proxy-connection", "te", "upgrade"].contains name || (name == "host" && hostMatchesUrl)

/-- The request's headers and body for exports. -/
structure RequestParts where
  method : String
  url : String
  headers : List HeaderView
  body : BodyView
  deriving DecidableEq

def requestParts (masks : Masks) (exchange : Exchange) (redaction : Redaction) : RequestParts :=
  let request := exchange.request.view masks redaction
  { method := request.method
    url := request.url
    headers := request.headers.filter fun h =>
      !skipRequestHeader h.name (h.name == "host" && h.value == request.host)
    body := request.body }

/-- Single-quotes for POSIX shells. -/
def sh (text : String) : String :=
  "'" ++ String.ofList (text.toList.flatMap fun c =>
    if c = Char.ofNat 39 then "'\\''".toList else [c]) ++ "'"

def truncationNote (body : BodyView) (comment : String) : String :=
  if body.truncated || !body.complete then
    comment ++ " Note: the captured body is incomplete (" ++ toString body.captured ++ " of " ++
      toString body.size ++ " bytes).\n"
  else ""

/-- What a binary body is piped through. -/
def decodePipe (b64 : String) : String := "printf '%s' " ++ sh b64 ++ " | base64 --decode | "

def joinArgs (args : List String) : String := " \\\n  ".intercalate args

/-- A `curl` command reproducing the request. -/
def curl (parts : RequestParts) : String :=
  let method := if parts.method ≠ "GET" || parts.body.text.isSome || parts.body.base64.isSome then
    ["-X " ++ parts.method] else []
  let headers := parts.headers.map fun header => "-H " ++ sh (header.name ++ ": " ++ header.value)
  let pipe := match parts.body.text, parts.body.base64 with
    | none, some b64 => decodePipe b64
    | _, _ => ""
  let data := match parts.body.text, parts.body.base64 with
    | some text, _ => ["--data-raw " ++ sh text]
    | none, some _ => ["--data-binary @-"]
    | none, none => []
  truncationNote parts.body "#" ++ pipe ++
    joinArgs (["curl"] ++ method ++ [sh parts.url] ++ headers ++ data) ++ "\n"

end Teitunnel.Lens
