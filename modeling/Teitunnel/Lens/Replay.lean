import Teitunnel.Lens.Webhook

/-!
# Replays

A captured request is sent again, as it was or edited, and recorded as it is sent.  A webhook may be
signed anew for each time.
-/

namespace Teitunnel.Lens.Replay

open Webhook

/-- Readers of methods, targets and header names; a name is read in lower case. -/
class Http where
  method : String → Option String
  uri : String → Option Uri
  headerName : String → Option String

def MAX_REPLAYS : ℕ := 100

/-- Changes to the captured request before it is sent again. -/
structure RequestEdits where
  method : Option String := none
  /-- Starts with `/`. -/
  pathAndQuery : Option String := none
  setHeaders : List (String × String) := []
  removeHeaders : List String := []
  body : Option (List UInt8) := none

/-- Signs a webhook anew for each replay. -/
structure Resign where
  provider : Provider
  secret : WebhookSecret

structure ReplayOptions where
  edits : RequestEdits := {}
  times : ℕ := 1
  resign : Option Resign := none

inductive LensError where
  | invalidMethod (method : String)
  | invalidPath (target : String)
  | relativePath (target : String)
  | invalidHeaderName (name : String)
  | invalidHeaderValue (name : String)
  | bodyTruncated (captured total : ℕ)
  | invalidTimes
  | webhook (error : WebhookError)
  deriving DecidableEq

structure Prepared where
  method : String
  uri : Uri
  headers : HeaderMap
  body : List UInt8
  deriving DecidableEq

section Preparing

variable [Http]

def editedMethod (request : RequestRecord) : Option String → Except LensError String
  | some method => (Http.method method).elim (.error (.invalidMethod method)) .ok
  | none => .ok request.method

def editedUri (request : RequestRecord) : Option String → Except LensError Uri
  | some target =>
      if Text.StartsWith "/" target then (Http.uri target).elim (.error (.invalidPath target)) .ok
      else .error (.relativePath target)
  | none => .ok request.uri

def removeHeader (headers : HeaderMap) (name : String) : HeaderMap :=
  (Http.headerName name).elim headers headers.remove

def setHeader (headers : HeaderMap) (edit : String × String) : Except LensError HeaderMap :=
  match Http.headerName edit.1 with
  | none => .error (.invalidHeaderName edit.1)
  | some name =>
      match HeaderValue.fromStr edit.2 with
      | none => .error (.invalidHeaderValue name)
      | some value => .ok (headers.insert name value)

/-- The body to send, and the headers with it. -/
def editedBody (request : RequestRecord) (headers : HeaderMap) :
    Option (List UInt8) → Except LensError (HeaderMap × List UInt8)
  | some body => .ok (headers.remove CONTENT_ENCODING, body)
  | none =>
      if request.body.truncated || !request.body.complete then
        .error (.bodyTruncated request.body.data.length request.body.size)
      else .ok (headers, request.body.data)

def prepare (request : RequestRecord) (edits : RequestEdits) : Except LensError Prepared := do
  let method ← editedMethod request edits.method
  let uri ← editedUri request edits.pathAndQuery
  let headers ← edits.setHeaders.foldlM setHeader
    (edits.removeHeaders.foldl removeHeader request.headers)
  let (headers, body) ← editedBody request headers edits.body
  let headers := ["content-length", "transfer-encoding", "expect"].foldl HeaderMap.remove headers
  return { method, uri, headers, body }

end Preparing

/-- The request of a replay, as it is recorded. -/
def record (cap : ℕ) (original : RequestRecord) (prepared : Prepared) (headers : HeaderMap) :
    RequestRecord where
  method := prepared.method
  uri := prepared.uri
  scheme := original.scheme
  host := original.host
  headers
  body :=
    { data := prepared.body.take cap
      size := prepared.body.length
      truncated := prepared.body.length > cap
      complete := true }

/-- The headers of one replay. -/
def signed [Foreign] (prepared : Prepared) (now : UInt64) (random : List UInt8) :
    Option Resign → Except LensError HeaderMap
  | some options =>
      (resign prepared.headers prepared.body options.secret options.provider now random).mapError
        .webhook
  | none => .ok prepared.headers

/-- Sends a request again, one time after another: what is recorded of the requests. -/
def run [Http] [Foreign] (cap : ℕ) (original : RequestRecord) (options : ReplayOptions)
    (clock : ℕ → UInt64) (random : ℕ → List UInt8) : Except LensError (List RequestRecord) :=
  if 1 ≤ options.times ∧ options.times ≤ MAX_REPLAYS then do
    let prepared ← prepare original options.edits
    (List.range options.times).mapM fun i => do
      let headers ← signed prepared (clock i) (random i) options.resign
      return record cap original prepared headers
  else .error .invalidTimes

end Teitunnel.Lens.Replay
