import Teitunnel.Lib.Search
import Teitunnel.Lens.Http

/-!
# Putting a snippet into pages

The snippet goes before the last `</body>` of a page, while the page streams or in a page that is
read whole.
-/

namespace Teitunnel.Lens

open Text

/-! ## Bodies -/

inductive Frame where
  | data (bytes : List UInt8)
  | trailers (headers : HeaderMap)
  deriving DecidableEq

/-- What polling the origin's body gives, until it ends. -/
inductive Polled where
  | pending
  | failed
  | frame (frame : Frame)
  deriving DecidableEq

/-- The bytes of a body, up to a limit, and whether that is all of it. -/
def readLimited (limit : ℕ) : List Polled → List UInt8 → Option (List UInt8 × Bool)
  | [], out => some (out, true)
  | .pending :: body, out => readLimited limit body out
  | .failed :: _, _ => none
  | .frame (.trailers _) :: body, out => readLimited limit body out
  | .frame (.data bytes) :: body, out =>
      let room := limit - out.length
      if bytes.length > room then some (out ++ bytes.take room, false)
      else readLimited limit body (out ++ bytes)

/-! ## Encoded bodies -/

/-- The decompressors: what comes out, and whether they end without an error. -/
class Decompressors where
  gunzip : List UInt8 → List UInt8 × Bool
  zlib : List UInt8 → List UInt8 × Bool
  inflate : List UInt8 → List UInt8 × Bool
  brotli : List UInt8 → List UInt8 × Bool

inductive DecodeError where
  | unsupported (encoding : String)
  | corrupt (name : String)
  deriving DecidableEq

def MAX_DECODED_BYTES : ℕ := 8 * 1024 * 1024

/-- What a decompressor gives, up to the limit. -/
def readBounded (read : List UInt8 × Bool) (name : String) : Except DecodeError (List UInt8) :=
  if read.2 = true ∨ read.1 ≠ [] then .ok (read.1.take MAX_DECODED_BYTES)
  else .error (.corrupt name)

def decodeOne [Decompressors] (encoding : String) (data : List UInt8) :
    Except DecodeError (List UInt8) :=
  match encoding with
  | "gzip" => readBounded (Decompressors.gunzip data) "gzip"
  | "x-gzip" => readBounded (Decompressors.gunzip data) "gzip"
  | "deflate" =>
      -- some servers send it without the wrapping
      match readBounded (Decompressors.zlib data) "deflate" with
      | .ok out => .ok out
      | .error _ => readBounded (Decompressors.inflate data) "deflate"
  | "br" => readBounded (Decompressors.brotli data) "brotli"
  | other => .error (.unsupported other)

def CONTENT_ENCODING : String := "content-encoding"

/-- The encodings of a body, in the order they were applied. -/
def encodings (headers : HeaderMap) : List String :=
  let values := (headers.getAll CONTENT_ENCODING).filterMap HeaderValue.toStr
  let tokens := (values.flatMap (split ',')).map fun token => toAsciiLowercase (trim token)
  tokens.filter fun token => token ≠ "" ∧ token ≠ "identity"

def decodeBody [Decompressors] (headers : HeaderMap) (data : List UInt8) :
    Except DecodeError (List UInt8) :=
  (encodings headers).reverse.foldlM (fun data encoding => decodeOne encoding data) data

/-! ## The snippet -/

/-- A byte in lower case. -/
def toAsciiLower (b : UInt8) : UInt8 := if 65 ≤ b ∧ b ≤ 90 then b + 32 else b

def CLOSE_BODY : List UInt8 := [0x3c, 0x2f, 0x62, 0x6f, 0x64, 0x79, 0x3e]

def rfindAsciiCi (haystack needle : List UInt8) : Option ℕ :=
  Search.rfind toAsciiLower needle haystack

structure Injection where
  snippet : List UInt8
  maxHtmlBytes : ℕ

/-- A changed body can't keep a strong validator. -/
def weakenEtag (headers : HeaderMap) : HeaderMap :=
  match (headers.get? "etag").bind HeaderValue.toStr with
  | some etag =>
      if StartsWith "W/" etag then headers
      else
        match HeaderValue.fromStr ("W/" ++ etag) with
        | some weak => headers.insert "etag" weak
        | none => headers
  | none => headers

/-- Without the encoding, and with the length of the body it has now. -/
def plainHeaders (headers : HeaderMap) (body : List UInt8) : HeaderMap :=
  match HeaderValue.fromStr (toString body.length) with
  | some length => (headers.remove CONTENT_ENCODING).insert "content-length" length
  | none => headers.remove CONTENT_ENCODING

/-- An answer whose body was read whole. -/
structure FullResponse where
  headers : HeaderMap
  body : List UInt8
  deriving DecidableEq

/-- Puts the snippet into an encoded page that is read whole. -/
def injectBuffered [Decompressors] (injection : Injection) (headers : HeaderMap)
    (body : List Polled) : FullResponse :=
  match readLimited injection.maxHtmlBytes body [] with
  | none => ⟨headers, []⟩
  | some (data, false) => ⟨headers, data⟩
  | some (data, true) =>
      match decodeBody headers data with
      | .error _ => ⟨headers, data⟩
      | .ok decoded =>
          match rfindAsciiCi decoded CLOSE_BODY with
          | none => ⟨plainHeaders headers decoded, decoded⟩
          | some place =>
              let out := decoded.take place ++ injection.snippet ++ decoded.drop place
              ⟨weakenEtag (plainHeaders headers out), out⟩

/-! ## While the page streams -/

/-- A page on its way with the snippet. -/
structure InjectBody where
  inner : List Polled
  snippet : Option (List UInt8)
  /-- From the latest `</body>` on, or what may be the beginning of one. -/
  held : List UInt8
  maxHeld : ℕ
  /-- Too much came after a `</body>`: everything is let through. -/
  passthrough : Bool
  ended : Bool
  trailers : Option HeaderMap

namespace InjectBody

def new (inner : List Polled) (snippet : List UInt8) (maxHeld : ℕ) : InjectBody where
  inner := inner
  snippet := some snippet
  held := []
  maxHeld := maxHeld
  passthrough := false
  ended := false
  trailers := none

/-- Everything held. -/
def takeHeld (self : InjectBody) : Option (List UInt8) × InjectBody :=
  (if self.held = [] then none else some self.held, { self with held := [] })

/-- How much of what is held can't matter any more: without a `</body>`, all but what could be
the beginning of one. -/
def keepFrom (held : List UInt8) : ℕ :=
  match rfindAsciiCi held CLOSE_BODY with
  | some place => place
  | none => held.length - (CLOSE_BODY.length - 1)

/-- What can be sent now. -/
def release (self : InjectBody) : Option (List UInt8) × InjectBody :=
  if self.passthrough then self.takeHeld
  else if self.held.length - keepFrom self.held > self.maxHeld then
    { self with passthrough := true, snippet := none }.takeHeld
  else
    (if keepFrom self.held > 0 then some (self.held.take (keepFrom self.held)) else none,
      { self with held := self.held.drop (keepFrom self.held) })

/-- What is left at the end. -/
def finish (self : InjectBody) : Option (List UInt8) × InjectBody :=
  match self.snippet with
  | some snippet =>
      if self.passthrough = false ∧ CLOSE_BODY.length ≤ self.held.length ∧
          (self.held.take CLOSE_BODY.length).map toAsciiLower = CLOSE_BODY.map toAsciiLower then
        (some (snippet ++ self.held), { self with held := [], snippet := none })
      else { self with snippet := none }.takeHeld
  | none => self.takeHeld

/-- What a poll gives. -/
inductive Poll where
  | pending
  | failed
  | frame (frame : Frame)
  | done
  deriving DecidableEq

/-- The frames after the origin's body ended. -/
def pollEnded (self : InjectBody) : Poll × InjectBody :=
  match self.finish with
  | (some rest, self) => (.frame (.data rest), self)
  | (none, self) =>
      match self.trailers with
      | some trailers => (.frame (.trailers trailers), { self with trailers := none })
      | none => (.done, self)

/-- Reads the origin's body until something can be sent. -/
def pull : List Polled → InjectBody → Poll × InjectBody
  | [], self => pollEnded { self with inner := [], ended := true }
  | .pending :: inner, self => (.pending, { self with inner := inner })
  | .failed :: inner, self => (.failed, { self with inner := inner })
  | .frame (.data bytes) :: inner, self =>
      match release { self with inner := inner, held := self.held ++ bytes } with
      | (some ready, self) => (.frame (.data ready), self)
      | (none, self) => pull inner self
  | .frame (.trailers trailers) :: inner, self =>
      pollEnded { self with inner := inner, trailers := some trailers, ended := true }

def pollFrame (self : InjectBody) : Poll × InjectBody :=
  if self.ended then self.pollEnded else pull self.inner self

/-- The frames from a poll on. -/
def afterPoll (rest : InjectBody → Option (List Frame)) :
    Poll × InjectBody → Option (List Frame)
  | (.pending, self) => rest self
  | (.failed, _) => none
  | (.frame frame, self) => (rest self).map (frame :: ·)
  | (.done, _) => some []

/-- The frames of a body that comes to its end within some polls. -/
def collect : ℕ → InjectBody → Option (List Frame)
  | 0, _ => none
  | n + 1, self => afterPoll (collect n) self.pollFrame

end InjectBody

end Teitunnel.Lens
