import Teitunnel.Lib.Base64
import Teitunnel.Lib.Hex
import Teitunnel.Lib.Json
import Teitunnel.Lib.Sha256
import Teitunnel.Lib.SortedMap
import Teitunnel.Lib.Uris
import Teitunnel.Lens.Capture
import Teitunnel.Lens.Folder
import Teitunnel.Lens.Inject

/-!
# Webhook signatures

The signature of a captured webhook is checked with the sender's secret, and a replay is signed
anew where the sender's scheme allows it.  The keyed hashes are any functions.
-/

namespace Teitunnel.Lens.Webhook

open Text
open Upstream (parseU64)

/-- The keyed hashes and signatures, and the readers of JSON and of bytes that may be no text. -/
class Foreign where
  /-- Of a key and a message. -/
  hmacSha256 : List UInt8 → List UInt8 → List UInt8
  hmacSha1 : List UInt8 → List UInt8 → List UInt8
  /-- Whether a public key accepts a message with a signature. -/
  ed25519 : List UInt8 → List UInt8 → List UInt8 → Bool
  readJson : List UInt8 → Option Json
  /-- Bytes as text, with replacement characters. -/
  lossy : List UInt8 → String

/-- Webhook senders. -/
inductive Provider where
  | stripe
  | gitHub
  | slack
  | shopify
  | standardWebhooks
  | twilio
  | linear
  | discord
  deriving DecidableEq, Repr

/-- The tolerance that the sender's documentation recommends, in seconds. -/
def Provider.defaultTolerance : Provider → Option ℕ
  | stripe | slack | standardWebhooks => some 300
  | linear => some 60
  | gitHub | shopify | twilio | discord => none

/-- Whether `resign` supports this sender. -/
def Provider.canResign : Provider → Bool
  | twilio | discord => false
  | _ => true

/-- Recognises the sender from request headers. -/
def detect (headers : HeaderMap) : Option Provider :=
  if headers.containsKey "stripe-signature" then some .stripe
  else if headers.containsKey "x-hub-signature-256" || headers.containsKey "x-hub-signature" then
    some .gitHub
  else if headers.containsKey "x-slack-signature" then some .slack
  else if headers.containsKey "x-shopify-hmac-sha256" then some .shopify
  else if headers.containsKey "webhook-signature" || headers.containsKey "svix-signature" then
    some .standardWebhooks
  else if headers.containsKey "x-twilio-signature" then some .twilio
  else if headers.containsKey "linear-signature" then some .linear
  else if headers.containsKey "x-signature-ed25519" then some .discord
  else none

/-- The signing secret or the public key, as the sender shows it. -/
structure WebhookSecret where
  expose : String
  deriving DecidableEq

namespace WebhookSecret

def raw (secret : WebhookSecret) : List UInt8 := utf8 (trim secret.expose)

/-- The key in base64 after an optional `whsec_`. -/
def standardKey (secret : WebhookSecret) : Option (List UInt8) :=
  let text := trim secret.expose
  Base64.decodePadded .standard ((stripStart "whsec_" text).getD text)

end WebhookSecret

/-- The outcome of a verification. -/
inductive Verification where
  | valid
  /-- The signature doesn't match, or headers are missing or malformed. -/
  | invalid (reason : String)
  /-- The signature matches, but its time is outside the tolerance. -/
  | expired (timestamp : ℕ) (ageSecs : ℤ)
  | unknownProvider
  | notEnoughData (reason : String)
  deriving DecidableEq

/-- What a verification looks at. -/
structure VerifyInput where
  headers : HeaderMap
  /-- The body as received, decoded. -/
  body : List UInt8
  bodyComplete : Bool
  /-- The public URL that the sender called. -/
  url : String
  /-- In seconds of Unix time. -/
  now : UInt64
  /-- In seconds; the sender's default without one. -/
  tolerance : Option ℕ

/-- The text of the first value of a header. -/
def header (headers : HeaderMap) (name : String) : Option String :=
  (headers.getText? name).map trim

def I64_MAX : ℕ := 2 ^ 63 - 1

/-- How old a signature is, in seconds; negative when it comes from the future. -/
def age (timestamp : ℕ) (now : UInt64) : ℤ :=
  (min now.toNat I64_MAX : ℕ) - (min timestamp I64_MAX : ℕ)

/-- Valid, or expired when the time is outside the tolerance. -/
def checkTime (timestamp : ℕ) (now : UInt64) : Option ℕ → Verification
  | none => .valid
  | some tolerance =>
      if (age timestamp now).natAbs > tolerance then .expired timestamp (age timestamp now)
      else .valid

/-! ## Checking -/

section Checking

variable [Foreign] (input : VerifyInput) (secret : WebhookSecret) (tolerance : Option ℕ)

open Foreign

/-- One part of Stripe's header. -/
def stripePart (found : Option ℕ × List (List UInt8)) (part : String) :
    Option ℕ × List (List UInt8) :=
  match splitOnce '=' (trim part) with
  | some (name, text) =>
      if name = "t" then (parseU64 text, found.2)
      else if name = "v1" then (found.1, found.2 ++ (Hex.decode text).toList)
      else found
  | none => found

def verifyStripe : Verification :=
  match header input.headers "stripe-signature" with
  | none => .invalid "the Stripe-Signature header is missing"
  | some value =>
      match (split ',' value).foldl stripePart (none, []) with
      | (none, _) => .invalid "Stripe-Signature has no timestamp"
      | (some timestamp, candidates) =>
          if candidates.contains
              (hmacSha256 secret.raw (utf8 (toString timestamp) ++ utf8 "." ++ input.body)) then
            checkTime timestamp input.now tolerance
          else .invalid "no v1 signature matches"

def verifyGitHub : Verification :=
  match header input.headers "x-hub-signature-256" with
  | some value =>
      match (stripStart "sha256=" value).bind Hex.decode with
      | none => .invalid "X-Hub-Signature-256 isn't sha256=<hex>"
      | some sig =>
          if sig = hmacSha256 secret.raw input.body then .valid
          else .invalid "the signature doesn't match"
  | none =>
      match ((header input.headers "x-hub-signature").bind (stripStart "sha1=")).bind
          Hex.decode with
      | none => .invalid "X-Hub-Signature-256 is missing"
      | some sig =>
          if sig = hmacSha1 secret.raw input.body then .valid
          else .invalid "the signature doesn't match"

def verifySlack : Verification :=
  match header input.headers "x-slack-request-timestamp",
      header input.headers "x-slack-signature" with
  | some ts, some sig =>
      match parseU64 ts with
      | none => .invalid "X-Slack-Request-Timestamp isn't a number"
      | some timestamp =>
          match (stripStart "v0=" sig).bind Hex.decode with
          | none => .invalid "X-Slack-Signature isn't v0=<hex>"
          | some sig =>
              if sig = hmacSha256 secret.raw (utf8 "v0:" ++ utf8 ts ++ utf8 ":" ++ input.body) then
                checkTime timestamp input.now tolerance
              else .invalid "the signature doesn't match"
  | _, _ => .invalid "X-Slack-Request-Timestamp or X-Slack-Signature is missing"

def verifyShopify : Verification :=
  match (header input.headers "x-shopify-hmac-sha256").bind (Base64.decodePadded .standard) with
  | none => .invalid "X-Shopify-Hmac-Sha256 is missing or not base64"
  | some sig =>
      if sig = hmacSha256 secret.raw input.body then .valid
      else .invalid "the signature doesn't match"

/-- The names of the headers with the id, the time and the signatures. -/
structure StandardNames where
  id : String
  timestamp : String
  signature : String

def standardNames (headers : HeaderMap) : StandardNames :=
  if headers.containsKey "webhook-signature" || !headers.containsKey "svix-signature" then
    ⟨"webhook-id", "webhook-timestamp", "webhook-signature"⟩
  else ⟨"svix-id", "svix-timestamp", "svix-signature"⟩

/-- A signature of version 1. -/
def standardEntry (entry : String) : Option (List UInt8) :=
  match splitOnce ',' entry with
  | some (version, sig) => if version = "v1" then Base64.decodePadded .standard sig else none
  | none => none

def verifyStandard : Verification :=
  let names := standardNames input.headers
  match header input.headers names.id, header input.headers names.timestamp,
      header input.headers names.signature with
  | some id, some ts, some signatures =>
      match parseU64 ts with
      | none => .invalid (names.timestamp ++ " isn't a number")
      | some timestamp =>
          match secret.standardKey with
          | none => .invalid "the secret isn't whsec_<base64>"
          | some key =>
              if ((split ' ' signatures).filterMap standardEntry).contains
                  (hmacSha256 key (utf8 id ++ utf8 "." ++ utf8 ts ++ utf8 "." ++ input.body)) then
                checkTime timestamp input.now tolerance
              else .invalid "no v1 signature matches"
  | _, _, _ =>
      .invalid (names.id ++ ", " ++ names.timestamp ++ " or " ++ names.signature ++ " is missing")

/-- A byte of a form, where a plus stands for a space. -/
def formByte (b : UInt8) : UInt8 := if b = 43 then 32 else b

def formText (bytes : List UInt8) : String := lossy (Uris.decodeBytes (bytes.map formByte))

/-- The fields of a form in the order of their names; the last value of a name counts. -/
def parseForm (body : List UInt8) : List (String × String) :=
  (body.splitOn 38).foldl (fun params pair =>
    let key := formText (pair.takeWhile (· ≠ 61))
    let value := formText ((pair.dropWhile (· ≠ 61)).drop 1)
    SortedMap.entry key "" (fun _ => value) params) []

def isForm (headers : HeaderMap) : Bool :=
  match headers.getText? "content-type" with
  | some value => StartsWith "application/x-www-form-urlencoded" value
  | none => false

/-- The digest of the body that a URL carries. -/
def declaredDigest (url : String) : Option String :=
  (splitOnce '?' url).bind fun (_, query) => (split '&' query).findSome? (stripStart "bodySHA256=")

/-- What Twilio signs: the URL, and the fields of a form. -/
def twilioSigned : List UInt8 :=
  utf8 input.url ++ if isForm input.headers then
    (parseForm input.body).flatMap fun (key, value) => utf8 key ++ utf8 value
  else []

/-- The URL doesn't carry the digest of another body. -/
def twilioFits : Bool :=
  isForm input.headers ||
    match declaredDigest input.url with
    | some declared => toAsciiLowercase declared = Hex.encode (Sha256.bytes input.body)
    | none => true

def verifyTwilio : Verification :=
  match (header input.headers "x-twilio-signature").bind (Base64.decodePadded .standard) with
  | none => .invalid "X-Twilio-Signature is missing or not base64"
  | some sig =>
      if twilioFits input then
        if sig = hmacSha1 secret.raw (twilioSigned input) then .valid
        else .invalid "the signature doesn't match (check the URL Twilio called)"
      else .invalid "bodySHA256 doesn't match the body"

/-- A number of JSON that is not negative. -/
def asU64 : Json → Option ℕ
  | .num n => if 0 ≤ n ∧ n < 2 ^ 64 then some n.toNat else none
  | _ => none

/-- The time in a body that Linear sent, in milliseconds. -/
def webhookTimestamp (body : List UInt8) : Option ℕ :=
  ((readJson body).bind (Json.get? "webhookTimestamp")).bind asU64

def verifyLinear : Verification :=
  match (header input.headers "linear-signature").bind Hex.decode with
  | none => .invalid "Linear-Signature is missing or not hex"
  | some sig =>
      if sig = hmacSha256 secret.raw input.body then
        match webhookTimestamp input.body with
        | some ms => checkTime (ms / 1000) input.now tolerance
        | none => .valid
      else .invalid "the signature doesn't match"

def verifyDiscord : Verification :=
  match (header input.headers "x-signature-ed25519").bind Hex.decode,
      header input.headers "x-signature-timestamp" with
  | some sig, some ts =>
      match Hex.decode (trim secret.expose) with
      | none => .invalid "the Discord public key isn't hex"
      | some publicKey =>
          if ed25519 publicKey (utf8 ts ++ input.body) sig then .valid
          else .invalid "the signature doesn't match"
  | _, _ => .invalid "X-Signature-Ed25519 or X-Signature-Timestamp is missing"

/-- Verifies a request against the sender's scheme. -/
def verify (provider : Provider) : Verification :=
  if input.bodyComplete then
    let tolerance := input.tolerance.or provider.defaultTolerance
    match provider with
    | .stripe => verifyStripe input secret tolerance
    | .gitHub => verifyGitHub input secret
    | .slack => verifySlack input secret tolerance
    | .shopify => verifyShopify input secret
    | .standardWebhooks => verifyStandard input secret tolerance
    | .twilio => verifyTwilio input secret
    | .linear => verifyLinear input secret tolerance
    | .discord => verifyDiscord input secret
  else .notEnoughData "the captured body is truncated; raise the capture limit to verify"

end Checking

/-- A character of a header in a quoted text. -/
def debugChar (c : Char) : List Char :=
  if c = '"' then ['\\', '"']
  else if c = '\\' then ['\\', '\\']
  else if c = '\t' then ['\\', 't']
  else [c]

def debugText (s : String) : String :=
  "\"" ++ String.ofList (s.toList.flatMap debugChar) ++ "\""

/-- The message of an error in decoding. -/
def decodeErrorText : DecodeError → String
  | .unsupported encoding => "unsupported content encoding " ++ debugText encoding
  | .corrupt name => "the " ++ name ++ " data is corrupt or incomplete"

/-- Verifies a captured request, recognising the sender unless it is given. -/
def verifyExchange [Foreign] [Decompressors] (request : RequestRecord) (secret : WebhookSecret)
    (provider : Option Provider) (now : UInt64) : Verification :=
  match provider.or (detect request.headers) with
  | none => .unknownProvider
  | some provider =>
      match decodeBody request.headers request.body.data with
      | .error err => .notEnoughData (decodeErrorText err)
      | .ok body =>
          verify
            { headers := request.headers
              body
              bodyComplete := request.body.complete && !request.body.truncated
              url := request.scheme ++ "://" ++ request.host ++ request.uri.pathAndQuery
              now
              tolerance := none }
            secret provider

/-! ## Signing -/

/-- Why signing anew failed. -/
inductive WebhookError where
  | unsupported (provider : Provider)
  | invalidSecret
  deriving DecidableEq

def set (headers : HeaderMap) (name value : String) : HeaderMap := headers.insertText name value

section Signing

variable [Foreign] (headers : HeaderMap) (body : List UInt8) (secret : WebhookSecret) (ts : String)

open Foreign

def resignStripe : HeaderMap :=
  set headers "stripe-signature" ("t=" ++ ts ++ ",v1=" ++
    Hex.encode (hmacSha256 secret.raw (utf8 ts ++ utf8 "." ++ body)))

def resignGitHub : HeaderMap :=
  let headers := set headers "x-hub-signature-256"
    ("sha256=" ++ Hex.encode (hmacSha256 secret.raw body))
  if headers.containsKey "x-hub-signature" then
    set headers "x-hub-signature" ("sha1=" ++ Hex.encode (hmacSha1 secret.raw body))
  else headers

def resignSlack : HeaderMap :=
  set (set headers "x-slack-request-timestamp" ts) "x-slack-signature" ("v0=" ++
    Hex.encode (hmacSha256 secret.raw (utf8 "v0:" ++ utf8 ts ++ utf8 ":" ++ body)))

def resignShopify : HeaderMap :=
  set headers "x-shopify-hmac-sha256"
    (Base64.encodePadded .standard (hmacSha256 secret.raw body))

/-- The id that a webhook without one gets, from random bytes. -/
def freshId (random : List UInt8) : String := "msg_" ++ Hex.encode random

def standardHeaders (random key : List UInt8) : HeaderMap :=
  let names := standardNames headers
  let id := (header headers names.id).getD (freshId random)
  let sig := hmacSha256 key (utf8 id ++ utf8 "." ++ utf8 ts ++ utf8 "." ++ body)
  set (set (set headers names.id id) names.timestamp ts) names.signature
    ("v1," ++ Base64.encodePadded .standard sig)

def resignStandard (random : List UInt8) : Option (List UInt8) → Except WebhookError HeaderMap
  | some key => .ok (standardHeaders headers body ts random key)
  | none => .error .invalidSecret

def resignLinear : HeaderMap :=
  set headers "linear-signature" (Hex.encode (hmacSha256 secret.raw body))

/-- Signs a body anew, in place of the headers with the signature and the time. -/
def resign (provider : Provider) (now : UInt64) (random : List UInt8) :
    Except WebhookError HeaderMap :=
  let ts := toString now.toNat
  match provider with
  | .stripe => .ok (resignStripe headers body secret ts)
  | .gitHub => .ok (resignGitHub headers body secret)
  | .slack => .ok (resignSlack headers body secret ts)
  | .shopify => .ok (resignShopify headers body secret)
  | .standardWebhooks => resignStandard headers body ts random secret.standardKey
  | .linear => .ok (resignLinear headers body secret)
  | .twilio => .error (.unsupported .twilio)
  | .discord => .error (.unsupported .discord)

end Signing

end Teitunnel.Lens.Webhook
