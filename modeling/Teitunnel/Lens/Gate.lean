import Teitunnel.Lens.Http
import Teitunnel.Lib.Base64
import Teitunnel.Ownership

/-!
# Credentials and sessions

What a tap asks a visitor for, and the signed cookie of a visitor who gave it: it covers the tap,
the time it ends and a fingerprint of the credentials.
-/

namespace Teitunnel.Lens

open Text

/-- The hashes that sessions rest on, under the key of the process. -/
class SessionCrypto where
  /-- Whether a text is a password hash in the PHC format. -/
  isPhc : String → Bool
  sha256 : List UInt8 → List UInt8
  hmac : List UInt8 → List UInt8
  length_sha256 : ∀ bytes, (sha256 bytes).length = 32

/-! ## Credentials -/

/-- A password, as its hash. -/
@[ext]
structure PasswordGate [SessionCrypto] where
  phc : String
  valid : SessionCrypto.isPhc phc = true

def PasswordGate.fromHash [SessionCrypto] (phc : String) : Option PasswordGate :=
  if h : SessionCrypto.isPhc phc = true then some ⟨phc, h⟩ else none

/-- A character of a link's token. -/
def isLinkChar (c : Char) : Bool := isAsciiAlphanumeric c || "-_.~".toList.contains c

def IsLinkToken (token : String) : Prop := 16 ≤ token.length ∧ AllChars isLinkChar token

instance (token : String) : Decidable (IsLinkToken token) := inferInstanceAs (Decidable (_ ∧ _))

@[ext]
structure SecretLink where
  token : String
  valid : IsLinkToken token

def SecretLink.new (token : String) : Option SecretLink :=
  if h : IsLinkToken token then some ⟨token, h⟩ else none

def IsBasic (user password : String) : Prop := password ≠ "" ∧ ':' ∉ user.toList

instance (user password : String) : Decidable (IsBasic user password) :=
  inferInstanceAs (Decidable (_ ∧ _))

@[ext]
structure BasicAuth where
  user : String
  password : String
  valid : IsBasic user password

def BasicAuth.new (user password : String) : Option BasicAuth :=
  if h : IsBasic user password then some ⟨user, password, h⟩ else none

/-- A character of a bearer token. -/
def isBearerChar (c : Char) : Bool := isAsciiAlphanumeric c || "-._~+/=".toList.contains c

def IsBearerToken (token : String) : Prop := 16 ≤ token.length ∧ AllChars isBearerChar token

instance (token : String) : Decidable (IsBearerToken token) := inferInstanceAs (Decidable (_ ∧ _))

@[ext]
structure BearerToken where
  token : String
  valid : IsBearerToken token

def BearerToken.new (token : String) : Option BearerToken :=
  if h : IsBearerToken token then some ⟨token, h⟩ else none

/-- What a tap asks for, and how its sessions are kept. -/
structure Gates [SessionCrypto] where
  password : Option PasswordGate
  secretLink : Option SecretLink
  basic : Option BasicAuth
  bearer : List BearerToken
  /-- How long a sign-in lasts, in seconds. -/
  sessionTtl : ℕ
  secureCookie : Bool

namespace Gates

variable [SessionCrypto] (gates : Gates)

/-! ## The fingerprint -/

def passwordText : String :=
  match gates.password with
  | some password => "p" ++ password.phc
  | none => ""

def linkText : String :=
  match gates.secretLink with
  | some link => "l" ++ link.token
  | none => ""

def basicText : String :=
  match gates.basic with
  | some basic => "b" ++ basic.user ++ ":" ++ basic.password
  | none => ""

def bearerText : String :=
  gates.bearer.foldr (fun token rest => "t" ++ token.token ++ "\x00" ++ rest) ""

/-- A digest of the credentials. -/
def fingerprint : List UInt8 :=
  SessionCrypto.sha256
    (utf8 (gates.passwordText ++ (gates.linkText ++ (gates.basicText ++ gates.bearerText))))

def cookieName : String := if gates.secureCookie then "__Host-teitunnel" else "teitunnel_session"

end Gates

/-! ## Sessions -/

namespace Sessions

variable [SessionCrypto]

/-- What a cookie's tag signs. -/
def message (tap : String) (expiry : ℕ) (fingerprint : List UInt8) : List UInt8 :=
  utf8 ("teitunnel-session-v1|" ++ tap ++ "|" ++ toString expiry ++ "|") ++ fingerprint

/-- A cookie's value, valid until `expiry`. -/
def issue (tap : String) (expiry : ℕ) (fingerprint : List UInt8) : String :=
  "v1." ++ toString expiry ++ "." ++
    Base64.encode .urlSafe (SessionCrypto.hmac (message tap expiry fingerprint))

/-- The three parts of a cookie's value. -/
def parts (value : String) : Option (String × String × String) := do
  let (version, rest) ← splitOnce '.' value
  let (expiry, tag) ← splitOnce '.' rest
  return (version, expiry, tag)

/-- Whether a value is a session of this tap and these credentials that isn't over. -/
def check (value tap : String) (fingerprint : List UInt8) (now : ℕ) : Bool :=
  match parts value with
  | some ("v1", expiry, tag) =>
      match (parseNumber expiry).filter (· < 2 ^ 64) with
      | none => false
      | some expiry =>
          if expiry ≤ now then false
          else
            match Base64.decode .urlSafe tag with
            | none => false
            | some tag => decide (SessionCrypto.hmac (message tap expiry fingerprint) = tag)
  | _ => false

/-- When a session that starts now is over. -/
def expiryAt (gates : Gates) (now : ℕ) : ℕ := (now + max gates.sessionTtl 60) % 2 ^ 64

/-- The header that sets a new session's cookie. -/
def setCookie (gates : Gates) (tap : String) (fingerprint : List UInt8) (now : ℕ) :
    Option HeaderValue :=
  let ttl := max gates.sessionTtl 60
  let value := issue tap (expiryAt gates now) fingerprint
  let secure := if gates.secureCookie then "; Secure" else ""
  HeaderValue.fromStr (gates.cookieName ++ "=" ++ value ++ "; Path=/; Max-Age=" ++ toString ttl ++
    "; HttpOnly; SameSite=Lax" ++ secure)

end Sessions

end Teitunnel.Lens
