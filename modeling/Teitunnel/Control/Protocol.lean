import Teitunnel.Lib.Json
import Teitunnel.Lib.Text

/-!
# The control protocol

The requests a client may send over the control endpoint, as far as the server looks at them.
-/

namespace Teitunnel.Control

open Text

/-- The protocol version this build speaks. -/
def PROTOCOL_VERSION : ℕ := 1

namespace method

def HELLO : String := "hello"
def STATUS : String := "status"
def SHARES_LIST : String := "shares.list"
def SHARES_START : String := "shares.start"
def SHARES_STOP : String := "shares.stop"
def SHARES_PAUSE : String := "shares.pause"
def SHARES_RESUME : String := "shares.resume"
def ROUTES_LIST : String := "routes.list"
def ROUTES_PREVIEW : String := "routes.preview"
def ROUTES_APPLY : String := "routes.apply"
def OPEN : String := "open"
def DOCTOR_RUN : String := "doctor.run"
def EVENTS_SUBSCRIBE : String := "events.subscribe"
def LOCAL_DOMAINS_LIST : String := "localDomains.list"
def LOCAL_DOMAINS_RELOAD : String := "localDomains.reload"
def AGENT_REGISTER : String := "agent.register"
def AGENT_APPROVE : String := "agent.approve"
def OAUTH_APPROVE : String := "oauth.approve"

/-- Methods that change something, so the person approves them (or the client). -/
def isMutation (name : String) : Bool :=
  [SHARES_START, SHARES_STOP, SHARES_PAUSE, SHARES_RESUME, ROUTES_APPLY, AGENT_APPROVE,
    OAUTH_APPROVE].contains name

/-- Methods that only read from the app, or bring its window to the front. -/
def readsOnly (name : String) : Bool :=
  [STATUS, SHARES_LIST, ROUTES_LIST, ROUTES_PREVIEW, OPEN, DOCTOR_RUN, LOCAL_DOMAINS_LIST,
    LOCAL_DOMAINS_RELOAD].contains name

end method

namespace event

def ALL : List String :=
  ["sharesChanged", "routesChanged", "requestArrived", "mcpConnectionEnded"]

end event

namespace code

def PARSE_ERROR : ℤ := -32700
def INVALID_REQUEST : ℤ := -32600
def METHOD_NOT_FOUND : ℤ := -32601
def INVALID_PARAMS : ℤ := -32602
def UNAUTHORIZED : ℤ := -32001
def RATE_LIMITED : ℤ := -32002
def DECLINED : ℤ := -32003
def TOO_LARGE : ℤ := -32007
def TIMEOUT : ℤ := -32009
def UNSUPPORTED_PROTOCOL : ℤ := -32010

end code

structure Request where
  jsonrpc : String
  /-- Absent for notifications. -/
  id : Option Json
  method : String
  params : Option Json

structure RpcError where
  code : ℤ
  message : String

/-- 1 to `max` printable characters, not all of them white space. -/
def validText (s : String) (max : ℕ) : Bool :=
  trim s ≠ "" && s.length ≤ max && !s.toList.any isControl

/-- Who is connecting. -/
structure ClientInfo where
  name : String
  version : String
deriving DecidableEq

def ClientInfo.isValid (client : ClientInfo) : Bool :=
  validText client.name 64 && client.version.length ≤ 64

structure HelloParams where
  protocol : ℕ
  token : String
  client : ClientInfo

/-- Which Host header a share sends to the service. -/
inductive HostHeader where
  | auto
  | off
  | set (value : String)
deriving DecidableEq

structure ShareFolder where
  path : String
  listing : Option Bool
  spa : Bool
deriving DecidableEq

structure StartShare where
  origin : String
  stopAfterSeconds : Option ℕ
  hostHeader : HostHeader
  folder : Option ShareFolder
deriving DecidableEq

structure StopShare where
  id : String
deriving DecidableEq

structure PauseShare where
  id : String
  account : Option String
deriving DecidableEq

structure ApplyParams where
  account : Option String
  tunnel : Option String
  change : Json
  fingerprint : String
  /-- Allow replacing or deleting DNS records Teitunnel didn't create. -/
  confirmed : Bool
deriving DecidableEq

/-- An AI agent an MCP server serves. -/
structure AgentInfo where
  name : String
  version : Option String
  mode : String

def AgentInfo.isValid (agent : AgentInfo) : Bool :=
  validText agent.name 64 && agent.version.all (validText · 64) && validText agent.mode 16

structure AgentApproval where
  agent : String
  title : String
  details : String

structure OAuthApproval where
  host : String
  clientName : String
  publishedBy : Option String
  redirectHost : String
  redirectLoopback : Bool
  code : String

def OAuthApproval.isValid (approval : OAuthApproval) : Bool :=
  let ok (s : String) (max : ℕ) : Bool := s.length ≤ max && !s.toList.any isControl
  ok approval.host 253 && approval.host ≠ "" && ok approval.clientName 100 &&
    approval.publishedBy.all (ok · 253) && ok approval.redirectHost 253 &&
    approval.code.utf8ByteSize ≤ 8 && approval.code.toList.all isAsciiAlphanumeric

/-- A change a client asked for, for the person to approve. -/
inductive Action where
  | startShare (request : StartShare)
  | stopShare (request : StopShare)
  | pauseShare (request : PauseShare)
  | resumeShare (request : PauseShare)
  | apply (request : ApplyParams)
deriving DecidableEq

/-- Changes to DNS records Teitunnel didn't create are always asked about. -/
def Action.alwaysAsk : Action → Bool
  | apply request => request.confirmed
  | _ => false

/-- The person's answer. -/
inductive Decision where
  | once
  | always
  /-- Also: the dialog was dismissed or timed out. -/
  | deny
deriving DecidableEq

/-- How bytes and JSON values are read. -/
structure Codec where
  /-- The text of a line, what isn't UTF-8 replaced. -/
  text : List UInt8 → String
  value : String → Option Json
  request : Json → Option Request
  hello : Json → Except String HelloParams
  startShare : Json → Except String StartShare
  stopShare : Json → Except String StopShare
  pauseShare : Json → Except String PauseShare
  apply : Json → Except String ApplyParams
  agentInfo : Json → Except String AgentInfo
  agentApproval : Json → Except String AgentApproval
  oauthApproval : Json → Except String OAuthApproval
  subscribe : Json → Except String (Option (List String))
  /-- Whether the parameters fit a method that only reads. -/
  fits : String → Option Json → Except String Unit

/-- The parameters of a method. -/
def params {α : Type} (decode : Json → Except String α) (raw : Option Json) : Except RpcError α :=
  match decode (raw.getD .null) with
  | .ok value => .ok value
  | .error e => .error ⟨code.INVALID_PARAMS, s!"Invalid parameters: {e}."⟩

end Teitunnel.Control
