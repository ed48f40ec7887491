import Teitunnel.Lens.Http

/-!
# The captured exchange

What is recorded about one request and its response, as received, so that it can be sent again.
-/

namespace Teitunnel.Lens

/-- Identifies a tap. -/
abbrev TapId := String

/-- Identifies an exchange across all taps; no two have the same. -/
abbrev ExchangeId := ℕ

/-- What kind of traffic an exchange carries. -/
inductive ExchangeKind where
  | http
  | webSocket
  | sse
  | upgrade
  deriving DecidableEq, Repr

/-- Where an exchange is in its life. -/
inductive ExchangeState where
  /-- Waiting for the response head. -/
  | pending
  /-- The response head was sent. -/
  | streaming
  | complete
  | failed
  deriving DecidableEq, Repr

/-- Why a gate stopped a request. -/
inductive GateOutcome where
  | ipNotAllowed
  | ipDenied
  | userAgentBlocked
  | passwordRequired
  | passwordWrong
  | rateLimited
  | signedIn
  | linkAccepted
  | linkRequired
  | basicAuthRequired
  | bearerRequired
  | oAuthRequired
  deriving DecidableEq, Repr

/-- Who produced the response. -/
inductive Responder where
  | upstream
  | folder
  | stub (rule : ℕ) (fallback : Bool)
  | gate (reason : GateOutcome)
  | paused
  | fault (rule : ℕ)
  | breakpoint
  | lens
  deriving DecidableEq, Repr

/-- Times since the request's head arrived, in microseconds. -/
structure Timings where
  upstreamConnectedUs : Option ℕ := none
  firstByteUs : Option ℕ := none
  requestDoneUs : Option ℕ := none
  completeUs : Option ℕ := none
  deriving DecidableEq

/-- A captured body: the first bytes, and the true size. -/
structure BodyRecord where
  data : List UInt8 := []
  size : ℕ := 0
  truncated : Bool := false
  complete : Bool := false
  deriving DecidableEq

/-- The request as received. -/
structure RequestRecord where
  method : String
  uri : Uri
  scheme : String
  host : String
  headers : HeaderMap
  body : BodyRecord := {}
  deriving DecidableEq

/-- The response as sent to the client. -/
structure ResponseRecord where
  status : ℕ
  headers : HeaderMap
  body : BodyRecord := {}
  deriving DecidableEq

/-- Why an exchange failed. -/
inductive ErrorKind where
  | connectionRefused
  | timeout
  | connectionReset
  | dns
  | tls
  | protocol
  | clientAborted
  | io
  | other
  deriving DecidableEq, Repr

/-- An error recorded on an exchange. -/
structure ExchangeError where
  kind : ErrorKind
  message : String
  deriving DecidableEq

/-- Messages and bytes of one direction of a stream. -/
structure MessageCounts where
  count : ℕ := 0
  bytes : ℕ := 0
  deriving DecidableEq

/-- Summary of a stream. -/
structure StreamStats where
  client : MessageCounts := {}
  server : MessageCounts := {}
  previews : List String := []
  closed : Bool := false
  deriving DecidableEq

/-- Where an exchange stops. -/
inductive BreakStage where
  | request
  | response
  deriving DecidableEq, Repr

/-- What happened at a breakpoint. -/
structure BreakRecord where
  waiting : Option BreakStage := none
  requestEdited : Bool := false
  responseEdited : Bool := false
  timedOut : Bool := false
  deriving DecidableEq

/-- What a fault rule does. -/
inductive FaultAction where
  | status (status : ℕ) (retryAfterSecs : Option ℕ)
  | reset
  | delay (ms : ℕ)
  | timeout (afterMs : ℕ)
  deriving DecidableEq, Repr

/-- The fault rule applied to an exchange. -/
structure FaultRecord where
  rule : ℕ
  action : FaultAction
  deriving DecidableEq

/-- One captured exchange. -/
structure Exchange where
  id : ExchangeId
  /-- Its number within the tap, from 1. -/
  seq : ℕ
  tap : TapId
  kind : ExchangeKind := .http
  state : ExchangeState := .pending
  timings : Timings := {}
  request : RequestRecord
  response : Option ResponseRecord := none
  responder : Responder := .lens
  error : Option ExchangeError := none
  stream : Option StreamStats := none
  /-- The exchange this one replays. -/
  replayOf : Option ExchangeId := none
  fault : Option FaultRecord := none
  breakpoint : Option BreakRecord := none
  /-- When the request's head arrived, in Unix milliseconds. -/
  startedAtMs : ℕ := 0
  deriving DecidableEq

end Teitunnel.Lens
