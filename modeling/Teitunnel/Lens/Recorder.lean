import Teitunnel.Lens.Capture

/-!
# The recorder

Builds an exchange while its request flows.  Each operation changes the exchange under the
recorder's lock and may leave a snapshot to publish; the publishing comes later, after the lock.
-/

namespace Teitunnel.Lens

/-- What happened to an exchange. -/
inductive Change where
  | added
  | updated
  | completed
  deriving DecidableEq, Repr

/-- Which body a tap watches. -/
inductive Side where
  | request
  | response
  deriving DecidableEq, Repr

/-- A snapshot to publish. -/
structure Update where
  change : Change
  exchange : Exchange
  deriving DecidableEq

/-- Between the live updates of a busy stream, in milliseconds. -/
def STREAM_UPDATE_INTERVAL : ℕ := 500

/-- An exchange being recorded. -/
structure Recorder where
  capture : Bool
  /-- The tap's gauge. -/
  activeRequests : ℕ
  exchange : Exchange
  finished : Bool := false
  lastStreamPublish : Option ℕ := none

namespace Recorder

/-- What there is to publish: nothing where capture is off. -/
def publish (recorder : Recorder) (change : Change) (exchange : Exchange) : Option Update :=
  if recorder.capture then some ⟨change, exchange⟩ else none

def start (capture : Bool) (activeRequests : ℕ) (exchange : Exchange) : Recorder where
  capture
  activeRequests := activeRequests + 1
  exchange

/-- Marks a stop at a breakpoint. -/
def breakpoint (update : BreakRecord → BreakRecord) (recorder : Recorder) :
    Recorder × Option Update :=
  let mark := update (recorder.exchange.breakpoint.getD {})
  let exchange := { recorder.exchange with breakpoint := some mark }
  ({ recorder with exchange }, recorder.publish .updated exchange)

/-- The request as changed at a breakpoint. -/
def editRequest (method : String) (uri : Uri) (headers : HeaderMap) (recorder : Recorder) :
    Recorder :=
  let request := recorder.exchange.request
  let headers := if recorder.capture then headers else request.headers
  let mark := recorder.exchange.breakpoint.getD {}
  { recorder with exchange := { recorder.exchange with
      request := { request with method, uri, headers }
      breakpoint := some { mark with requestEdited := true } } }

def connected (elapsed : ℕ) (recorder : Recorder) : Recorder :=
  let timings := { recorder.exchange.timings with upstreamConnectedUs := some elapsed }
  { recorder with exchange := { recorder.exchange with timings } }

/-- Changes the kind; a stream gets its statistics. -/
def setKind (kind : ExchangeKind) (recorder : Recorder) : Recorder :=
  let streams := kind = .webSocket ∨ kind = .sse ∨ kind = .upgrade
  let stream := if streams ∧ recorder.exchange.stream = none then some {}
    else recorder.exchange.stream
  { recorder with exchange := { recorder.exchange with kind, stream } }

def responseHead (elapsed : ℕ) (status : ℕ) (headers : HeaderMap) (responder : Responder)
    (recorder : Recorder) : Recorder × Option Update :=
  let headers := if recorder.capture then headers else ⟨[]⟩
  let exchange := { recorder.exchange with
    timings := { recorder.exchange.timings with firstByteUs := some elapsed }
    state := .streaming
    responder
    response := some { status, headers } }
  ({ recorder with exchange }, recorder.publish .updated exchange)

def setFault (fault : FaultRecord) (recorder : Recorder) : Recorder :=
  { recorder with exchange := { recorder.exchange with fault := some fault } }

/-- The first error wins. -/
def noteError (error : ExchangeError) (recorder : Recorder) : Recorder :=
  let error := recorder.exchange.error.getD error
  { recorder with exchange := { recorder.exchange with error := some error } }

/-- Statistics of a stream, published when due or important. -/
def streamUpdate (now : ℕ) (update : StreamStats → StreamStats × Bool) (recorder : Recorder) :
    Recorder × Option Update :=
  if recorder.capture then
    let (stats, important) := update (recorder.exchange.stream.getD {})
    let exchange := { recorder.exchange with stream := some stats }
    let due := recorder.lastStreamPublish.all fun last => STREAM_UPDATE_INTERVAL ≤ now - last
    if important || due then
      ({ recorder with exchange, lastStreamPublish := some now },
        recorder.publish .updated exchange)
    else ({ recorder with exchange }, none)
  else (recorder, none)

/-- Complete, or failed with `error`. -/
def finish (elapsed : ℕ) (error : Option ExchangeError) (recorder : Recorder) :
    Recorder × Option Update :=
  if recorder.finished then (recorder, none)
  else
    let error := recorder.exchange.error.or error
    let exchange := { recorder.exchange with
      error
      timings := { recorder.exchange.timings with completeUs := some elapsed }
      stream := recorder.exchange.stream.map fun stream => { stream with closed := true }
      state := if error.isSome then .failed else .complete }
    ({ recorder with
        exchange
        finished := true
        activeRequests := recorder.activeRequests - 1 },
      recorder.publish .completed exchange)

/-- A body finished, or was cut off. -/
def bodyEnd (elapsed : ℕ) (side : Side) (body : BodyRecord) (error : Option ExchangeError)
    (recorder : Recorder) : Recorder × Option Update :=
  match side with
  | .request =>
      let exchange := { recorder.exchange with
        request := { recorder.exchange.request with body }
        timings := { recorder.exchange.timings with requestDoneUs := some elapsed } }
      -- the response may have finished first
      ({ recorder with exchange },
        if recorder.finished then recorder.publish .updated exchange else none)
  | .response =>
      let response := recorder.exchange.response.map fun response => { response with body }
      finish elapsed error { recorder with exchange := { recorder.exchange with response } }

/-- The last handle goes: a recorder that nobody finished still leaves a finished record. -/
def drop (elapsed : ℕ) (recorder : Recorder) : Recorder × Option Update :=
  if recorder.finished then (recorder, none)
  else
    let aborted := ⟨.clientAborted, "the exchange ended before it completed"⟩
    let failed := { recorder.exchange with
      state := .failed
      error := some (recorder.exchange.error.getD aborted)
      timings := { recorder.exchange.timings with completeUs := some elapsed } }
    let exchange := if recorder.capture then failed else recorder.exchange
    ({ recorder with
        exchange
        finished := true
        activeRequests := recorder.activeRequests - 1 },
      recorder.publish .completed exchange)

end Recorder

/-- The operations of a recorder. -/
inductive Operation where
  | breakpoint (update : BreakRecord → BreakRecord)
  | editRequest (method : String) (uri : Uri) (headers : HeaderMap)
  | connected (elapsed : ℕ)
  | setKind (kind : ExchangeKind)
  | responseHead (elapsed status : ℕ) (headers : HeaderMap) (responder : Responder)
  | setFault (fault : FaultRecord)
  | noteError (error : ExchangeError)
  | streamUpdate (now : ℕ) (update : StreamStats → StreamStats × Bool)
  | bodyEnd (elapsed : ℕ) (side : Side) (body : BodyRecord) (error : Option ExchangeError)
  | finish (elapsed : ℕ) (error : Option ExchangeError)

def Recorder.perform (recorder : Recorder) : Operation → Recorder × Option Update
  | .breakpoint update => recorder.breakpoint update
  | .editRequest method uri headers => (recorder.editRequest method uri headers, none)
  | .connected elapsed => (recorder.connected elapsed, none)
  | .setKind kind => (recorder.setKind kind, none)
  | .responseHead elapsed status headers responder =>
      recorder.responseHead elapsed status headers responder
  | .setFault fault => (recorder.setFault fault, none)
  | .noteError error => (recorder.noteError error, none)
  | .streamUpdate now update => recorder.streamUpdate now update
  | .bodyEnd elapsed side body error => recorder.bodyEnd elapsed side body error
  | .finish elapsed error => recorder.finish elapsed error

/-! ## Two tasks -/

/-- A task that holds a handle on the recorder. -/
structure TaskState where
  /-- It performed its last operation, or gave its handle up. -/
  done : Bool := false
  /-- What it took and has not published yet. -/
  inFlight : Option Update := none

/-- One exchange: its recorder, what is published of it, the task that sends the response and the
task that reads the request's body. -/
structure Recording where
  recorder : Recorder
  /-- What the store keeps of the exchange. -/
  stored : Option Exchange
  /-- The changes published so far. -/
  changes : List Change
  response : TaskState := {}
  request : TaskState := {}
  /-- The request task noted an error, and will end the body next. -/
  noted : Bool := false
  dropped : Bool := false

namespace Recording

/-- The recording of a request that just arrived. -/
def start (capture : Bool) (activeRequests : ℕ) (exchange : Exchange) : Recording where
  recorder := .start capture activeRequests exchange
  stored := if capture then some exchange else none
  changes := if capture then [.added] else []

/-- Publishes a snapshot, if there is one: the store keeps it in place of an earlier one. -/
def hubPublish (r : Recording) : Option Update → Recording
  | some update =>
      { r with stored := some update.exchange, changes := r.changes ++ [update.change] }
  | none => r

/-- What a task does next. -/
inductive Step where
  /-- The task that sends the response performs an operation. -/
  | respond (operation : Operation)
  /-- The task that reads the request's body notes an error of it. -/
  | noteError (error : ExchangeError)
  /-- The task that reads the request's body ends it. -/
  | endBody (elapsed : ℕ) (body : BodyRecord)
  /-- A task publishes what it took. -/
  | publish (side : Side)
  /-- A task gives its handle up without more. -/
  | leave (side : Side)
  /-- The last handle went. -/
  | drop (elapsed : ℕ)

/-- The response task does nothing after these. -/
def isLast : Operation → Bool
  | .finish _ _ => true
  | .bodyEnd _ .response _ _ => true
  | _ => false

/-- One step, if it can be taken. -/
def step (r : Recording) : Step → Option Recording
  | .respond operation =>
      if r.response.done = false ∧ r.response.inFlight = none then
        let (recorder, update) := r.recorder.perform operation
        some { r with recorder, response := ⟨isLast operation, update⟩ }
      else none
  | .noteError error =>
      if r.request.done = false ∧ r.noted = false then
        some { r with recorder := r.recorder.noteError error, noted := true }
      else none
  | .endBody elapsed body =>
      if r.request.done = false then
        let (recorder, update) := r.recorder.bodyEnd elapsed .request body none
        some { r with recorder, request := ⟨true, update⟩, noted := false }
      else none
  | .publish .response =>
      if r.response.inFlight.isSome then
        some { r.hubPublish r.response.inFlight with
          response := { r.response with inFlight := none } }
      else none
  | .publish .request =>
      if r.request.inFlight.isSome then
        some { r.hubPublish r.request.inFlight with
          request := { r.request with inFlight := none } }
      else none
  | .leave .response =>
      if r.response.done = false ∧ r.response.inFlight = none then
        some { r with response := ⟨true, none⟩ }
      else none
  | .leave .request =>
      if r.request.done = false ∧ r.noted = false then
        some { r with request := ⟨true, none⟩ }
      else none
  | .drop elapsed =>
      if r.dropped = false ∧ r.response.done = true ∧ r.response.inFlight = none ∧
          r.request.done = true ∧ r.request.inFlight = none then
        let (recorder, update) := r.recorder.drop elapsed
        some (({ r with recorder, dropped := true } : Recording).hubPublish update)
      else none

end Recording

end Teitunnel.Lens
