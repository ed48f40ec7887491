import Teitunnel.Control.Framing
import Teitunnel.Control.Protocol

/-!
# One connection of the control server

A session reads frames, says hello, and spawns a task for each request; the tasks, the person's
answers and time take turns.  Nothing is said of the results that the host's reads return.
-/

namespace Teitunnel.Control

open Text

/-- Limits and timeouts, in milliseconds. -/
structure Limits where
  /-- Time to send `hello` after connecting. -/
  helloTimeout : ℕ := 5000
  requestTimeout : ℕ := 60000
  mutationTimeout : ℕ := 180000
  /-- Requests of one connection being answered at once. -/
  inFlight : ℕ := 8
  maxMessage : ℕ := 1024 * 1024

structure Server where
  codec : Codec
  token : String
  limits : Limits := {}

/-- Whether `presented` is the server's token. -/
def Server.matches (server : Server) (presented : String) : Bool := server.token = trim presented

/-- Where the task of a request is. -/
inductive Stage where
  | spawned
  /-- In `gate`, before the host is asked whether the client is approved. -/
  | gating (action : Action)
  /-- Before the lock on the connection's question. -/
  | locking (action : Action)
  /-- The person is asked. -/
  | asking (action : Action)
  /-- "Always Allow" is being remembered. -/
  | approving (action : Action)
  | agentLocking (request : AgentApproval)
  | agentAsking (request : AgentApproval)
  | oauthLocking (request : OAuthApproval)
  | oauthWaiting (request : OAuthApproval)
  | oauthAsking (request : OAuthApproval)
  /-- The host is at work. -/
  | calling
  | done

namespace Stage

/-- A question is open. -/
def asks : Stage → Bool
  | asking _ | agentAsking _ | oauthAsking _ => true
  | _ => false

/-- It holds the lock on the connection's question. -/
def holds : Stage → Bool
  | asking _ | approving _ | agentAsking _ | oauthAsking _ => true
  | _ => false

def isDone : Stage → Bool
  | done => true
  | _ => false

end Stage

structure Task where
  id : Json
  request : Request
  client : ClientInfo
  deadline : ℕ
  stage : Stage := .spawned

/-- What happened on the connection. -/
inductive Event where
  /-- `hello` was accepted, so long after connecting. -/
  | hello (token : String) (client : ClientInfo) (time : ℕ)
  /-- The `k`-th task was spawned for a request. -/
  | accepted (k : ℕ) (request : Request)
  /-- The host said that the person allows the client's changes. -/
  | allowed (k : ℕ) (client : ClientInfo)
  | asked (k : ℕ) (client : ClientInfo) (action : Action) (offerAlways : Bool)
  | answered (k : ℕ) (decision : Decision)
  /-- The host was told to make the change. -/
  | ran (k : ℕ) (client : ClientInfo) (action : Action)
  /-- A response: a result, or an error. -/
  | sent (id : Json) (error : Option RpcError)

structure Session where
  client : Option ClientInfo := none
  /-- Time since connecting. -/
  now : ℕ := 0
  /-- When the frame being read was begun. -/
  since : ℕ := 0
  line : List UInt8 := []
  available : List UInt8 := []
  tasks : List Task := []
  /-- Who has the question's lock, and who waits for it. -/
  confirming : List ℕ := []
  /-- The names of the clients the person allows. -/
  approved : List String := []
  agent : Bool := false
  closed : Bool := false
  log : List Event := []

namespace Session

def send (s : Session) (id : Json) (error : Option RpcError) : Session :=
  { s with log := s.log ++ [.sent id error] }

/-- The connection is over, and its tasks are aborted. -/
def close (s : Session) : Session :=
  { s with
    closed := true
    tasks := s.tasks.map fun task => { task with stage := .done }
    confirming := [] }

/-- The next frame is awaited. -/
def goOn (s : Session) : Session := { s with since := s.now }

/-- An error, and the end of a connection without a hello. -/
def refuse (s : Session) (id : Json) (error : RpcError) : Session :=
  if s.client.isSome then (s.send id (some error)).goOn else (s.send id (some error)).close

/-- The first message: `hello` with the token. Anything else ends the connection. -/
def hello (server : Server) (s : Session) (request : Request) : Session :=
  let id := request.id.getD .null
  if request.method ≠ method.HELLO then
    (s.send id (some ⟨code.UNAUTHORIZED, "Send hello first."⟩)).close
  else
    match params server.codec.hello request.params with
    | .error error => (s.send id (some error)).close
    | .ok hello =>
        if !server.matches hello.token then
          (s.send id (some ⟨code.UNAUTHORIZED, "Wrong token."⟩)).close
        else if hello.protocol ≠ PROTOCOL_VERSION then
          (s.send id (some ⟨code.UNSUPPORTED_PROTOCOL,
            s!"This Teitunnel speaks protocol {PROTOCOL_VERSION}, not {hello.protocol}."⟩)).close
        else if !hello.client.isValid then
          (s.send id (some ⟨code.INVALID_PARAMS, "Give the client a short name."⟩)).close
        else
          (({ s with
              client := some hello.client
              log := s.log ++ [.hello hello.token hello.client s.now] } : Session).send id
            none).goOn

def register (server : Server) (s : Session) (id : Json) (raw : Option Json) : Session :=
  match params server.codec.agentInfo raw with
  | .error error => s.send id (some error)
  | .ok agent =>
      if agent.isValid then ({ s with agent := true } : Session).send id none
      else s.send id (some ⟨code.INVALID_PARAMS, "Give the agent a short name."⟩)

def subscribe (server : Server) (s : Session) (id : Json) (raw : Option Json) : Session :=
  let wanted : Except RpcError (Option (List String)) :=
    if raw.all (· = .null) then .ok none else params server.codec.subscribe raw
  match wanted with
  | .error error => s.send id (some error)
  | .ok none => s.send id none
  | .ok (some list) =>
      match list.find? fun name => !event.ALL.contains name with
      | some unknown => s.send id (some ⟨code.INVALID_PARAMS, s!"No event called {unknown}."⟩)
      | none => s.send id none

/-- A request after the hello; `requests` and `mutations` are what the token buckets say. -/
def handleRequest (server : Server) (s : Session) (client : ClientInfo) (request : Request)
    (requests mutations : Bool) : Session :=
  match request.id with
  -- Notifications from clients mean nothing here.
  | none => s
  | some id =>
      if !requests then
        s.send id (some ⟨code.RATE_LIMITED, "Too many requests. Slow down."⟩)
      else if method.isMutation request.method && !mutations then
        s.send id (some ⟨code.RATE_LIMITED, "Too many changes in a short time."⟩)
      else if request.method = method.AGENT_REGISTER then register server s id request.params
      else if request.method = method.EVENTS_SUBSCRIBE then subscribe server s id request.params
      else if server.limits.inFlight ≤ s.tasks.countP fun task => !task.stage.isDone then
        s.send id (some ⟨code.RATE_LIMITED, "Too many requests at once."⟩)
      else
        let timeout := if method.isMutation request.method then server.limits.mutationTimeout
          else server.limits.requestTimeout
        { s with
          tasks := s.tasks ++ [{ id, request, client, deadline := s.now + timeout }]
          log := s.log ++ [.accepted s.tasks.length request] }

/-- Handles one message. -/
def handleLine (server : Server) (s : Session) (line : String) (requests mutations : Bool) :
    Session :=
  match server.codec.value line with
  | none => s.refuse .null ⟨code.PARSE_ERROR, "Not JSON."⟩
  | some value =>
      match (server.codec.request value).filter fun request => request.jsonrpc = "2.0" with
      | none =>
          s.refuse ((value.get? "id").getD .null)
            ⟨code.INVALID_REQUEST, "Not a JSON-RPC 2.0 request."⟩
      | some request =>
          match s.client with
          | none => hello server s request
          | some client => (handleRequest server s client request requests mutations).goOn

/-- What `run` does with a frame: a line of white space is passed over. -/
def handleFrame (server : Server) (s : Session) (frame : Frame) (requests mutations : Bool) :
    Session :=
  match frame with
  | .tooLarge => (s.send .null (some ⟨code.TOO_LARGE, "Message too large."⟩)).close
  | .line bytes =>
      let line := server.codec.text bytes
      if trim line = "" then s.goOn else handleLine server s line requests mutations

/-- What a request asks for. -/
def dispatch (codec : Codec) (name : String) (raw : Option Json) : Except RpcError Stage :=
  if name = method.HELLO then .error ⟨code.INVALID_REQUEST, "Already said hello."⟩
  else if name = method.SHARES_START then
    (params codec.startShare raw).map fun request => .gating (.startShare request)
  else if name = method.SHARES_STOP then
    (params codec.stopShare raw).map fun request => .gating (.stopShare request)
  else if name = method.SHARES_PAUSE then
    (params codec.pauseShare raw).map fun request => .gating (.pauseShare request)
  else if name = method.SHARES_RESUME then
    (params codec.pauseShare raw).map fun request => .gating (.resumeShare request)
  else if name = method.AGENT_APPROVE then do
    let request ← params codec.agentApproval raw
    if trim request.title = "" then .error ⟨code.INVALID_PARAMS, "Say what needs approving."⟩
    else .ok (.agentLocking request)
  else if name = method.OAUTH_APPROVE then do
    let request ← params codec.oauthApproval raw
    if request.isValid then .ok (.oauthLocking request)
    else .error ⟨code.INVALID_PARAMS, "Invalid connection request."⟩
  else if name = method.ROUTES_APPLY then
    (params codec.apply raw).map fun request => .gating (.apply request)
  else if method.readsOnly name then
    match codec.fits name raw with
    | .ok () => .ok .calling
    | .error e => .error ⟨code.INVALID_PARAMS, s!"Invalid parameters: {e}."⟩
  else .error ⟨code.METHOD_NOT_FOUND, s!"No method called {name}."⟩

/-! ## The tasks -/

def goto (s : Session) (k : ℕ) (stage : Stage) : Session :=
  { s with tasks := s.tasks.modify k fun task => { task with stage } }

/-- The lock is given up, or the place in its queue. -/
def release (s : Session) (k : ℕ) : Session := { s with confirming := s.confirming.erase k }

/-- The request is answered, and its permit given back. -/
def finish (s : Session) (k : ℕ) (task : Task) (error : Option RpcError) : Session :=
  (s.send task.id error).goto k .done

def note (s : Session) (event : Event) : Session := { s with log := s.log ++ [event] }

/-- The gate let the change through. -/
def runAction (s : Session) (k : ℕ) (task : Task) (action : Action) : Session :=
  (s.note (.ran k task.client action)).goto k .calling

/-- What a task does next, with what it is told. -/
inductive Move where
  | begin
  /-- The host is asked whether the client is approved. -/
  | check
  | lock
  | answer (decision : Decision)
  /-- "Always Allow" was remembered. -/
  | remember
  /-- The person answered an agent's question, or a connection's. -/
  | decide (approved : Bool)
  | finish (error : Option RpcError)
  | expire

def move (server : Server) (s : Session) (k : ℕ) (task : Task) : Move → Option Session
  | .begin =>
      match task.stage with
      | .spawned =>
          match dispatch server.codec task.request.method task.request.params with
          | .error error => some (s.finish k task (some error))
          | .ok stage => some (s.goto k stage)
      | _ => none
  | .check =>
      match task.stage with
      | .gating action =>
          if !action.alwaysAsk && s.approved.contains task.client.name then
            some ((s.note (.allowed k task.client)).runAction k task action)
          else some (s.goto k (.locking action))
      | _ => none
  | .lock =>
      match task.stage with
      | .locking action =>
          -- One question per connection at a time.
          if s.confirming = [] then
            some (({ s with confirming := [k] } : Session).note
              (.asked k task.client action !action.alwaysAsk) |>.goto k (.asking action))
          else
            some (s.finish k task (some ⟨code.RATE_LIMITED,
              "Teitunnel is already asking about another change from this client."⟩))
      | .agentLocking request =>
          if s.confirming = [] then
            some (({ s with confirming := [k] } : Session).goto k (.agentAsking request))
          else
            some (s.finish k task (some ⟨code.RATE_LIMITED,
              "Teitunnel is already asking about another change from this agent."⟩))
      | .oauthLocking request =>
          some (({ s with confirming := s.confirming ++ [k] } : Session).goto k
            (.oauthWaiting request))
      | .oauthWaiting request =>
          if s.confirming.head? = some k then some (s.goto k (.oauthAsking request)) else none
      | _ => none
  | .answer decision =>
      match task.stage with
      | .asking action =>
          let s := s.note (.answered k decision)
          match decision with
          | .once => some ((s.release k).runAction k task action)
          | .always => some (s.goto k (.approving action))
          | .deny =>
              some ((s.release k).finish k task (some ⟨code.DECLINED,
                "The change wasn't allowed in Teitunnel."⟩))
      | _ => none
  | .remember =>
      match task.stage with
      | .approving action =>
          some ((({ s with approved := task.client.name :: s.approved } : Session).release
            k).runAction k task action)
      | _ => none
  | .decide _ =>
      match task.stage with
      | .agentAsking _ | .oauthAsking _ => some ((s.release k).finish k task none)
      | _ => none
  | .finish error =>
      match task.stage with
      | .calling => some (s.finish k task error)
      | _ => none
  | .expire =>
      if !task.stage.isDone && task.deadline ≤ s.now then
        some ((s.release k).finish k task (some ⟨code.TIMEOUT, "The request took too long."⟩))
      else none

/-! ## The connection -/

inductive Step where
  | pass (ms : ℕ)
  /-- Bytes arrive, at least one. -/
  | receive (bytes : List UInt8)
  /-- The bytes available are looked at; what the token buckets say of a request. -/
  | read (requests mutations : Bool)
  /-- The client has sent everything. -/
  | eof (requests mutations : Bool)
  /-- The connection broke, or the server stops. -/
  | broken
  /-- The wait for the hello is over. -/
  | timeUp
  | move (k : ℕ) (move : Move)
  /-- The person changes who is approved. -/
  | approvals (names : List String)

/-- A frame is awaited, and the wait for the hello isn't over. -/
def reading (server : Server) (s : Session) : Bool :=
  !s.closed && (s.client.isSome || s.now ≤ s.since + server.limits.helloTimeout)

def step (server : Server) (s : Session) : Step → Option Session
  | .pass ms => some { s with now := s.now + ms }
  | .receive bytes =>
      if !s.closed && s.available = [] && bytes ≠ [] then some { s with available := bytes } else none
  | .read requests mutations =>
      if reading server s && s.available ≠ [] then
        match readAvailable server.limits.maxMessage s.line s.available with
        | .more line => some { s with line, available := [] }
        | .frame frame rest =>
            some (handleFrame server { s with line := [], available := rest } frame requests
              mutations)
      else none
  | .eof requests mutations =>
      if reading server s && s.available = [] then
        match readEnd s.line with
        | none => some s.close
        | some frame => some (handleFrame server { s with line := [] } frame requests mutations)
      else none
  | .broken => if s.closed then none else some s.close
  | .timeUp =>
      if !s.closed && s.client.isNone && s.since + server.limits.helloTimeout ≤ s.now then
        some (s.send .null (some ⟨code.UNAUTHORIZED, "Send hello first."⟩)).close
      else none
  | .move k move =>
      if s.closed then none else (s.tasks[k]?).bind fun task => s.move server k task move
  | .approvals names => some { s with approved := names }

end Session

end Teitunnel.Control
