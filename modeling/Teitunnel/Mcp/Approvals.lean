import Teitunnel.Lib.Base64
import Teitunnel.Lib.Table
import Teitunnel.Reference

/-!
# Approvals through the client

A change that a person must approve is answered with a question and a sealed state, and made when
the client calls again with their answer and the state.  The state passes through the client, so it
is bound to the call, to what the person was shown and to a time.  Times are milliseconds of one
clock.
-/

namespace Teitunnel.Mcp.Mrtr

open Text

/-- How long the person has to answer. -/
def STATE_TTL : ℕ := 10 * 60 * 1000

/-- The key of the approval question and of its answer. -/
def APPROVE : String := "approve"

/-- What a sealed state says. -/
structure State where
  tool : String
  /-- A digest of the arguments. -/
  args : String
  principal : String
  /-- A digest of what the person is asked. -/
  approval : String
  /-- Makes each question unique. -/
  nonce : String
  expires : ℕ
  deriving DecidableEq

/-- Why a state was refused. -/
inductive Refused where
  | invalid
  | expired
  | otherCall
  deriving DecidableEq

def Refused.message : Refused → String
  | .invalid =>
      "requestState isn't valid (this server may have restarted). Call the tool again without it."
  | .expired =>
      "requestState expired: the person has ten minutes to answer. Call the tool again without it."
  | .otherCall => "requestState belongs to another call. Retry the same tool with the same " ++
      "arguments, or call again without it."

/-- One call, as a state is bound to it. -/
structure Call where
  tool : String
  args : String
  principal : String
  deriving DecidableEq

/-- Entries in the order of their keys. -/
def sortKeys {α : Type} (entries : List (String × α)) : List (String × α) :=
  entries.insertionSort fun a b => a.1 ≤ b.1

def member (entry : String × String) : String := quoteText entry.1 ++ ":" ++ entry.2

mutual

/-- JSON with the keys of objects sorted, so equal arguments digest the same. -/
def canonical : Json → String
  | .obj fields =>
      "\x7b" ++ String.intercalate "," ((sortKeys (canonicalFields fields)).map member) ++ "\x7d"
  | .arr items => "[" ++ String.intercalate "," (canonicalItems items) ++ "]"
  | .null => writeJson .null
  | .bool b => writeJson (.bool b)
  | .num n => writeJson (.num n)
  | .float text => writeJson (.float text)
  | .str s => writeJson (.str s)

def canonicalItems : List Json → List String
  | [] => []
  | item :: rest => canonical item :: canonicalItems rest

def canonicalFields : List (String × Json) → List (String × String)
  | [] => []
  | (key, value) :: rest => (key, canonical value) :: canonicalFields rest

end

/-- Arguments but for the agent's own confirmation, which isn't part of what is approved. -/
def withoutConfirmed (arguments : List (String × Json)) : List (String × Json) :=
  arguments.filter fun entry => entry.1 ≠ "confirmed"

/-- The call of a tool with arguments by a principal. -/
def Call.new (digest : String → String) (tool : String) (arguments : List (String × Json))
    (principal : String) : Call :=
  ⟨tool, digest (canonical (.obj (withoutConfirmed arguments))), principal⟩

def State.toJson (state : State) : Json :=
  .obj [("tool", .str state.tool), ("args", .str state.args), ("principal", .str state.principal),
    ("approval", .str state.approval), ("nonce", .str state.nonce), ("expires", .num state.expires)]

/-- A state as it is sealed. -/
def State.write (state : State) : List UInt8 := utf8 (writeJson state.toJson)

/-- How states are read. -/
structure StateReader where
  read : List UInt8 → Option State
  read_write : ∀ state, read state.write = some state

/-! ## Sealing -/

section sealing

variable (mac : List UInt8 → List UInt8) (reader : StateReader)

/-- A state with its code under the server's key. -/
def sealState (state : State) : String :=
  Base64.encode .urlSafe state.write ++ "." ++ Base64.encode .urlSafe (mac state.write)

/-- The payload and the code of a text. -/
def sealedParts (sealed : String) : Option (List UInt8 × List UInt8) := do
  let (payload, code) ← splitOnce '.' sealed
  let payload ← Base64.decode .urlSafe payload
  let code ← Base64.decode .urlSafe code
  return (payload, code)

/-- Opens a state that a client sent back for a call. -/
def openState (now : ℕ) (sealed : String) (call : Call) : Except Refused State :=
  match sealedParts sealed with
  | none => .error .invalid
  | some (payload, code) =>
      if code ≠ mac payload then .error .invalid
      else
        match reader.read payload with
        | none => .error .invalid
        | some state =>
            if state.expires ≤ now then .error .expired
            else if state.tool ≠ call.tool ∨ state.args ≠ call.args ∨
                state.principal ≠ call.principal then .error .otherCall
            else .ok state

end sealing

/-! ## Asking -/

/-- What the person did. -/
inductive Action where
  | accept
  | decline
  | cancel
  deriving DecidableEq

structure ElicitResult where
  action : Action
  content : Option Json
  deriving DecidableEq

/-- The person's answer: yes, no, or none. -/
def answer (response : Option ElicitResult) : Option Bool :=
  response.map fun result => match result.action with
    | .accept => decide (result.content.bind (Json.get? APPROVE) = some (.bool true))
    | _ => false

/-- A change to approve. -/
structure ApprovalRequest where
  title : String
  details : String
  confirmed : Bool
  deriving DecidableEq

/-- What the person is shown. -/
def ApprovalRequest.shown (request : ApprovalRequest) : String :=
  request.title ++ "\n\x00\n" ++ request.details

inductive Mode where
  | full
  | ask
  | readOnly
  deriving DecidableEq

structure Settings where
  mode : Mode
  approveInApp : Bool

/-- What the app's own question brought. -/
inductive AppAnswer where
  | approved
  | declined
  | busy
  | unavailable
  deriving DecidableEq

inductive Approval where
  | granted (how : String)
  | declined (message : String)
  | needsConfirmation
  deriving DecidableEq

/-- Why a call's answer is set aside. -/
inductive Held where
  | input (request : ApprovalRequest) (approval : String)
  | needsPerson
  | appBusy
  deriving DecidableEq

/-- Marks an approval used, and whether it was not before. -/
def consume (used : Table String ℕ) (now : ℕ) (nonce : String) : Table String ℕ × Bool :=
  let used := used.retain fun _ time => now - time < STATE_TTL
  (used.insert nonce now, (used.find nonce).isNone)

/-- What a question came to: the used approvals, the answer, and what is set aside. -/
structure Outcome where
  used : Table String ℕ
  approval : Approval
  held : Option Held

section asking

variable (digest : String → String) (used : Table String ℕ) (now : ℕ) (request : ApprovalRequest)

/-- Sets the answer aside, to ask the client. -/
def askClient : Outcome :=
  ⟨used, .needsConfirmation, some (.input request (digest request.shown))⟩

/-- The person's answer from a call that was made again, or a question for the client. -/
def throughMrtr : Option (State × Option ElicitResult) → Outcome
  | some (state, response) =>
      if state.approval = digest request.shown then
        match answer response with
        | some true =>
            let (used, isNew) := consume used now state.nonce
            if isNew then ⟨used, .granted "client", none⟩ else askClient digest used request
        | some false => ⟨used, .declined "The person declined this change.", none⟩
        | none => askClient digest used request
      else askClient digest used request
  | none => askClient digest used request

/-- The person's go-ahead for a change: through the app when it can ask, else through the client. -/
def approve (settings : Settings) (app : Option AppAnswer)
    (mrtr : Option (Option (State × Option ElicitResult))) (elicited : Option Approval) : Outcome :=
  match settings.mode with
  | .full => ⟨used, .granted "mode", none⟩
  | .readOnly => 
      ⟨used, .declined "This Teitunnel MCP server is read-only; it can't change anything.", none⟩
  | .ask =>
      match app.getD .unavailable with
      | .approved => ⟨used, .granted "app", none⟩
      | .declined => ⟨used, .declined "The person declined it in Teitunnel.", none⟩
      | .busy => ⟨used, .needsConfirmation, some .appBusy⟩
      | .unavailable =>
          match mrtr, elicited with
          | some incoming, _ => throughMrtr digest used now request incoming
          | none, some approval => ⟨used, approval, none⟩
          | none, none =>
              if settings.approveInApp then
                ⟨used, .needsConfirmation, some .needsPerson⟩
              else if request.confirmed then ⟨used, .granted "confirmed", none⟩
              else ⟨used, .needsConfirmation, none⟩

end asking

/-! ## The server -/

/-- A call under way, of a client that can be asked. -/
structure Running where
  call : Call
  /-- The state the client sent back, and the person's answer. -/
  incoming : Option (State × Option ElicitResult)
  held : Option Held

/-- A question that was sealed, for the properties. -/
structure Question where
  state : State
  request : ApprovalRequest
  time : ℕ
  deriving DecidableEq

/-- A change that the client's answer granted, for the properties. -/
structure Granted where
  call : Call
  state : State
  request : ApprovalRequest
  time : ℕ
  deriving DecidableEq

/-- The calls of a server, and which approvals were used. -/
structure Calls where
  now : ℕ
  used : Table String ℕ
  running : Table ℕ Running
  /-- Calls so far. -/
  started : ℕ
  questions : List Question
  granted : List Granted

def Calls.empty : Calls where
  now := 0
  used := .empty
  running := .empty
  started := 0
  questions := []
  granted := []

inductive Step where
  | pass (ms : ℕ)
  /-- A client calls a tool, maybe with a state and the person's answer. -/
  | call (call : Call) (incoming : Option (String × Option ElicitResult))
  /-- A tool asks for the go-ahead for a change. -/
  | approve (i : ℕ) (app : Option AppAnswer) (request : ApprovalRequest)
  /-- A call is answered; a question is sealed with random bytes. -/
  | reply (i : ℕ) (nonce : String)

namespace Calls

variable (mac : List UInt8 → List UInt8) (reader : StateReader) (digest : String → String)
  (settings : Settings) (s : Calls)

def start (call : Call) (incoming : Option (State × Option ElicitResult)) : Calls :=
  { s with
    running := s.running.insert s.started ⟨call, incoming, none⟩
    started := s.started + 1 }

/-- A change that was granted with an answer. -/
def grants (call : Call) (incoming : Option (State × Option ElicitResult))
    (request : ApprovalRequest) (outcome : Outcome) : List Granted :=
  match incoming with
  | some (state, _) =>
      if outcome.approval = .granted "client" then [⟨call, state, request, s.now⟩] else []
  | none => []

def approve (i : ℕ) (running : Running) (app : Option AppAnswer) (request : ApprovalRequest) : Calls :=
  let outcome := Mrtr.approve digest s.used s.now request settings app (some running.incoming) none
  { s with
    used := outcome.used
    running := s.running.insert i { running with held := outcome.held.or running.held }
    granted := s.granted ++ s.grants running.call running.incoming request outcome }

/-- The question that answers a call, when one is set aside. -/
def question (running : Running) (nonce : String) : Option Question :=
  match running.held with
  | some (.input request approval) =>
      let call := running.call
      some ⟨⟨call.tool, call.args, call.principal, approval, nonce, s.now + STATE_TTL⟩, request, s.now⟩
  | _ => none

def step : Step → Option Calls
  | .pass ms => some { s with now := s.now + ms }
  | .call call none => some (s.start call none)
  | .call call (some (sealed, response)) =>
      match openState mac reader s.now sealed call with
      | .ok state => some (s.start call (some (state, response)))
      | .error _ => some s
  | .approve i app request =>
      (s.running.find i).map fun running => s.approve digest settings i running app request
  | .reply i nonce =>
      if s.questions.any fun question => question.state.nonce = nonce then none
      else (s.running.find i).map fun running =>
        { s with
          running := s.running.erase i
          questions := s.questions ++ (s.question running nonce).toList }

end Calls

end Teitunnel.Mcp.Mrtr
