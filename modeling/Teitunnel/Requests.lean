import Teitunnel.Lib.Sliding
import Teitunnel.Ownership

/-!
# The API client

Requests of the clones of one client: each waits for the request budget, goes out, and is sent
again while its answer says so.  A GraphQL query takes its place in a budget of its own first.
Times are in nanoseconds.
-/

namespace Teitunnel.CfApi

def SECOND : ℕ := 1000000000

def MAX_RETRIES : ℕ := 3

/-- Cloudflare's limit is 1200 requests in a window. -/
def RATE_LIMIT : ℕ := 1100

def RATE_WINDOW : ℕ := 300 * SECOND

/-- Cloudflare's limit is 300 queries in a window. -/
def GRAPHQL_LIMIT : ℕ := 250

def BACKOFF : ℕ := SECOND / 2

inductive Retry where
  /-- Safe to repeat. -/
  | idempotent
  /-- A create: only after the answer that it wasn't processed. -/
  | once
  deriving DecidableEq

inductive Answer where
  /-- A response, with its `Retry-After` header. -/
  | status (code : ℕ) (retryAfter : Option String)
  | networkError
  deriving DecidableEq

inductive Stage where
  /-- A GraphQL query before it takes its place in the budget. -/
  | budget
  | throttle
  /-- It holds the lock of the request budget until its turn. -/
  | asleep (wake : ℕ)
  | sent
  | backoff (wake : ℕ)
  | done
  deriving DecidableEq

structure Call where
  retry : Retry
  graphql : Bool
  attempt : ℕ := 0
  stage : Stage
  deriving DecidableEq

/-- Whether an answer of this attempt has the request sent again. -/
def Call.retries (call : Call) : Answer → Bool
  | .status code _ =>
      (code = 429 || (call.retry = .idempotent && 500 ≤ code && code < 600)) &&
        call.attempt < MAX_RETRIES
  | .networkError => call.attempt < MAX_RETRIES && call.retry ≠ .once

/-- The seconds of a `Retry-After` header. -/
def Answer.retryAfter : Answer → Option ℕ
  | .status _ retryAfter => (retryAfter.bind parseNumber).filter (· < 2 ^ 64)
  | .networkError => none

/-- How long to wait before the request is sent again. -/
def Call.delay (call : Call) (answer : Answer) : ℕ :=
  min ((answer.retryAfter.map (· * SECOND)).getD (BACKOFF * 2 ^ call.attempt)) (60 * SECOND)

/-- What happened, with the call it happened to. -/
inductive Event where
  /-- A query took its place in the GraphQL budget. -/
  | took (call time : ℕ)
  | sent (call : ℕ) (graphql : Bool) (time : ℕ)
  | answered (call : ℕ) (answer : Answer)
  deriving DecidableEq

def Event.call : Event → ℕ
  | .took call _ | .sent call _ _ | .answered call _ => call

/-- What the clones of a client share, and their calls. -/
structure Client where
  now : ℕ := 0
  sent : List ℕ := []
  /-- The lock of `sent` is held by a call that is asleep. -/
  locked : Bool := false
  graphqlSent : List ℕ := []
  calls : List Call := []
  log : List Event := []

inductive Step where
  | advance (now : ℕ)
  | send (retry : Retry)
  | postGraphql
  /-- A call goes on. -/
  | proceed (call : ℕ)
  | answer (call : ℕ) (answer : Answer)
  /-- Nobody waits for a call any more. -/
  | drop (call : ℕ)
  deriving DecidableEq

namespace Client

def update (s : Client) (i : ℕ) (change : Call → Call) : Client :=
  { s with calls := s.calls.modify i change }

def goto (s : Client) (i : ℕ) (stage : Stage) : Client := s.update i fun call => { call with stage }

def note (s : Client) (event : Event) : Client := { s with log := s.log ++ [event] }

/-- The request budget has a place, and the request goes out. -/
def push (s : Client) (i : ℕ) (call : Call) : Client :=
  ({ s with sent := s.sent ++ [s.now] }.note (.sent i call.graphql s.now)).goto i .sent

/-- Waits if the request budget of the window is used. -/
def throttle (s : Client) (i : ℕ) (call : Call) : Client :=
  let s := { s with sent := Sliding.trim RATE_WINDOW s.now s.sent }
  match s.sent.head? with
  | some oldest =>
      if RATE_LIMIT ≤ s.sent.length then
        { s with locked := true }.goto i (.asleep (s.now + (RATE_WINDOW - (s.now - oldest))))
      else s.push i call
  | none => s.push i call

/-- Takes one query from the GraphQL budget, or answers that it's used up. -/
def takeGraphqlBudget (s : Client) (i : ℕ) : Client :=
  let s := { s with graphqlSent := Sliding.trim RATE_WINDOW s.now s.graphqlSent }
  if GRAPHQL_LIMIT ≤ s.graphqlSent.length then s.goto i .done
  else ({ s with graphqlSent := s.graphqlSent ++ [s.now] }.note (.took i s.now)).goto i .throttle

def proceed (s : Client) (i : ℕ) (call : Call) : Option Client :=
  match call.stage with
  | .budget => some (s.takeGraphqlBudget i)
  | .throttle => if s.locked then none else some (s.throttle i call)
  | .asleep wake =>
      if s.now < wake then none
      else some ({ s with sent := s.sent.tail, locked := false }.push i call)
  | .backoff wake => if s.now < wake then none else some (s.goto i .throttle)
  | .sent | .done => none

def answer (s : Client) (i : ℕ) (call : Call) (answer : Answer) : Option Client :=
  if call.stage = .sent then
    let s := s.note (.answered i answer)
    if call.retries answer then
      some (s.update i fun call =>
        { call with
          attempt := call.attempt + 1
          stage := .backoff (s.now + call.delay answer) })
    else some (s.goto i .done)
  else none

def drop (s : Client) (i : ℕ) (call : Call) : Client :=
  match call.stage with
  | .asleep _ => { s with locked := false }.goto i .done
  | _ => s.goto i .done

def step (s : Client) : Step → Option Client
  | .advance now => if s.now ≤ now then some { s with now } else none
  | .send retry =>
      some { s with calls := s.calls ++ [{ retry, graphql := false, stage := .throttle }] }
  | .postGraphql =>
      some { s with
        calls := s.calls ++ [{ retry := .idempotent, graphql := true, stage := .budget }] }
  | .proceed i => s.calls[i]?.bind (s.proceed i)
  | .answer i answer => s.calls[i]?.bind (s.answer i · answer)
  | .drop i => s.calls[i]?.map (s.drop i)

end Client

/-! ## What a run shows -/

/-- The times at which requests went out. -/
def sentTimes (log : List Event) : List ℕ :=
  log.filterMap fun
    | .sent _ _ time => some time
    | _ => none

/-- Those of GraphQL queries, with their calls. -/
def queries (log : List Event) : List (ℕ × ℕ) :=
  log.filterMap fun
    | .sent i true time => some (i, time)
    | _ => none

/-- The places taken in the GraphQL budget, with their calls. -/
def places (log : List Event) : List (ℕ × ℕ) :=
  log.filterMap fun
    | .took i time => some (i, time)
    | _ => none

def sends (i : ℕ) (log : List Event) : ℕ :=
  log.countP fun
    | .sent j _ _ => j = i
    | _ => false

def answers (i : ℕ) (log : List Event) : List Answer :=
  log.filterMap fun
    | .answered j answer => if j = i then some answer else none
    | _ => none

end Teitunnel.CfApi
