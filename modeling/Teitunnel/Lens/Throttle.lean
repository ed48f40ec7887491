import Teitunnel.Lib.Runs
import Teitunnel.Lib.TokenBucket

/-!
# Bandwidth limits

All bodies in one direction of a tap share a token bucket.  A body's data is split into chunks;
each chunk is paid for from the bucket when it comes up and held back until its debt is paid off.
Times and tokens are rational numbers, in seconds since the bucket was made and in bytes.
-/

namespace Teitunnel.Lens.Sim

open TokenBucket

/-- Largest chunk a throttled body emits at once, so pacing stays smooth. -/
def THROTTLE_CHUNK : ℕ := 16 * 1024

/-! ## The bucket -/

/-- A token bucket shared by bodies. -/
structure Bucket where
  rate : ℚ
  burst : ℚ
  tokens : ℚ
  last : ℚ
  /-- What was reserved so far; nothing reads it. -/
  reserved : List (Taken ℚ)

def Bucket.new (bytesPerSec : ℕ) : Bucket :=
  let rate : ℚ := max bytesPerSec 1
  let burst := max (rate / 10) THROTTLE_CHUNK
  { rate, burst, tokens := burst, last := 0, reserved := [] }

/-- Takes `bytes` tokens; returns how long to wait before sending them. -/
def Bucket.reserve (self : Bucket) (now : ℚ) (bytes : ℕ) : ℚ × Bucket :=
  let refilled := min (self.tokens + (now - self.last) * self.rate) self.burst
  let after := refilled - bytes
  let wait := if 0 ≤ after then 0 else -after / self.rate
  (wait, { self with
    tokens := after
    last := now
    reserved := self.reserved ++
      [{ time := now, level := refilled, amount := bytes, release := now + wait }] })

/-! ## A body -/

/-- What polling a body gives. -/
inductive Polled where
  | pending
  | data (bytes : List UInt8)
  | trailers (fields : List (String × String))
  | failed (error : String)
  | ended
  deriving DecidableEq

/-- Paces a body through a bucket. -/
structure ThrottledBody where
  /-- What polling the inner body will give. -/
  inner : List Polled
  /-- The chunk that's paid for (after `sleep`). -/
  ready : Option (List UInt8) := none
  /-- The rest of a split frame. -/
  rest : Option (List UInt8) := none
  /-- When the chunk may go. -/
  sleep : Option ℚ := none
  deriving DecidableEq

namespace ThrottledBody

/-- Splits off the next chunk of `data`, reserves it, and schedules its release. -/
def schedule (this : ThrottledBody) (bucket : Bucket) (now : ℚ) (data : List UInt8) :
    ThrottledBody × Bucket :=
  let rest := if data.length > THROTTLE_CHUNK then some (data.drop THROTTLE_CHUNK) else none
  let data := data.take THROTTLE_CHUNK
  let (wait, bucket) := bucket.reserve now data.length
  ({ this with
    ready := some data
    rest := rest.filter fun rest => !rest.isEmpty
    sleep := if wait = 0 then none else some (now + wait) }, bucket)

/-- The first part of a turn: the chunk in hand, if there is one, is given or waited for. -/
def giveReady (this : ThrottledBody) (now : ℚ) : Option (Polled × ThrottledBody) :=
  this.ready.map fun data =>
    match this.sleep with
    | some wake =>
        if now < wake then (.pending, this)
        else (.data data, { this with ready := none, sleep := none })
    | none => (.data data, { this with ready := none })

/-- Schedules `data`; the next turn has a chunk in hand. -/
def scheduled (this : ThrottledBody) (bucket : Bucket) (now : ℚ) (data : List UInt8) :
    Polled × ThrottledBody × Bucket :=
  let (this, bucket) := this.schedule bucket now data
  match this.giveReady now with
  | some (polled, this) => (polled, this, bucket)
  | none => (.pending, this, bucket)

/-- Polls the inner body until it gives something; it is pending when it has nothing more. -/
def pollInner (this : ThrottledBody) (bucket : Bucket) (now : ℚ) :
    List Polled → Polled × ThrottledBody × Bucket
  | [] => (.pending, { this with inner := [] }, bucket)
  | .data [] :: inner => pollInner this bucket now inner
  | .data bytes :: inner => { this with inner }.scheduled bucket now bytes
  | other :: inner => (other, { this with inner }, bucket)

def pollFrame (this : ThrottledBody) (bucket : Bucket) (now : ℚ) :
    Polled × ThrottledBody × Bucket :=
  match this.giveReady now with
  | some (polled, this) => (polled, this, bucket)
  | none =>
      match this.rest with
      | some rest => { this with rest := none }.scheduled bucket now rest
      | none => this.pollInner bucket now this.inner

/-- Whether nothing more will come, when the inner body says so of itself. -/
def isEndStream (this : ThrottledBody) (inner : Bool) : Bool :=
  this.ready.isNone && this.rest.isNone && inner

end ThrottledBody

/-! ## Bodies that share a bucket -/

/-- A body, with what it was made from and what it gave so far. -/
structure Stream where
  body : ThrottledBody
  script : List Polled
  given : List Polled
  deriving DecidableEq

def Stream.new (script : List Polled) : Stream where
  body := { inner := script }
  script := script
  given := []

/-- A direction of a tap at a time. -/
structure Throttle where
  now : ℚ
  bucket : Bucket
  streams : List Stream
  /-- When how many bytes were let through. -/
  passed : List (ℚ × ℕ)

def Throttle.new (bytesPerSec : ℕ) : Throttle where
  now := 0
  bucket := .new bytesPerSec
  streams := []
  passed := []

inductive Event where
  /-- Time goes on, never back. -/
  | wait (time : ℚ)
  /-- A body comes, of which polls will give this. -/
  | attach (script : List Polled)
  /-- The `i`-th body is polled. -/
  | poll (i : ℕ)
  deriving DecidableEq

/-- The bytes that a poll lets through. -/
def Polled.size : Polled → ℕ
  | .data bytes => bytes.length
  | _ => 0

def Throttle.step (s : Throttle) : Event → Option Throttle
  | .wait time => if s.now ≤ time then some { s with now := time } else none
  | .attach script => some { s with streams := s.streams ++ [.new script] }
  | .poll i => do
      let stream ← s.streams[i]?
      let (polled, body, bucket) := stream.body.pollFrame s.bucket s.now
      some { s with
        bucket
        streams := s.streams.set i { stream with body, given := stream.given ++ [polled] }
        passed := s.passed ++ [(s.now, polled.size)] }

end Teitunnel.Lens.Sim
