import Teitunnel.Lens.Inject

/-!
# Keeping event streams alive

A stream of events that is idle between two of them gets a comment, so that nothing on the way
takes it for dead.
-/

namespace Teitunnel.Lens

open Text

/-- `: keep-alive` and a blank line. -/
def HEARTBEAT : List UInt8 :=
  [58, 32, 107, 101, 101, 112, 45, 97, 108, 105, 118, 101, 10, 10]

def CONTENT_TYPE : String := "content-type"

def isEventStream (headers : HeaderMap) : Bool :=
  match (headers.get? CONTENT_TYPE).bind HeaderValue.toStr with
  | some value => decide (StartsWith "text/event-stream" (toAsciiLowercase (trimStart isWhitespace value)))
  | none => false

/-- Adds heartbeats to an event stream. -/
structure KeepAliveBody where
  /-- The last bytes forwarded, up to four. -/
  tail : List UInt8 := []
  deriving DecidableEq

namespace KeepAliveBody

/-- What a poll gives; a heartbeat is a frame with its bytes. -/
inductive Poll where
  | pending
  | failed
  | frame (frame : Frame)
  | heartbeat
  | done
  deriving DecidableEq

def push (tail : List UInt8) (b : UInt8) : List UInt8 :=
  if tail.length < 4 then tail ++ [b] else tail.drop 1 ++ [b]

def remember (self : KeepAliveBody) (data : List UInt8) : KeepAliveBody where
  tail := (data.drop (data.length - 4)).foldl push self.tail

/-- Whether the stream is between events: nothing was sent yet, or the last bytes end with a blank
line. -/
def atBoundary (self : KeepAliveBody) : Bool :=
  self.tail = [] ∨ [10, 10] <:+ self.tail ∨ [13, 13] <:+ self.tail ∨ [13, 10, 13, 10] <:+ self.tail

/-- What polling gives when the origin's body gives `inner` and the timer, which any data sets
anew, has or hasn't elapsed. -/
def pollFrame (self : KeepAliveBody) (inner : Option Polled) (elapsed : Bool) :
    Poll × KeepAliveBody :=
  match inner with
  | none => (.done, self)
  | some .failed => (.failed, self)
  | some (.frame (.trailers trailers)) => (.frame (.trailers trailers), self)
  | some (.frame (.data data)) =>
      (.frame (.data data), if data = [] then self else self.remember data)
  | some .pending =>
      -- in the middle of an event it waits for the origin to finish it
      if elapsed = true ∧ self.atBoundary = true then (.heartbeat, self.remember HEARTBEAT)
      else (.pending, self)

/-- What is sent of a body. -/
inductive Sent where
  | origin (frame : Frame)
  | heartbeat
  deriving DecidableEq

/-- Everything that is sent while the origin's body gives this, with the idle moments. -/
def sendAll (self : KeepAliveBody) : List (Polled × Bool) → List Sent
  | [] => []
  | (inner, elapsed) :: polls =>
      match self.pollFrame (some inner) elapsed with
      | (.pending, self) => sendAll self polls
      | (.frame frame, self) => .origin frame :: sendAll self polls
      | (.heartbeat, self) => .heartbeat :: sendAll self polls
      | (.failed, _) => []
      | (.done, _) => []

end KeepAliveBody

/-- The body sent for a response, when heartbeats are on or off. -/
def keepAlive (headers : HeaderMap) (sseKeepalive : Bool) (body : List (Polled × Bool)) :
    List KeepAliveBody.Sent :=
  if isEventStream headers = true ∧ sseKeepalive = true then
    KeepAliveBody.sendAll {} body
  else
    -- as it comes: no timer runs
    KeepAliveBody.sendAll {} (body.map fun poll => (poll.1, false))

end Teitunnel.Lens
