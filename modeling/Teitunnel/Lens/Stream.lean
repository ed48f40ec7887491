import Teitunnel.Lib.Bytes

/-!
# The observer of a WebSocket

It reads copies of the bytes of one direction, in whatever pieces they come, and reports each frame
and each message when it ends.
-/

namespace Teitunnel.Lens.Stream

inductive MessageKind where
  | text
  | binary
  | close
  | ping
  | pong
  | event
  deriving DecidableEq

inductive FrameOpcode where
  | continuation
  | text
  | binary
  | close
  | ping
  | pong
  deriving DecidableEq

/-- How much of each message and of each frame is kept. -/
structure PreviewLimits where
  bytes : ℕ
  frameBytes : ℕ

structure Message where
  kind : MessageKind
  size : ℕ
  head : List UInt8
  compressed : Bool
  inflated : Bool
  deriving DecidableEq

def Message.plain (kind : MessageKind) (size : ℕ) (head : List UInt8) : Message where
  kind := kind
  size := size
  head := head
  compressed := false
  inflated := false

structure Frame where
  opcode : FrameOpcode
  fin : Bool
  masked : Bool
  compressed : Bool
  size : ℕ
  /-- The first bytes without their mask, none of a compressed frame. -/
  head : List UInt8
  text : Bool
  deriving DecidableEq

inductive Observed where
  | frame (frame : Frame)
  | message (message : Message)
  deriving DecidableEq

/-! ## Compressed messages -/

/-- A decompressor that is fed piece by piece: how much it took, what came out, and its state, or
nothing for bytes it can't read. -/
class Decompress where
  State : Type
  new : State
  decompress : State → List UInt8 → ℕ → Option (ℕ × List UInt8 × State)

def MAX_INFLATED_PER_MESSAGE : ℕ := 16 * 1024 * 1024

def BUFFER : ℕ := 8 * 1024

structure Inflater [Decompress] where
  state : Decompress.State
  resetEachMessage : Bool
  broken : Bool
  produced : ℕ

namespace Inflater

variable [Decompress]

def new (resetEachMessage : Bool) : Inflater where
  state := Decompress.new
  resetEachMessage := resetEachMessage
  broken := false
  produced := 0

/-- Inflates all of the input; what is kept goes behind `out`. -/
def feed (inflater : Inflater) (input out : List UInt8) (keep : ℕ) : Inflater × List UInt8 :=
  if inflater.broken then (inflater, out)
  else
    match Decompress.decompress inflater.state input BUFFER with
    | none => ({ inflater with broken := true }, out)
    | some (consumed, output, state) =>
        let out := out ++ output.take (keep - out.length)
        if _h : MAX_INFLATED_PER_MESSAGE < inflater.produced + output.length then
          ({ inflater with
              state := state
              produced := inflater.produced + output.length
              broken := true }, out)
        else
          let inflater' := { inflater with
            state := state
            produced := inflater.produced + output.length }
          if _hdone : (input.drop consumed = [] ∧ output.length ≠ BUFFER) ∨
              (consumed = 0 ∧ output = []) then
            (inflater', out)
          else feed inflater' (input.drop consumed) out keep
termination_by input.length + (MAX_INFLATED_PER_MESSAGE - inflater.produced)
decreasing_by
  rw [not_or, not_and_or, not_and_or] at _hdone
  obtain ⟨hmore, hprogress⟩ := _hdone
  rw [List.length_drop]
  rcases hprogress with hconsumed | houtput
  · rcases hmore with hinput | hfull
    · have hlength := List.length_pos_iff.mpr hinput
      rw [List.length_drop] at hlength
      omega
    · rw [not_not] at hfull
      have hbuffer : 0 < BUFFER := by decide
      omega
  · have hlength := List.length_pos_iff.mpr houtput
    omega

/-- The end of a message: the tail that its sender left out. -/
def endMessage (inflater : Inflater) (out : List UInt8) (keep : ℕ) : Inflater × List UInt8 :=
  let (inflater, out) := inflater.feed [0x00, 0x00, 0xff, 0xff] out keep
  ({ inflater with
      produced := 0
      state := if inflater.resetEachMessage then Decompress.new else inflater.state }, out)

end Inflater

/-! ## Frames -/

structure WsObserver [Decompress] where
  previewBytes : ℕ
  frameBytes : ℕ
  broken : Bool
  /-- The bytes of a frame's header so far, and how many are to come. -/
  header : List UInt8
  need : ℕ
  opcode : ℕ
  fin : Bool
  rsv1 : Bool
  payloadLen : ℕ
  payloadLeft : ℕ
  mask : Option (List UInt8)
  maskPos : ℕ
  frameHead : List UInt8
  control : List UInt8
  msgKind : Option MessageKind
  msgSize : ℕ
  msgHead : List UInt8
  msgCompressed : Bool
  inflater : Option Inflater

namespace WsObserver

variable [Decompress]

/-- An observer; `deflate` says whether compression was agreed on, and is reset each message. -/
def new (limits : PreviewLimits) (deflate : Option Bool) : WsObserver where
  previewBytes := limits.bytes
  frameBytes := limits.frameBytes
  broken := false
  header := []
  need := 2
  opcode := 0
  fin := false
  rsv1 := false
  payloadLen := 0
  payloadLeft := 0
  mask := none
  maskPos := 0
  frameHead := []
  control := []
  msgKind := none
  msgSize := 0
  msgHead := []
  msgCompressed := false
  inflater := deflate.map Inflater.new

/-- Whether the observer gave up. -/
def isBroken (o : WsObserver) : Bool := o.broken

/-- The bytes of the payload, from the place `maskPos` of the mask on. -/
def unmask (mask : Option (List UInt8)) (maskPos : ℕ) (chunk : List UInt8) : List UInt8 :=
  match mask with
  | some mask => chunk.mapIdx fun i b => b ^^^ mask.getD ((maskPos + i) % 4) 0
  | none => chunk

def isControl (o : WsObserver) : Bool := decide (8 ≤ o.opcode)

def compressed (o : WsObserver) : Bool := !o.isControl && o.msgCompressed

/-- More of a frame's payload. -/
def payload (o : WsObserver) (chunk : List UInt8) : WsObserver :=
  let o :=
    if o.isControl then
      let bytes := unmask o.mask o.maskPos (chunk.take (125 - o.control.length))
      { o with control := o.control ++ bytes, frameHead := o.frameHead ++ bytes }
    else if o.compressed then
      let o := { o with msgSize := (o.msgSize + chunk.length) % 2 ^ 64 }
      match o.inflater with
      | some inflater =>
          if inflater.broken then o
          else
            let (inflater, msgHead) :=
              inflater.feed (unmask o.mask o.maskPos chunk) o.msgHead o.previewBytes
            { o with inflater := some inflater, msgHead := msgHead }
      | none => o
    else
      let wanted := max (o.frameBytes - o.frameHead.length) (o.previewBytes - o.msgHead.length)
      let bytes := unmask o.mask o.maskPos (chunk.take wanted)
      { o with
        msgSize := (o.msgSize + chunk.length) % 2 ^ 64
        frameHead := o.frameHead ++ bytes.take (o.frameBytes - o.frameHead.length)
        msgHead := o.msgHead ++ bytes.take (o.previewBytes - o.msgHead.length) }
  { o with maskPos := (o.maskPos + chunk.length) % 4 }

/-- The opcode of a frame that ends. -/
def frameOpcode : ℕ → FrameOpcode
  | 0x0 => .continuation
  | 0x1 => .text
  | 0x2 => .binary
  | 0x8 => .close
  | 0x9 => .ping
  | _ => .pong

def controlKind : FrameOpcode → MessageKind
  | .close => .close
  | .ping => .ping
  | _ => .pong

/-- The report of a frame that ends. -/
def frameReport (o : WsObserver) : Frame where
  opcode := frameOpcode o.opcode
  fin := o.fin
  masked := o.mask.isSome
  compressed := o.compressed
  size := o.payloadLen
  head := if o.compressed then [] else o.frameHead.take (max o.frameBytes 2)
  text := decide (o.msgKind = some .text) && !o.isControl ||
    decide (frameOpcode o.opcode = .close)

/-- The end of a message. -/
def messageDone (o : WsObserver) (kind : MessageKind) : WsObserver × Message :=
  let (inflater, msgHead, inflated) :=
    if o.msgCompressed then
      match o.inflater with
      | some inflater =>
          let (inflater, msgHead) := inflater.endMessage o.msgHead o.previewBytes
          (some inflater, msgHead, !inflater.broken)
      | none => (none, o.msgHead, false)
    else (o.inflater, o.msgHead, false)
  ({ o with msgKind := none, msgHead := [], msgCompressed := false, inflater := inflater },
    { kind := kind
      size := o.msgSize
      head := msgHead
      compressed := o.msgCompressed
      inflated := inflated })

/-- The end of a frame. -/
def frameDone (o : WsObserver) : WsObserver × List Observed :=
  let report := .frame o.frameReport
  let o := { o with need := 2, header := [], frameHead := [] }
  if o.isControl then
    ({ o with control := [] }, [report, .message (.plain (controlKind (frameOpcode o.opcode))
      o.payloadLen (o.control.take (max o.previewBytes 2)))])
  else
    match o.fin, o.msgKind with
    | true, some kind =>
        let (o, message) := o.messageDone kind
        (o, [report, .message message])
    | _, _ => (o, [report])

/-- How many bytes of a header follow its first two. -/
def extraBytes (b1 : UInt8) : ℕ :=
  (match b1.toNat % 128 with
    | 126 => 2
    | 127 => 8
    | _ => 0) + if b1.toNat.testBit 7 then 4 else 0

/-- The length of the payload and the place of the mask in a whole header. -/
def lengthOf (header : List UInt8) : ℕ × ℕ :=
  match (header.getD 1 0).toNat % 128 with
  | 126 => (Bytes.toNat ((header.drop 2).take 2), 4)
  | 127 => (Bytes.toNat ((header.drop 2).take 8), 10)
  | n => (n, 2)

/-- What the opcode of a new frame does to the message, or that it is none. -/
def beginFrame (o : WsObserver) : Option WsObserver :=
  match o.opcode with
  | 0x0 => if o.msgKind.isNone then none else some o
  | 0x1 => some { o with
      msgKind := some .text, msgSize := 0, msgHead := [], msgCompressed := o.rsv1 }
  | 0x2 => some { o with
      msgKind := some .binary, msgSize := 0, msgHead := [], msgCompressed := o.rsv1 }
  | 0x8 | 0x9 | 0xa =>
      if o.payloadLen > 125 ∨ o.fin = false then none else some { o with control := [] }
  | _ => none

/-- The bytes of a header that were asked for are there. -/
def headerReady (o : WsObserver) : WsObserver × List Observed :=
  let b0 := o.header.getD 0 0
  let b1 := o.header.getD 1 0
  let full := 2 + extraBytes b1
  if o.header.length < full then ({ o with need := full - o.header.length }, [])
  else
    let (length, maskAt) := lengthOf o.header
    let o := { o with
      fin := b0.toNat.testBit 7
      rsv1 := b0.toNat.testBit 6
      opcode := b0.toNat % 16 }
    if length > 2 ^ 62 then ({ o with broken := true }, [])
    else
      let o := { o with
        mask := if b1.toNat.testBit 7 then some ((o.header.drop maskAt).take 4) else none
        maskPos := 0
        payloadLen := length
        payloadLeft := length
        header := []
        need := 0
        frameHead := [] }
      match o.beginFrame with
      | none => ({ o with broken := true }, [])
      | some o => if length = 0 then o.frameDone else (o, [])

/-- More of a header. -/
def readHeader (o : WsObserver) (bytes : List UInt8) : WsObserver × List Observed :=
  let o := { o with header := o.header ++ bytes, need := o.need - bytes.length }
  if o.need = 0 then o.headerReady else (o, [])

/-- More of a payload, with the end of its frame. -/
def readPayload (o : WsObserver) (bytes : List UInt8) : WsObserver × List Observed :=
  let o := o.payload bytes
  let o := { o with payloadLeft := o.payloadLeft - bytes.length }
  if o.payloadLeft = 0 then o.frameDone else (o, [])

lemma frameDone_need (o : WsObserver) : o.frameDone.1.need = 2 := by
  unfold frameDone
  dsimp only
  split
  · rfl
  · split
    · rfl
    · rfl

lemma payload_payloadLeft (o : WsObserver) (bytes : List UInt8) :
    (o.payload bytes).payloadLeft = o.payloadLeft := by
  unfold payload
  dsimp only
  split
  · rfl
  · split
    · split
      · split
        · rfl
        · rfl
      · rfl
    · rfl

lemma readPayload_need {o : WsObserver} {bytes : List UInt8} (h : o.payloadLeft ≤ bytes.length) :
    (o.readPayload bytes).1.need = 2 := by
  unfold readPayload
  dsimp only
  rw [payload_payloadLeft, if_pos (Nat.sub_eq_zero_of_le h), frameDone_need]

/-- Reads bytes; what ends among them is reported. -/
def feed (o : WsObserver) (data : List UInt8) : WsObserver × List Observed :=
  if _hgo : data = [] ∨ o.broken = true then (o, [])
  else if _hneed : 0 < o.need then
    let take := min o.need data.length
    let (o, out) := o.readHeader (data.take take)
    let (o, rest) := feed o (data.drop take)
    (o, out ++ rest)
  else
    let take := min o.payloadLeft data.length
    let read := o.readPayload (data.take take)
    let (o, rest) := feed read.1 (data.drop take)
    (o, read.2 ++ rest)
termination_by (data.length, if o.need = 0 then 1 else 0)
decreasing_by
  · have hlength : 0 < data.length := List.length_pos_iff.mpr fun h => _hgo (.inl h)
    refine Prod.Lex.left _ _ ?_
    rw [List.length_drop]
    omega
  · have hlength : 0 < data.length := List.length_pos_iff.mpr fun h => _hgo (.inl h)
    by_cases hleft : o.payloadLeft = 0
    · -- a frame without more payload ends before anything is read
      have htake : min o.payloadLeft data.length = 0 := by omega
      rw [htake, readPayload_need (by omega), List.drop_zero, if_neg (by omega), if_pos (by omega)]
      exact Prod.Lex.right _ (by decide)
    · refine Prod.Lex.left _ _ ?_
      rw [List.length_drop]
      omega

end WsObserver

end Teitunnel.Lens.Stream
