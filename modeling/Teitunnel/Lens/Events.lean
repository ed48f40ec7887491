import Teitunnel.Lib.Lines
import Teitunnel.Lens.Stream

/-!
# The observer of an event stream

It counts the events of a stream, and keeps the beginning of each.
-/

namespace Teitunnel.Lens.Stream

open Lines

structure SseObserver where
  previewBytes : ℕ
  /-- A CR ended the last line: an LF belongs to it. -/
  pendingCr : Bool
  lineLen : ℕ
  lineIsComment : Bool
  eventSize : ℕ
  eventHasField : Bool
  preview : List UInt8
  deriving DecidableEq

namespace SseObserver

def new (previewBytes : ℕ) : SseObserver where
  previewBytes := previewBytes
  pendingCr := false
  lineLen := 0
  lineIsComment := false
  eventSize := 0
  eventHasField := false
  preview := []

/-- Keeps a byte, if there is room. -/
def keep (o : SseObserver) (b : UInt8) : SseObserver :=
  if o.preview.length < o.previewBytes then { o with preview := o.preview ++ [b] } else o

/-- Without an LF at the end. -/
def stripSuffixLf (head : List UInt8) : List UInt8 :=
  if head.getLast? = some LF then head.dropLast else head

/-- The end of a line. -/
def endLine (o : SseObserver) : SseObserver × List Message :=
  if o.lineLen = 0 then
    ({ o with eventSize := 0, eventHasField := false, preview := [] },
      if o.eventHasField then [.plain .event o.eventSize (stripSuffixLf o.preview)] else [])
  else ({ (if o.lineIsComment then o else o.keep LF) with lineLen := 0 }, [])

/-- A byte of a line. -/
def lineByte (o : SseObserver) (b : UInt8) : SseObserver :=
  let o :=
    if o.lineLen = 0 then
      { o with
        lineIsComment := b == 58
        eventHasField := o.eventHasField || b != 58 }
    else o
  let o := { o with lineLen := o.lineLen + 1 }
  if o.lineIsComment then o else { o with eventSize := o.eventSize + 1 }.keep b

def feedByte (o : SseObserver) (b : UInt8) : SseObserver × List Message :=
  if o.pendingCr = true ∧ b = LF then ({ o with pendingCr := false }, [])
  else if b = CR ∨ b = LF then { o with pendingCr := b == CR }.endLine
  else ({ o with pendingCr := false }.lineByte b, [])

/-- Reads bytes; the events that end among them are reported. -/
def feed (o : SseObserver) : List UInt8 → SseObserver × List Message
  | [] => (o, [])
  | b :: data =>
      let first := o.feedByte b
      let rest := feed first.1 data
      (rest.1, first.2 ++ rest.2)

/-- Reads one piece after the other. -/
def feedAll (o : SseObserver) : List (List UInt8) → SseObserver × List Message
  | [] => (o, [])
  | chunk :: chunks =>
      let first := o.feed chunk
      let rest := feedAll first.1 chunks
      (rest.1, first.2 ++ rest.2)

end SseObserver

end Teitunnel.Lens.Stream
