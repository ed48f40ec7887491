import Mathlib

/-!
# One message a line

A line longer than the limit is never buffered whole.
-/

namespace Teitunnel.Control

/-- What was read. -/
inductive Frame where
  /-- A line (without its newline). -/
  | line (bytes : List UInt8)
  /-- The line was longer than allowed (the rest of the stream is unusable). -/
  | tooLarge
deriving DecidableEq

/-- What is there after a look at the bytes available. -/
inductive Progress where
  /-- The line so far; nothing is left of the bytes. -/
  | more (line : List UInt8)
  | frame (frame : Frame) (rest : List UInt8)
deriving DecidableEq

def NEWLINE : UInt8 := 10

def toFrame (line : List UInt8) : Frame :=
  .line (if line.getLast? = some 13 then line.dropLast else line)

/-- One turn of the loop of `read_frame`: the bytes up to the newline, or all of them. -/
def readAvailable (max : ℕ) (line available : List UInt8) : Progress :=
  let chunk := available.takeWhile (· ≠ NEWLINE)
  if line.length + chunk.length > max then .frame .tooLarge available
  else
    match available.drop chunk.length with
    | [] => .more (line ++ chunk)
    | _ :: rest => .frame (toFrame (line ++ chunk)) rest

/-- At the end of the stream. -/
def readEnd (line : List UInt8) : Option Frame := if line = [] then none else some (toFrame line)

example : readAvailable 64 [] [123, 125, 13, 10, 10] = .frame (.line [123, 125]) [10] := by decide

end Teitunnel.Control
