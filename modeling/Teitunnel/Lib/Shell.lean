import Mathlib

/-!
# A line as a shell reads it

A POSIX shell's reading of a text that is one pipeline of plain words: comments, single quotes,
backslashes, continued lines and `|`.  Where an unquoted character asks for anything else (an
expansion, a pattern, a redirection, another command), or a character cannot stand in an argument
at all, the text is no such pipeline and the reading is `none`.
-/

namespace Shell

/-- The single quote. -/
def QUOTE : Char := Char.ofNat 39

/-- What no argument can hold. -/
def NUL : Char := Char.ofNat 0

/-- Where the reading is. -/
inductive Mode where
  /-- Between words. -/
  | blank
  | word
  | quoted
  /-- After a backslash, in a word or before one. -/
  | escaped (inWord : Bool)
  | comment
  /-- After the line. -/
  | ended
  deriving DecidableEq

structure State where
  mode : Mode := .blank
  /-- What was read of the word. -/
  word : List Char := []
  /-- The command's words before it. -/
  words : List String := []
  /-- The pipeline's commands before this one. -/
  commands : List (List String) := []
  deriving DecidableEq

def isBlank (c : Char) : Bool := c == ' ' || c == '\t'

/-- Characters that ask for an expansion, a pattern, an operator or another kind of quotes. -/
def isSpecial (c : Char) : Bool := "$`&;<>()\"*?[".toList.contains c

namespace State

variable (s : State)

def push (c : Char) : State := { s with word := s.word ++ [c] }

def endWord : State :=
  { s with mode := .blank, word := [], words := s.words ++ [String.ofList s.word] }

/-- The line ends; one with no words is skipped, unless a command must follow. -/
def endLine : Option State :=
  if s.words = [] then if s.commands = [] then some { s with mode := .blank } else none
  else some { s with mode := .ended }

/-- The next command of the pipeline begins. -/
def pipe : Option State :=
  if s.words = [] then none else some { commands := s.commands ++ [s.words] }

/-- A character of a word, outside quotes. -/
def unquoted (c : Char) : Option State :=
  if c = QUOTE then some { s with mode := .quoted }
  else if c = '\\' then some { s with mode := .escaped (s.mode = .word) }
  else if isSpecial c then none
  else some { s.push c with mode := .word }

def stepBlank (c : Char) : Option State :=
  if isBlank c then some s
  else if c = '\n' then s.endLine
  else if c = '|' then s.pipe
  else if c = '#' then some { s with mode := .comment }
  else if c = '~' then none
  else s.unquoted c

def stepWord (c : Char) : Option State :=
  if isBlank c then some s.endWord
  else if c = '\n' then s.endWord.endLine
  else if c = '|' then s.endWord.pipe
  else s.unquoted c

def stepQuoted (c : Char) : Option State :=
  if c = QUOTE then some { s with mode := .word } else some (s.push c)

/-- A backslash keeps the character after it, and continues the line before its end. -/
def stepEscaped (inWord : Bool) (c : Char) : Option State :=
  if c = '\n' then some { s with mode := if inWord then .word else .blank }
  else some { s.push c with mode := .word }

def stepComment (c : Char) : Option State := if c = '\n' then s.endLine else some s

def stepEnded (c : Char) : Option State := if isBlank c || c = '\n' then some s else none

def step (c : Char) : Option State :=
  if c = NUL then none
  else match s.mode with
    | .blank => s.stepBlank c
    | .word => s.stepWord c
    | .quoted => s.stepQuoted c
    | .escaped inWord => s.stepEscaped inWord c
    | .comment => s.stepComment c
    | .ended => s.stepEnded c

def feed (text : List Char) : Option State := text.foldlM step s

/-- The commands of the pipeline, once the line has ended. -/
def result : Option (List (List String)) :=
  if s.mode = .ended then some (s.commands ++ [s.words]) else none

end State

/-- The commands of the pipeline a text is, each as its words. -/
def read (text : String) : Option (List (List String)) :=
  (State.feed {} text.toList).bind State.result

/-- A text in single quotes, its own quotes taken out of them. -/
def quoted (text : List Char) : List Char :=
  QUOTE :: text.flatMap (fun c => if c = QUOTE then [QUOTE, '\\', QUOTE, QUOTE] else [c]) ++ [QUOTE]

namespace State

variable {s s' : State} {c : Char} {text rest : List Char} {pipeline : List (List String)}

lemma feed_append (s : State) (text rest : List Char) :
    s.feed (text ++ rest) = (s.feed text).bind fun s => s.feed rest := by
  rw [feed, List.foldlM_append]
  rfl

/-! ## What is read -/

/-- Whether a word is being read. -/
def inWord (s : State) : Bool := s.mode = .word || s.mode = .quoted || s.mode = .escaped true

/-- A character that does not end a word, whether quoted or not. -/
def stays (c : Char) : Bool := !isBlank c && c != '\n' && c != '\\'

end State

/-! ## Words of a text -/

/-- A text that is read as some words, wherever a word may begin. -/
def Reads (text : List Char) (words : List String) : Prop :=
  ∀ before commands, ∃ s, State.feed ⟨.blank, [], before, commands⟩ text = some s ∧ s.mode = .word ∧
    s.endWord = ⟨.blank, [], before ++ words, commands⟩

section Words

variable {text text' gap : List Char} {words words' : List String}

end Words

end Shell
