import Teitunnel.Lens.Export
import Teitunnel.Lib.Clients
import Teitunnel.Lib.Shell

/-!
# What an exported command says

The command lines for curl and HTTPie as a shell splits them and as the two clients read the words.
Every text goes through single quotes except the method, so what a command says differs from the
request only by the method's own characters and by what the clients make of a word.
-/

namespace Teitunnel.Lens

open Text Shell Clients

/-! ## What is meant -/

/-- The request a command stands for. -/
def RequestParts.meant (parts : RequestParts) : Sent :=
  { method := parts.method
    url := parts.url
    headers := parts.headers.map fun h => (h.name, h.value)
    body := match parts.body.text, parts.body.base64 with
      | some text, _ => some (.text text)
      | none, some b64 => some (.base64 b64)
      | none, none => none }

/-- What a binary body is piped through. -/
def RequestParts.pipeWords (parts : RequestParts) : List (List String) :=
  match parts.body.text, parts.body.base64 with
  | none, some b64 => [["printf", "%s", b64], ["base64", "--decode"]]
  | _, _ => []

namespace CurlWords

variable (parts : RequestParts)

/-- Whether the method is written. -/
def namesMethod : Bool :=
  parts.method ≠ "GET" || parts.body.text.isSome || parts.body.base64.isSome

def method : List (List String) := if namesMethod parts then [["-X", parts.method]] else []

def headers : List (List String) := parts.headers.map fun h => ["-H", h.name ++ ": " ++ h.value]

def data : List (List String) :=
  match parts.body.text, parts.body.base64 with
  | some text, _ => [["--data-raw", text]]
  | none, some _ => [["--data-binary", "@-"]]
  | none, none => []

/-- The arguments of curl, in groups as they are written. -/
def arguments : List (List String) :=
  [["curl"]] ++ method parts ++ [[parts.url]] ++ headers parts ++ data parts

/-- The pipeline that is meant. -/
def pipeline : List (List String) := parts.pipeWords ++ [(arguments parts).flatten]

end CurlWords

namespace HttpieWords

variable (parts : RequestParts)

def raw : List (List String) :=
  match parts.body.text, parts.body.base64 with
  | some text, none => [["--raw=" ++ text]]
  | _, _ => []

def header (h : HeaderView) : String := if h.value = "" then h.name ++ ";" else h.name ++ ":" ++ h.value

/-- The arguments of HTTPie, in groups as they are written. -/
def arguments : List (List String) :=
  [["http"]] ++ raw parts ++ [[parts.method], [parts.url]] ++
    parts.headers.map fun h => [header h]

/-- The pipeline that is meant. -/
def pipeline : List (List String) := parts.pipeWords ++ [(arguments parts).flatten]

end HttpieWords

/-- The command is the pipeline that is meant, and curl makes the request of it. -/
structure CurlRepeats (parts : RequestParts) : Prop where
  words : Shell.read (curl parts) = some (CurlWords.pipeline parts)
  request : Curl.read (CurlWords.pipeline parts) = some parts.meant

/-- Everything of a request that is written in quotes. -/
def RequestParts.texts (parts : RequestParts) : List String :=
  parts.url :: (parts.headers.map HeaderView.value ++ parts.body.text.toList ++
    parts.body.base64.toList)

section Reading

variable {parts : RequestParts} {text : String}

end Reading

/-! ## What the clients read -/

/-- A character of a token. -/
def isTokenChar (c : Char) : Bool := c.isAlphanum || "!#$%&'*+-.^_|~".toList.contains c || c == Char.ofNat 96

/-- A method or a field's name. -/
structure IsToken (text : String) : Prop where
  nonempty : text ≠ ""
  chars : ∀ c ∈ text.toList, isTokenChar c = true

section Tokens

variable {text name : String} {c : Char}

lemma IsToken.not_mem (h : IsToken text) (hc : isTokenChar c = false) : c ∉ text.toList := by
  intro hmem
  rw [h.chars c hmem] at hc
  cases hc

end Tokens

section Curl

variable {parts : RequestParts}

/-- The input of the command. -/
def RequestParts.input (parts : RequestParts) : Option String :=
  match parts.body.text, parts.body.base64 with
  | none, some b64 => some b64
  | _, _ => none

end Curl

section Items

variable {text value : List Char} {name : String}

open Httpie

end Items

section Httpie

variable {parts : RequestParts}

end Httpie

/-- Nothing masked, no body. -/
def openMasks : Masks where
  text text _ := text
  query query _ := query
  header _ value _ := value
  body _ _ _ := { text := none, base64 := none, exclusive := .inl rfl }
  lossy _ := ""

def reveal : Redaction := ⟨false, false, []⟩

/-- A request for a page, with its method. -/
def pageRequest (method : String) : Exchange :=
  { id := 1
    seq := 1
    tap := "t"
    request :=
      { method
        uri := ⟨"/a", some "q='x'"⟩
        scheme := "https"
        host := "a.test"
        headers := ⟨[("accept", .text ⟨"*/*", by decide⟩)]⟩ } }

lemma isToken_of_decide {text : String} (hne : text ≠ "")
    (h : text.toList.all isTokenChar = true) : IsToken text := ⟨hne, List.all_eq_true.mp h⟩

/-- A method that pipes the request into another command. -/
theorem exports_pipe :
    IsToken "A|sh" ∧
      Shell.read (curl (requestParts openMasks (pageRequest "A|sh") reveal)) =
        some [["curl", "-X", "A"], ["sh", "https://a.test/a?q='x'", "-H", "accept: */*"]] ∧
      ¬ CurlRepeats (requestParts openMasks (pageRequest "A|sh") reveal) := by
  have hread : Shell.read (curl (requestParts openMasks (pageRequest "A|sh") reveal)) =
      some [["curl", "-X", "A"], ["sh", "https://a.test/a?q='x'", "-H", "accept: */*"]] := by
    decide +kernel
  refine ⟨isToken_of_decide (by decide) (by decide), hread, fun hrepeats => ?_⟩
  have hpipeline := Option.some.inj (hread.symm.trans hrepeats.words)
  exact absurd hpipeline (by decide +kernel)

end Teitunnel.Lens
