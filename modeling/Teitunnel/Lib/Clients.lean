import Teitunnel.Lib.Trim

/-!
# Requests as command-line clients read them

The request that curl and HTTPie make of the words they are given, as far as method, URL, header
fields and body go; what they add on their own (a user agent, a content type) is left out.  The
reading is `none` where the words ask for something else.
-/

namespace Clients

open Text

/-- What is sent as the body. -/
inductive SentBody where
  | text (text : String)
  /-- The input, decoded from base64 by a command before. -/
  | base64 (text : String)
  deriving DecidableEq

/-- A request as it is sent. -/
structure Sent where
  method : String
  url : String
  headers : List (String × String)
  body : Option SentBody
  deriving DecidableEq

/-- What a command gets as its input: nothing, or what a text in base64 stands for. -/
def input? : List (List String) → Option (Option String × List String)
  | [command] => some (none, command)
  | [[print, format, text], decode, command] =>
      if print = "printf" ∧ format = "%s" ∧ decode = ["base64", "--decode"] then
        some (some text, command)
      else none
  | _ => none

/-- Whether a word is read as an option. -/
def isOption (word : String) : Bool := word.toList.head? == some '-'

/-! ## curl -/

namespace Curl

/-- What the options read so far say. -/
structure Options where
  method : Option String := none
  url : Option String := none
  headers : List (String × String) := []
  body : Option SentBody := none

/-- White space of ASCII. -/
def isSpace (c : Char) : Bool := c == ' ' || (9 ≤ c.toNat && c.toNat ≤ 13)

/-- The field of a header line, which goes out as it stands; a line with nothing after the colon
takes the field out instead. -/
def header (line : String) : List (String × String) :=
  match splitOnce ':' line with
  | some (name, value) =>
      if value.toList.all isSpace then [] else [(name, (stripStart " " value).getD value)]
  | none => []

/-- Letters of a pattern for many URLs. -/
def isGlobLetter (c : Char) : Bool := "\x7b\x7d[]".toList.contains c

def isIpChar (c : Char) : Bool := c.isAlphanum || c == ':' || c == '.'

/-- Whether a URL is a pattern for many; the brackets around an IPv6 address are none. -/
def hasGlob (url : String) : Bool :=
  match splitOnce '[' url with
  | none => url.toList.any isGlobLetter
  | some (scheme, rest) =>
      match splitOnce ']' rest with
      | none => true
      | some (address, rest) =>
          !(scheme.toList.reverse.take 3 == "//:".toList && address.toList.all isIpChar &&
            2 ≤ address.toList.count ':') ||
          scheme.toList.any isGlobLetter || rest.toList.any isGlobLetter

/-- The one word that is no option is the URL. -/
def positional (word : String) (options : Options) : Option Options :=
  if isOption word || options.url.isSome || hasGlob word then none
  else some { options with url := some word }

def arguments (input : Option String) : List String → Options → Option Options
  | [], options => some options
  | [word], options => positional word options
  | word :: value :: rest, options =>
      if word = "-X" then arguments input rest { options with method := some value }
      else if word = "-H" then
        -- the lines of a file
        if value.toList.head? = some '@' then none
        else arguments input rest { options with headers := options.headers ++ header value }
      else if word = "--data-raw" then
        arguments input rest { options with body := some (.text value) }
      else if word = "--data-binary" then
        if value = "@-" then
          input.bind fun text => arguments input rest { options with body := some (.base64 text) }
        else none
      else (positional word options).bind (arguments input (value :: rest))

/-- The request curl makes. -/
def read (pipeline : List (List String)) : Option Sent :=
  (input? pipeline).bind fun (input, words) =>
    match words with
    | command :: rest =>
        if command = "curl" then
          (arguments input rest {}).bind fun options => options.url.map fun url =>
            { method := options.method.getD (if options.body.isSome then "POST" else "GET")
              url
              headers := options.headers
              body := options.body }
        else none
    | [] => none

end Curl

/-! ## HTTPie -/

namespace Httpie

/-- Letters that separate the parts of an item, alone or in pairs. -/
def isSeparator (c : Char) : Bool := c == ':' || c == ';' || c == '=' || c == '@'

/-- The characters of an item, with whether a backslash takes their meaning away. -/
def tokenize : List Char → List (Char × Bool)
  | [] => []
  | [c] => [(c, false)]
  | c :: d :: rest =>
      if c = '\\' then
        if isSeparator d then (d, true) :: tokenize rest
        else (c, false) :: (d, false) :: tokenize rest
      else (c, false) :: tokenize (d :: rest)

def textOf (tokens : List (Char × Bool)) : String := String.ofList (tokens.map Prod.fst)

/-- A separator that means one. -/
def separates (token : Char × Bool) : Bool := isSeparator token.1 && !token.2

/-- The field of an item `name:value` or `name;`.  An item `name:` takes a field out, and one with
another separator is no header. -/
def header (item : String) : Option (List (String × String)) :=
  let tokens := tokenize item.toList
  let name := textOf (tokens.takeWhile fun token => !separates token)
  match tokens.dropWhile fun token => !separates token with
  | [] => none
  | (separator, _) :: value =>
      if separator = ':' then
        if value.head? = some ('=', false) ∨ value.head? = some ('@', false) then none
        else some (if value = [] then [] else [(name, textOf value)])
      else if separator = ';' then if value = [] then some [(name, "")] else none
      else none

/-- The raw body of the options, and the words that are none. -/
def options : List String → Option (Option String × List String)
  | [] => some (none, [])
  | word :: rest =>
      (options rest).bind fun (raw, words) =>
        match stripStart "--raw=" word with
        | some text => some (some text, words)
        | none => if isOption word then none else some (raw, word :: words)

def isLetter (c : Char) : Bool := ('A' ≤ c && c ≤ 'Z') || ('a' ≤ c && c ≤ 'z')

/-- The body: raw or from the input, never both. -/
def body : Option String → Option String → Option (Option SentBody)
  | none, none => some none
  | some raw, none => some (some (.text raw))
  | none, some text => some (some (.base64 text))
  | some _, some _ => none

/-- The request HTTPie makes of a method, a URL and items; a first word with other than letters is
no method. -/
def read (pipeline : List (List String)) : Option Sent :=
  (input? pipeline).bind fun (input, words) =>
    match words with
    | command :: rest =>
        if command = "http" then
          (options rest).bind fun (raw, words) => match words with
            | method :: url :: items =>
                if method.toList.all isLetter && method ≠ "" then
                  (items.mapM header).bind fun headers => (body raw input).map fun body =>
                    { method := String.ofList (method.toList.map Char.toUpper)
                      url
                      headers := headers.flatten
                      body }
                else none
            | _ => none
        else none
    | [] => none

end Httpie

end Clients
