import Teitunnel.Lib.Uris
import Teitunnel.OpenApi.Schema

/-!
# Path templates

Templates of observed paths: segments that look like identifiers become parameters, and so do the
positions where many different one-off values stand under the same parent.
-/

namespace Teitunnel.OpenApi

open Text

/-- Distinct one-off values under one parent that make the position a parameter. -/
def SLUG_CLUSTER : ℕ := 8

/-- A segment of a template. -/
inductive Segment where
  | static (text : String)
  | param
  deriving DecidableEq, Repr

namespace Segment

/-- Literal texts in their order, and then the parameter. -/
def rank : Segment → WithTop String
  | static text => text
  | param => ⊤

lemma rank_injective : Function.Injective rank := by
  intro a b h
  cases a with
  | static text =>
      cases b with
      | static text' => rw [WithTop.coe_injective h]
      | param => exact absurd h (WithTop.coe_ne_top)
  | param =>
      cases b with
      | static text' => exact absurd h.symm (WithTop.coe_ne_top)
      | param => rfl

instance : LinearOrder Segment := LinearOrder.lift' rank rank_injective

end Segment

abbrev Template := List Segment

/-! ## Identifiers -/

def isAsciiDigit (c : Char) : Bool := '0' ≤ c && c ≤ '9'

def isAsciiAlphabetic (c : Char) : Bool := ('a' ≤ c && c ≤ 'z') || ('A' ≤ c && c ≤ 'Z')

/-- A segment looks like an identifier rather than a fixed name. -/
def looksDynamic (segment : String) : Bool :=
  let digits := segment.toList.countP isAsciiDigit
  let letters := segment.toList.countP isAsciiAlphabetic
  segment ≠ "" &&
    (digits = segment.utf8ByteSize || isUuid segment ||
      (segment.utf8ByteSize = 10 && stringFormat segment = some "date") ||
      (8 ≤ segment.utf8ByteSize && 0 < digits && segment.toList.all isAsciiHexdigit) ||
      (16 ≤ segment.utf8ByteSize && 2 ≤ digits && 2 ≤ letters &&
        segment.toList.all fun c => isAsciiAlphanumeric c || c = '_' || c = '-'))

/-! ## Segments -/

/-- The byte that two characters write in hexadecimal; a digit may have a sign. -/
def fromStrRadix16 (high low : UInt8) : Option UInt8 :=
  if high = 43 then Uris.hexValue low
  else do
    let high ← Uris.hexValue high
    let low ← Uris.hexValue low
    some (high * 16 + low)

def percentDecode : List UInt8 → List UInt8
  | [] => []
  | b :: high :: low :: rest =>
      if b = 37 then
        match fromStrRadix16 high low with
        | some byte => byte :: percentDecode rest
        | none => b :: percentDecode (high :: low :: rest)
      else b :: percentDecode (high :: low :: rest)
  | b :: rest => b :: percentDecode rest

/-- The segments of a path, without empty ones; bytes that are no text are replaced. -/
def splitPath (lossy : List UInt8 → String) (path : String) : List String :=
  ((split '/' path).filter (· ≠ "")).map fun segment => lossy (percentDecode (utf8 segment))

/-! ## Templates -/

/-- The identifiers of a path as parameters. -/
def generalize (path : List String) : Template :=
  path.map fun s => if looksDynamic s then .param else .static s

/-- The text at a position of a path that has the shape otherwise. -/
def sibling (shape : Template) (index : ℕ) (path : Template) : Option String :=
  match path[index]? with
  | some (.static text) => if path.set index .param = shape then some text else none
  | _ => none

/-- The different texts at a position of the paths that have one shape otherwise. -/
def siblings (generalized : List Template) (shape : Template) (index : ℕ) : SortedSet String :=
  .ofList (generalized.filterMap (sibling shape index))

def looksSlug (value : String) : Bool :=
  value.toList.any fun c => c = '-' || c = '_' || c = '.' || isAsciiDigit c

/-- Many different values, mostly shaped like slugs. -/
def isSlugCluster (values : SortedSet String) : Bool :=
  SLUG_CLUSTER ≤ values.toList.length &&
    values.toList.length ≤ values.toList.countP looksSlug * 2

/-- A parameter at a position where a cluster of slugs stands. -/
def clusterAt (generalized : List Template) (path : Template) (index : ℕ) : Template :=
  match path[index]? with
  | some (.static _) =>
      if 0 < index && isSlugCluster (siblings generalized (path.set index .param) index) then
        path.set index .param
      else path
  | _ => path

/-- The template of a path, one position after another. -/
def cluster (generalized : List Template) (path : Template) : Template :=
  (List.range path.length).foldl (clusterAt generalized) path

/-- The templates of paths. -/
def learn (paths : List (List String)) : SortedSet Template :=
  let generalized := paths.map generalize
  .ofList (generalized.map (cluster generalized))

def Segment.fits : Segment → String → Bool
  | .static text, s => text = s
  | .param, _ => true

/-- A path fits a template. -/
def fits (template : Template) (path : List String) : Bool :=
  template.length = path.length && (template.zip path).all fun (segment, s) => segment.fits s

/-- How many segments are literal. -/
def statics (template : Template) : ℕ := template.countP (· ≠ .param)

/-- The last of the greatest. -/
def maxByKey {α : Type} (key : α → ℕ) (l : List α) : Option α :=
  l.foldl (fun best a => match best with
    | some b => if key b ≤ key a then some a else some b
    | none => some a) none

/-- The template that a path belongs to: the most specific one that it fits. -/
def find (templates : SortedSet Template) (path : List String) : Option Template :=
  maxByKey statics (templates.toList.filter (fits · path))

/-! ## Names -/

/-- What stands before `p` when `s` ends with it. -/
def stripSuffix (p s : String) : Option String :=
  (stripList p.toList.reverse s.toList.reverse).map fun rest => String.ofList rest.reverse

def singular (word : String) : String :=
  let lower := toAsciiLowercase (String.ofList (word.toList.filter isAsciiAlphanumeric))
  match stripSuffix "ies" lower with
  | some stem => stem ++ "y"
  | none =>
      if EndsWith "ss" lower then lower
      else (stripSuffix "s" lower).getD lower

/-- The name of a parameter after the segment before it. -/
def nameBefore : Option Segment → Option String
  | some (.static text) =>
      (some (singular text)).filter fun s => s.toList.head?.any isAsciiAlphabetic
  | _ => none

/-- A name with the first number, from `count` on, that makes it a new one. -/
def fresh (names : List String) (base : String) : ℕ → ℕ → String
  | 0, count => base ++ toString count
  | fuel + 1, count =>
      if names.contains (base ++ toString count) then fresh names base fuel (count + 1)
      else base ++ toString count

/-- A name that is not taken yet. -/
def unique (names : List String) (base : String) : String :=
  if names.contains base then fresh names base names.length 2 else base

/-- What the parameters of a template are called before names are told apart, in order. -/
def bases : Option Segment → Template → List String
  | _, [] => []
  | _, .static text :: rest => bases (some (.static text)) rest
  | before, .param :: rest =>
      (if rest.contains .param then (nameBefore before).elim "param" (· ++ "Id") else "id") ::
        bases (some .param) rest

/-- Names of the parameters: the last one is `id`, earlier ones are called after the segment before
them; they are different. -/
def paramNames (template : Template) : List String :=
  (bases none template).foldl (fun names base => names ++ [unique names base]) []

def renderSegments : Template → List String → String
  | [], _ => ""
  | .static text :: rest, names =>
      "/" ++ String.ofList (text.toList.filter fun c => c ≠ '\x7b' && c ≠ '\x7d') ++
        renderSegments rest names
  | .param :: rest, names =>
      "/\x7b" ++ names.headD "id" ++ "\x7d" ++ renderSegments rest names.tail

/-- The template as a path with named parameters. -/
def render (template : Template) : String :=
  let out := renderSegments template (paramNames template)
  if out = "" then "/" else out

end Teitunnel.OpenApi
