import Teitunnel.Lib.Text

/-!
# Requests and headers

What the local proxy reads of a request: its method, its target and its headers.  A header may
stand several times; names are kept in lower case, values are text or other bytes.
-/

namespace Teitunnel.Lens

open Text

/-- A character that a header's text may have. -/
def isVisible (c : Char) : Bool :=
  (32 ≤ c.toNat && c.toNat < 127) || c == '\t'

/-- The text of a header. -/
structure VisibleText where
  asStr : String
  visible : AllChars isVisible asStr
  deriving DecidableEq

/-- A header's value: text, or bytes that are not. -/
inductive HeaderValue where
  | text (value : VisibleText)
  | bytes (data : List UInt8)
  deriving DecidableEq

namespace HeaderValue

/-- The value as text, if it is. -/
def toStr : HeaderValue → Option String
  | text value => some value.asStr
  | bytes _ => none

/-- A value from text that a header may have. -/
def fromStr (value : String) : Option HeaderValue :=
  if h : AllChars isVisible value then some (.text ⟨value, h⟩) else none

lemma fromStr_eq_some {value : String} (h : AllChars isVisible value) :
    ∃ v, fromStr value = some v ∧ v.toStr = some value :=
  ⟨.text ⟨value, h⟩, dif_pos h, rfl⟩

lemma toStr_of_fromStr {value : String} {v : HeaderValue} (h : fromStr value = some v) :
    v.toStr = some value := by
  unfold fromStr at h
  split at h
  · rw [← Option.some.inj h]
    rfl
  · exact absurd h nofun

lemma toStr_visible {v : HeaderValue} {s : String} (h : v.toStr = some s) : AllChars isVisible s := by
  cases v with
  | text value =>
      have hs : value.asStr = s := Option.some.inj h
      exact hs ▸ value.visible
  | bytes _ => cases h

end HeaderValue

/-- The headers of a request or an answer, in the order they came. -/
structure HeaderMap where
  entries : List (String × HeaderValue)
  deriving DecidableEq

namespace HeaderMap

/-- An entry's value, when it is one of `name`. -/
def valueOf (name : String) (entry : String × HeaderValue) : Option HeaderValue :=
  if entry.1 = name then some entry.2 else none

/-- Every value of `name`. -/
def getAll (headers : HeaderMap) (name : String) : List HeaderValue :=
  headers.entries.filterMap (valueOf name)

/-- The first value of `name`. -/
def get? (headers : HeaderMap) (name : String) : Option HeaderValue :=
  (headers.getAll name).head?

def containsKey (headers : HeaderMap) (name : String) : Bool :=
  (headers.get? name).isSome

/-- Without any value of `name`. -/
def remove (headers : HeaderMap) (name : String) : HeaderMap :=
  ⟨headers.entries.filter fun entry => entry.1 ≠ name⟩

/-- With one more value of `name`. -/
def append (headers : HeaderMap) (name : String) (value : HeaderValue) : HeaderMap :=
  ⟨headers.entries ++ [(name, value)]⟩

/-- With `value` as the only value of `name`. -/
def insert (headers : HeaderMap) (name : String) (value : HeaderValue) : HeaderMap :=
  (headers.remove name).append name value

@[simp] lemma getAll_remove_self (headers : HeaderMap) (name : String) :
    (headers.remove name).getAll name = [] := by
  refine List.filterMap_eq_nil_iff.mpr fun entry hmem => ?_
  exact if_neg (of_decide_eq_true (List.mem_filter.mp hmem).2)

@[simp] lemma getAll_remove_of_ne (headers : HeaderMap) {name other : String} (h : other ≠ name) :
    (headers.remove name).getAll other = headers.getAll other := by
  obtain ⟨entries⟩ := headers
  show (entries.filter _).filterMap _ = entries.filterMap _
  induction entries with
  | nil => rfl
  | cons entry rest ih =>
      by_cases hn : entry.1 = name
      · have hother : valueOf other entry = none := if_neg fun heq => h (heq.symm.trans hn)
        rw [List.filter_cons_of_neg (by simpa using hn), ih,
          List.filterMap_cons_none hother]
      · rw [List.filter_cons_of_pos (by simpa using hn), List.filterMap_cons, List.filterMap_cons, ih]

@[simp] lemma getAll_append_self (headers : HeaderMap) (name : String) (value : HeaderValue) :
    (headers.append name value).getAll name = headers.getAll name ++ [value] := by
  have hself : valueOf name (name, value) = some value := if_pos rfl
  rw [getAll, append, List.filterMap_append, List.filterMap_cons_some hself, List.filterMap_nil]
  rfl

@[simp] lemma getAll_append_of_ne (headers : HeaderMap) {name other : String} (h : other ≠ name)
    (value : HeaderValue) : (headers.append name value).getAll other = headers.getAll other := by
  have hother : valueOf other (name, value) = none := if_neg (Ne.symm h)
  rw [getAll, append, List.filterMap_append, List.filterMap_cons_none hother, List.filterMap_nil,
    List.append_nil]
  rfl

@[simp] lemma getAll_insert_of_ne (headers : HeaderMap) {name other : String} (h : other ≠ name)
    (value : HeaderValue) : (headers.insert name value).getAll other = headers.getAll other := by
  rw [insert, getAll_append_of_ne _ h, getAll_remove_of_ne _ h]

end HeaderMap

/-- A request's target. -/
structure Uri where
  path : String
  query : Option String
  deriving DecidableEq

/-- The path with the query. -/
def Uri.pathAndQuery (uri : Uri) : String :=
  uri.path ++ match uri.query with
    | some query => "?" ++ query
    | none => ""

end Teitunnel.Lens
