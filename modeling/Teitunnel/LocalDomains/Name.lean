import Teitunnel.Domain
import Teitunnel.Lib.Trim

/-!
# Local names

Names of this computer (`app.localhost`, `api.test`, `phone.local`): valid labels in lower case,
the last of them one of three suffixes.
-/

namespace Teitunnel.LocalDomains

open Text

/-- A top-level suffix that may be served. -/
inductive Suffix where
  | localhost
  | test
  | «local»
  deriving DecidableEq, Repr

namespace Suffix

/-- Every suffix, in preference order. -/
def ALL : List Suffix := [.localhost, .test, .local]

def asStr : Suffix → String
  | .localhost => "localhost"
  | .test => "test"
  | .local => "local"

/-- The suffix that a label is. -/
def of (label : String) : Option Suffix := ALL.find? fun suffix => suffix.asStr = label

lemma of_eq_some {label : String} {suffix : Suffix} (h : of label = some suffix) :
    label = suffix.asStr := by
  simpa [eq_comm] using List.find?_some h

lemma of_asStr (suffix : Suffix) : of suffix.asStr = some suffix := by
  cases suffix <;> decide

lemma not_mem_asStr (suffix : Suffix) : '.' ∉ suffix.asStr.toList := by
  cases suffix <;> decide

end Suffix

/-- Longest name, without the trailing dot. -/
def MAX_NAME_LEN : ℕ := 253

/-- Why a local name was refused. -/
inductive NameError where
  | empty
  | tooLong
  | invalidLabel (label : String)
  | wildcard
  | suffixNotAllowed (allowed : String)
  | bareSuffix (suffix : Suffix)
  deriving DecidableEq

/-- The form of a local name. -/
structure ValidLocalName (s : String) (suffix : Suffix) : Prop where
  labels : ∀ label ∈ split '.' s, ValidLabel label.toList
  last : (split '.' s).getLast? = some suffix.asStr
  /-- It is more than its suffix. -/
  front : s.utf8ByteSize ≠ suffix.asStr.utf8ByteSize
  size : s.utf8ByteSize ≤ MAX_NAME_LEN

/-- A validated local name, in lower case. -/
structure LocalName where
  asStr : String
  suffix : Suffix
  valid : ValidLocalName asStr suffix

/-- A text without the dot at its end, if it has one. -/
def stripDot (s : String) : String :=
  if s.toList.getLast? = some '.' then String.ofList s.toList.dropLast else s

/-- A label that no name has, and why. -/
def labelError (label : String) : Option NameError :=
  if label = "*" then some .wildcard
  else if ValidLabel label.toList then none
  else some (.invalidLabel label)

lemma labelError_eq_none {label : String} : labelError label = none ↔ ValidLabel label.toList := by
  rw [labelError]
  constructor
  · intro h
    split_ifs at h with hstar hvalid
    exact hvalid
  · intro h
    have hstar : label ≠ "*" := by
      rintro rfl
      revert h
      decide
    rw [if_neg hstar, if_pos h]

namespace LocalName

/-- Two local names with one text are one. -/
@[ext] lemma ext {n m : LocalName} (h : n.asStr = m.asStr) : n = m := by
  obtain ⟨s, suffix, hvalid⟩ := n
  obtain ⟨s', suffix', hvalid'⟩ := m
  obtain rfl : s = s' := h
  have hsame := Option.some.inj (hvalid.last.symm.trans hvalid'.last)
  have hsuffix := congrArg Suffix.of hsame
  rw [Suffix.of_asStr, Suffix.of_asStr, Option.some_inj] at hsuffix
  subst hsuffix
  rfl

instance : DecidableEq LocalName := fun _ _ => decidable_of_iff _ LocalName.ext_iff.symm

/-- Parses a name, accepting only the `allowed` suffixes. -/
def parse (input : String) (allowed : List Suffix) : Except NameError LocalName :=
  let trimmed := stripDot input
  if trimmed = "" then .error .empty
  else if hsize : MAX_NAME_LEN < trimmed.utf8ByteSize then .error .tooLong
  else
    let name := toAsciiLowercase trimmed
    match hlabels : (split '.' name).findSome? labelError with
    | some err => .error err
    | none =>
        let notAllowed := NameError.suffixNotAllowed
          (", ".intercalate (allowed.map fun suffix => "." ++ suffix.asStr))
        match hsuffix : (split '.' name).getLast?.bind Suffix.of with
        | none => .error notAllowed
        | some suffix =>
            if suffix ∉ allowed then .error notAllowed
            else if hfront : name.utf8ByteSize = suffix.asStr.utf8ByteSize then
              .error (.bareSuffix suffix)
            else .ok
              { asStr := name
                suffix
                valid := {
                  labels := fun label hlabel =>
                    labelError_eq_none.mp (List.findSome?_eq_none_iff.mp hlabels label hlabel)
                  last := by
                    obtain ⟨label, hlast, hof⟩ := Option.bind_eq_some_iff.mp hsuffix
                    rw [hlast, Suffix.of_eq_some hof]
                  front := hfront
                  size := by
                    rw [utf8ByteSize_toAsciiLowercase]
                    omega } }

/-- What is one level up is a name again, unless it is the bare suffix. -/
lemma valid_parent {name : LocalName} {label rest : String}
    (hcut : splitOnce '.' name.asStr = some (label, rest)) (hrest : rest ≠ name.suffix.asStr) :
    ValidLocalName rest name.suffix := by
  obtain ⟨hname, hlabel⟩ := splitOnce_eq_some.mp hcut
  have hsplit : split '.' name.asStr = label :: split '.' rest := by
    rw [hname, split_append hlabel]
  have hlast : (split '.' rest).getLast? = some name.suffix.asStr := by
    have h := name.valid.last
    rwa [hsplit, List.getLast?_cons_of_ne_nil (split_ne_nil '.' rest)] at h
  refine ⟨fun other hother => ?_, hlast, ?_, ?_⟩
  · refine name.valid.labels other ?_
    rw [hsplit]
    exact List.mem_cons_of_mem label hother
  · rcases getLast?_split hlast with heq | ⟨front, heq⟩
    · exact absurd heq hrest
    · rw [heq, String.utf8ByteSize_append, String.utf8ByteSize_append, String.utf8ByteSize_singleton]
      have hdot : ('.').utf8Size = 1 := rfl
      omega
  · have hsize := name.valid.size
    rw [hname, String.utf8ByteSize_append] at hsize
    omega

/-- The name one level up, unless that would be the bare suffix. -/
def parent (name : LocalName) : Option LocalName :=
  match hcut : splitOnce '.' name.asStr with
  | none => none
  | some (_, rest) =>
      if hrest : rest = name.suffix.asStr then none
      else some ⟨rest, name.suffix, valid_parent hcut hrest⟩

/-- The wildcard that covers one level below. -/
def wildcard (name : LocalName) : String := "*." ++ name.asStr

lemma parent_eq_some {name up : LocalName} :
    name.parent = some up ↔
      ∃ label, '.' ∉ label.toList ∧ name.asStr = label ++ "." ++ up.asStr := by
  constructor
  · intro h
    rw [parent] at h
    split at h
    · cases h
    · rename_i label rest hcut
      split_ifs at h with hrest
      obtain rfl := Option.some.inj h
      obtain ⟨hname, hlabel⟩ := splitOnce_eq_some.mp hcut
      exact ⟨label, hlabel, hname⟩
  · rintro ⟨label, hlabel, hname⟩
    have hcut : splitOnce '.' name.asStr = some (label, up.asStr) :=
      splitOnce_eq_some.mpr ⟨hname, hlabel⟩
    have hrest : up.asStr ≠ name.suffix.asStr := by
      intro heq
      have hlast := up.valid.last
      rw [heq, split_of_not_mem (Suffix.not_mem_asStr _), List.getLast?_singleton,
        Option.some_inj] at hlast
      exact up.valid.front (by rw [heq, hlast])
    rw [parent]
    split
    · rename_i hnone
      rw [hcut] at hnone
      cases hnone
    · rename_i label' rest hcut'
      rw [hcut] at hcut'
      obtain ⟨rfl, rfl⟩ := Prod.mk.inj (Option.some.inj hcut')
      rw [dif_neg hrest]
      exact congrArg some (LocalName.ext rfl)

end LocalName
end Teitunnel.LocalDomains
