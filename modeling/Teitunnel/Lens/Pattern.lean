import Teitunnel.Lib.Text
import Teitunnel.Lib.Glob

/-!
# Patterns of paths

The paths of stubs, fault rules, breakpoints and of what skips the sign-in: exact ones, globs and
regular expressions.
-/

namespace Teitunnel.Lens

open Text

def STAR : UInt8 := 42
def QUESTION : UInt8 := 63

/-- The loop over the text: `star` is the last `*`, with the place in the text up to which it
stands for something. -/
def globLoop (pattern text : List UInt8) (p t : ℕ) (star : Option (ℕ × ℕ))
    (hstar : ∀ sp st, star = some (sp, st) → st ≤ t) : Bool :=
  if ht : t < text.length then
    if hp : pattern[p]? = some STAR then
      globLoop pattern text (p + 1) t (some (p, t)) (by rintro _ _ ⟨⟩; exact le_rfl)
    else if pattern[p]? = some QUESTION ∨ pattern[p]? = some text[t] then
      globLoop pattern text (p + 1) (t + 1) star fun sp st h => (hstar sp st h).trans t.le_succ
    else
      match star, hstar with
      | some (sp, st), _ =>
          globLoop pattern text (sp + 1) (st + 1) (some (sp, st + 1))
            (by rintro _ _ ⟨⟩; exact le_rfl)
      | none, _ => false
  else (pattern.drop (min p pattern.length)).all (· == STAR)
-- each star stands for more and more, and between two changes of it both places go on
termination_by (text.length + 1 - (star.elim 0 fun s => s.2 + 1),
  (pattern.length - p) + (text.length - t))
decreasing_by
  all_goals simp_wf
  · have hlength : p < pattern.length := (List.getElem?_eq_some_iff.mp hp).1
    cases star with
    | none =>
        simp only [Option.elim_none]
        omega
    | some s =>
        have hle := hstar s.1 s.2 rfl
        simp only [Option.elim_some]
        omega
  · omega
  · rename_i hle
    have := hle sp st rfl
    omega

def globMatch (pattern text : List UInt8) : Bool := globLoop pattern text 0 0 none nofun

/-- What a byte of a pattern stands for. -/
def token (c : UInt8) : Glob.Token UInt8 :=
  if c = STAR then .run else if c = QUESTION then .one else .letter c

/-- The regular expressions. -/
class Regexes where
  Regex : Type
  new : String → Except String Regex
  isMatch : Regex → String → Bool

inductive PathPattern [Regexes] where
  | exact (text : String)
  | glob (text : String)
  | regex (re : Regexes.Regex)

inductive PatternError where
  | regex (re err : String)
  | noSlash (text : String)
  deriving DecidableEq

namespace PathPattern

variable [Regexes]

def parse (text : String) : Except PatternError PathPattern :=
  match stripStart "re:" text with
  | some re =>
      match Regexes.new re with
      | .ok compiled => .ok (.regex compiled)
      | .error err => .error (.regex re err)
  | none =>
      if ¬ StartsWith "/" text ∧ text ≠ "*" then .error (.noSlash text)
      else if '*' ∈ text.toList ∨ '?' ∈ text.toList then .ok (.glob text)
      else .ok (.exact text)

/-- Whether a path matches. -/
def matchesPath (pattern : PathPattern) (path : String) : Bool :=
  match pattern with
  | exact text => text == path
  | glob text => globMatch (utf8 text) (utf8 path)
  | regex re => Regexes.isMatch re path

end PathPattern

end Teitunnel.Lens
