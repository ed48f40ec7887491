import Teitunnel.Access

/-!
# Who may log in, as typed

The entries that an access rule is typed and shown with: `me@xyz.com` is a person, `@xyz.com`
everyone at a domain, `github:org/team` the members of a GitHub team.
-/

namespace Teitunnel

open Text

/-- A text was cut inside a character. -/
inductive Panic where
  | notCharBoundary
  deriving DecidableEq, Repr

/-- A text cut after so many bytes, unless that is inside a character. -/
def cutBytes : ℕ → List Char → Option (List Char × List Char)
  | 0, text => some ([], text)
  | _ + 1, [] => none
  | bytes + 1, c :: rest =>
      if c.utf8Size ≤ bytes + 1 then
        (cutBytes (bytes + 1 - c.utf8Size) rest).map fun (head, rest) => (c :: head, rest)
      else none

namespace AccessRule

/-- The entries for who is allowed. -/
def allow (r : AccessRule) : List String :=
  r.emails ++ r.emailDomains.map ("@" ++ ·) ++ r.github.map (GITHUB_PREFIX ++ ·)

/-- The entry is an email address or a domain. -/
def addAddress (rule : AccessRule) (entry : String) : AccessRule :=
  if (entry.toList.findIdx? (· == '@')).any (0 < ·) then
    { rule with emails := rule.emails ++ [entry] }
  else { rule with emailDomains := rule.emailDomains ++ [entry] }

/-- One entry more. -/
def addEntry (rule : AccessRule) (entry : String) : Except Panic AccessRule :=
  if entry.utf8ByteSize > GITHUB_PREFIX.utf8ByteSize then
    match cutBytes GITHUB_PREFIX.utf8ByteSize entry.toList with
    | none => .error .notCharBoundary
    | some (head, rest) =>
        if SameText (String.ofList head) GITHUB_PREFIX then
          .ok { rule with github := rule.github ++ [String.ofList rest] }
        else .ok (rule.addAddress entry)
  else .ok (rule.addAddress entry)

/-- A login from typed entries and the paths that skip it; none without entries. -/
def fromAllow (allow bypass : List String) : Except Panic (Option AccessRule) :=
  if allow = [] then .ok none
  else
    (allow.foldlM (fun rule entry => addEntry rule (trim entry)) ⟨[], [], [], .any, bypass⟩).map
      some

end AccessRule

end Teitunnel
