import Teitunnel.Inbox.Account
import Teitunnel.Lib.Lists

/-!
# Where a webhook goes

A tunnel sends each request by the first rule that is for its hostname, by name or by wildcard,
and takes its path.  A webhook that waited goes to the service found for its inbox: by the rules
that name the hostname, and by the path of the inbox.
-/

namespace Teitunnel.Inbox

open Text

variable (isMatch : Matcher)

/-- The rule names the hostname of the inbox and takes its path. -/
def Names (inbox : Front) (rule : IngressRule) : Prop :=
  (∃ h, rule.hostname = some h ∧ SameText h inbox.hostname) ∧ takes isMatch rule inbox.path

/-- The service without what is cut off its end before a path is put there. -/
def base (rule : IngressRule) : String := trimEnd (· == '/') rule.service

namespace Inboxes

variable {c : Codec} {inbox : Front} {s : Inboxes} {round : Round}

end Inboxes

/-- Codec without headers and bodies. -/
def plain : Codec := { headers := fun _ => some [], body := fun _ => some [] }

end Teitunnel.Inbox
