import Teitunnel.CfApi
import Teitunnel.Inbox.Drain
import Teitunnel.Lib.Runs

/-!
# The rounds of an account

Each inbox of an account is drained to the service its route points at, as the configurations of
this computer's tunnels have it.
-/

namespace Teitunnel.Inbox

open Text

/-- Whether a pattern matches a path. -/
abbrev Matcher := String → String → Bool

/-- The rule's pattern, if it has one, matches the path. -/
def takes (isMatch : Matcher) (rule : IngressRule) (path : String) : Bool :=
  rule.path.all fun pattern => isMatch pattern path

/-- The webhooks that a round reads. -/
def Inboxes.batch (c : Codec) (inbox : Front) (s : Inboxes) : List Pending :=
  ((s.waiting inbox.script).take BATCH).filterMap (pending c)

end Teitunnel.Inbox
