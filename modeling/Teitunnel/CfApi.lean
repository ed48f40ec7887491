import Teitunnel.Domain
import Teitunnel.Lib.Json

/-!
# Cloudflare's objects

The objects the API client reads and writes, with the fields the engine uses.  A policy's
`reusable` and `app_count` are read by the client alone and left out.
-/

namespace Teitunnel

open Text

/-- An object of settings, in the order of its keys. -/
abbrev Settings := List (String × Json)

/-- The prefix of the names given to applications and their policies. -/
def TEITUNNEL_PREFIX : String := "Teitunnel · "

/-! ## Tunnels and DNS -/

/-- The fields of an ingress rule that are modelled; the others are kept in `extra`. -/
def INGRESS_FIELDS : List String := ["hostname", "path", "service", "originRequest"]

lemma no_ingress_fields : ∀ f ∈ ([] : Settings), f.1 ∉ INGRESS_FIELDS := by
  intro f hf
  exact absurd hf List.not_mem_nil

/-- One ingress rule.  The last rule must be a catch-all (no hostname). -/
structure IngressRule where
  /-- Public hostname; `none` for the catch-all. -/
  hostname : Option String
  /-- Path regex. -/
  path : Option String
  service : String
  /-- Per-rule origin settings, kept as they are. -/
  originRequest : Settings
  /-- Fields that are not modelled. -/
  extra : Settings
  extra_fields : ∀ f ∈ extra, f.1 ∉ INGRESS_FIELDS := by simp
  deriving DecidableEq

/-- The place a rule answers for. -/
def IngressRule.key (r : IngressRule) : Option String × Option String := (r.hostname, r.path)

/-- A DNS record. -/
structure DnsRecord where
  id : String
  name : String
  /-- `A`, `AAAA`, `CNAME`, `TXT`, … -/
  kind : String
  content : String
  proxied : Bool
  /-- Free text; the ownership marker goes here. -/
  comment : Option String
  ttl : ℕ
  deriving DecidableEq

/-! ## Access -/

/-- A policy of an application. -/
structure AccessPolicy where
  id : Option String
  name : String
  /-- `allow`, `deny`, `bypass`, `non_identity`. -/
  decision : String
  /-- Who it applies to: any rule matching is enough. -/
  incl : List Json
  precedence : Option ℕ
  deriving DecidableEq

/-- An application to create or replace. -/
structure NewAccessApp where
  name : String
  /-- The protected hostname and optional path. -/
  domain : String
  kind : String
  sessionDuration : String
  appLauncherVisible : Bool
  policies : List AccessPolicy
  /-- The login methods offered; empty: every one the account has. -/
  allowedIdps : List String
  autoRedirectToIdentity : Bool
  deriving DecidableEq

/-- A rule matching one email address. -/
def emailRule (email : String) : Json :=
  .obj [("email", .obj [("email", .str email)])]

/-- A rule matching everyone. -/
def everyoneRule : Json :=
  .obj [("everyone", .obj [])]

/-- Whether a rule matches everyone. -/
def ruleIsEveryone (rule : Json) : Bool :=
  ((rule.get? "everyone").bind Json.asObject).isSome

/-- A rule matching every address at an email domain. -/
def emailDomainRule (domain : String) : Json :=
  .obj [("email_domain", .obj [("domain", .str domain)])]

/-- The email a rule matches, if it is an email rule. -/
def ruleEmail (rule : Json) : Option String :=
  ((rule.get? "email").bind (Json.get? "email")).bind Json.asStr

/-- The email domain a rule matches, if it is an email-domain rule. -/
def ruleEmailDomain (rule : Json) : Option String :=
  ((rule.get? "email_domain").bind (Json.get? "domain")).bind Json.asStr

/-- A rule matching the members of a GitHub organization, or of one of its teams. -/
def githubRule (identityProviderId organization : String) (team : Option String) : Json :=
  let rule := [("identity_provider_id", Json.str identityProviderId),
    ("name", Json.str organization)]
  .obj [("github-organization", .obj (rule ++ (team.map fun t => ("team", Json.str t)).toList))]

/-- The organization, team and login method a GitHub rule matches, if it is one. -/
def ruleGithub (rule : Json) : Option (String × Option String × String) := do
  let github ← rule.get? "github-organization"
  let name ← (github.get? "name").bind Json.asStr
  let id ← (github.get? "identity_provider_id").bind Json.asStr
  return (name, (github.get? "team").bind Json.asStr, id)

/-- A rule matching one service token. -/
def serviceTokenRule (id : String) : Json :=
  .obj [("service_token", .obj [("token_id", .str id)])]

/-- The service token a rule matches, if it is one. -/
def ruleServiceToken (rule : Json) : Option String :=
  ((rule.get? "service_token").bind (Json.get? "token_id")).bind Json.asStr

@[simp] lemma ruleServiceToken_serviceTokenRule (id : String) :
    ruleServiceToken (serviceTokenRule id) = some id := rfl

/-! ## Rulesets -/

def PHASE_CUSTOM : String := "http_request_firewall_custom"
def PHASE_RATE_LIMIT : String := "http_ratelimit"
def PHASE_REQUEST_HEADERS : String := "http_request_late_transform"
def PHASE_RESPONSE_HEADERS : String := "http_response_headers_transform"
/-- URL rewrites: read only, they count towards the same quota as header rules. -/
def PHASE_URL_REWRITE : String := "http_request_transform"
def PHASE_CACHE : String := "http_request_cache_settings"

/-- A rate limiting rule's counter. -/
structure RateLimit where
  characteristics : List String
  period : ℕ
  requestsPerPeriod : ℕ
  mitigationTimeout : ℕ
  deriving DecidableEq

/-- A rule to create, or the whole definition of one to change. -/
structure NewRule where
  action : String
  expression : String
  /-- Free text; the marker goes here. -/
  description : String
  enabled : Bool
  actionParameters : Option Json
  ratelimit : Option RateLimit
  deriving DecidableEq

/-! ## Load balancing -/

/-- Request headers: each name with its values. -/
abbrev HeaderMap := List (String × List String)

/-- A health monitor. -/
structure Monitor where
  id : String
  kind : String
  description : String
  path : String
  expectedCodes : String
  followRedirects : Bool
  header : HeaderMap
  deriving DecidableEq

/-- One endpoint of a pool. -/
structure Origin where
  name : String
  address : String
  enabled : Bool
  header : HeaderMap
  deriving DecidableEq

/-- A pool of endpoints. -/
structure Pool where
  id : String
  name : String
  description : String
  enabled : Bool
  monitor : Option String
  origins : List Origin
  deriving DecidableEq

/-- A load balancer on a zone. -/
structure LoadBalancer where
  id : String
  name : String
  description : String
  defaultPools : List String
  fallbackPool : String
  proxied : Bool
  deriving DecidableEq

/-! ## Workers -/

/-- A Custom Domain: a hostname served by a Worker. -/
structure WorkerDomain where
  id : String
  hostname : String
  service : String
  zoneId : String
  zoneName : String
  deriving DecidableEq

/-- A Worker route: requests matching `pattern` on a proxied hostname run `script` first. -/
structure WorkerRoute where
  id : String
  pattern : String
  script : Option String
  requestLimitFailOpen : Option Bool
  deriving DecidableEq

end Teitunnel
