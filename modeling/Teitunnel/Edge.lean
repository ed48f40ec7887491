import Teitunnel.CfApi
import Teitunnel.Lib.SortedSet

/-!
# Edge protection

Bot and AI-crawler rules, a rate limit, header rules and a cache bypass for one hostname,
written as ruleset rules scoped to that hostname.  The rules owned carry a marker in their
description: `teitunnel:<route-id>:<kind>` for one hostname's, and
`teitunnel:ratelimit:<requests>-<period>-<action>` for a rate limit, which every hostname with
the same limit in a zone shares.
-/

namespace Teitunnel

open Text Except

/-- A stable id for a route: the first 12 hex digits of a hash of its hostname and path. -/
def routeId [External] (hostname : Hostname) (path : Option PathRule) : String :=
  let text := hostname.asStr ++ "\x00" ++ (path.map PathRule.asStr).getD ""
  String.ofList ((External.sha256 text).hex.toList.take 12)

/-! ## Settings -/

/-- The description prefix of every rule written. -/
def RULE_MARKER : String := "teitunnel:"
def RATE_LIMIT_MARKER : String := "teitunnel:ratelimit:"

/-- What to do with automated clients. -/
inductive BotMode where
  | off
  | challenge
  | block
  deriving DecidableEq, Repr

/-- What happens to a visitor over the rate limit. -/
inductive LimitAction where
  | block
  | challenge
  deriving DecidableEq, Repr

namespace LimitAction

def cloudflare : LimitAction → String
  | block => "block"
  | challenge => "managed_challenge"

def fromCloudflare (action : String) : Option LimitAction :=
  if action = "block" then some block
  else if action = "managed_challenge" then some challenge
  else none

@[simp] lemma fromCloudflare_cloudflare (a : LimitAction) :
    fromCloudflare a.cloudflare = some a := by
  cases a <;> decide

end LimitAction

/-- Requests per period per visitor. -/
structure RateLimitSpec where
  requests : ℕ
  period : ℕ
  action : LimitAction
  deriving DecidableEq, Repr

/-- Rate limit periods Cloudflare supports, in seconds. -/
def PERIODS : List ℕ := [10, 60, 120, 300, 600, 3600]

/-- What a header rule does. -/
inductive EdgeHeaderOp where
  | set
  | add
  | remove
  deriving DecidableEq, Repr

namespace EdgeHeaderOp

def cloudflare : EdgeHeaderOp → String
  | set => "set"
  | add => "add"
  | remove => "remove"

def fromCloudflare (operation : String) : Option EdgeHeaderOp :=
  if operation = "set" then some set
  else if operation = "add" then some add
  else if operation = "remove" then some remove
  else none

@[simp] lemma fromCloudflare_cloudflare (op : EdgeHeaderOp) :
    fromCloudflare op.cloudflare = some op := by
  cases op <;> decide

end EdgeHeaderOp

/-- One header change. -/
structure HeaderRule where
  name : String
  op : EdgeHeaderOp
  /-- The value, for `set` and `add`. -/
  value : Option String
  deriving DecidableEq, Repr

/-- Everything that can be enforced at the edge for one hostname. -/
structure EdgeProtection where
  bots : BotMode := .off
  aiCrawlers : Bool := false
  rateLimit : Option RateLimitSpec := none
  requestHeaders : List HeaderRule := []
  responseHeaders : List HeaderRule := []
  bypassCache : Bool := false
  deriving DecidableEq, Repr

/-- Why protection settings were rejected. -/
inductive EdgeInputError where
  | headerName (name : String)
  | headerValue (name : String)
  | missingValue (name : String)
  | duplicateHeader (name : String)
  | protectedHeader (name : String)
  | cookieRemoveOnly
  | addOnRequest (name : String)
  | tooManyHeaders
  | requests
  | period (seconds : ℕ)
  deriving DecidableEq, Repr

/-- Header rules per list. -/
def MAX_HEADERS : ℕ := 20

/-- Request headers that rules can't change, besides `cf-*` and `x-cf-*`. -/
def PROTECTED_REQUEST : List String :=
  ["x-forwarded-for", "true-client-ip", "x-real-ip", "x-forwarded-proto", "accept-encoding",
    "host", "content-length", "connection", "transfer-encoding", "upgrade", "te", "trailer",
    "keep-alive"]

def validName (name : String) : Bool :=
  name ≠ "" && name.utf8ByteSize ≤ 64 &&
    name.toList.all fun c => isAsciiAlphanumeric c || c == '-' || c == '_'

/-- What is wrong with changing `name` on requests, if anything. -/
def requestHeaderError (name : String) (op : EdgeHeaderOp) : Option EdgeInputError :=
  let lower := toAsciiLowercase name
  let cf := decide (StartsWith "cf-" lower) || decide (StartsWith "x-cf-" lower)
  let removableCf := lower = "cf-connecting-ip" && op = .remove
  if (cf && !removableCf) || PROTECTED_REQUEST.contains lower then some (.protectedHeader name)
  else if lower = "cookie" ∧ op ≠ .remove then some .cookieRemoveOnly
  else if op = .add then some (.addOnRequest name)
  else none

/-- The value a header rule keeps, trimmed. -/
def headerValue (name : String) (op : EdgeHeaderOp) (value : Option String) :
    Except EdgeInputError (Option String) :=
  match op with
  | .remove => .ok none
  | .set | .add =>
      let value := trim (value.getD "")
      if value = "" then .error (.missingValue name)
      else if value.utf8ByteSize > 1024 ∨ value.toList.any isControl then
        .error (.headerValue name)
      else .ok (some value)

/-- One header rule tidied; `seen` are the lower-case names before it. -/
def normalizeHeader (request : Bool) (seen : List String) (rule : HeaderRule) :
    Except EdgeInputError HeaderRule := do
  let name := trim rule.name
  refuseIf (¬ validName name) (.headerName name)
  refuseIf (toAsciiLowercase name ∈ seen) (.duplicateHeader name)
  refuseSome (if request then requestHeaderError name rule.op else none) id
  let value ← headerValue name rule.op rule.value
  return { name, op := rule.op, value }

/-- The header rules tidied one by one, in the order given. -/
def normalizeEach (request : Bool) :
    List String → List HeaderRule → Except EdgeInputError (List HeaderRule)
  | _, [] => .ok []
  | seen, rule :: rest => do
      let tidy ← normalizeHeader request seen rule
      let others ← normalizeEach request (toAsciiLowercase tidy.name :: seen) rest
      return tidy :: others

/-- Header rules in the order of their lower-case names. -/
def sortHeaders (l : List HeaderRule) : List HeaderRule :=
  l.insertionSort fun a b => toAsciiLowercase a.name ≤ toAsciiLowercase b.name

def normalizeHeaders (list : List HeaderRule) (request : Bool) :
    Except EdgeInputError (List HeaderRule) :=
  if list.length > MAX_HEADERS then .error .tooManyHeaders
  else (normalizeEach request [] list).map sortHeaders

/-- What is wrong with a rate limit, if anything. -/
def limitError (limit : RateLimitSpec) : Option EdgeInputError :=
  if limit.requests = 0 ∨ limit.requests > 1000000 then some .requests
  else if limit.period ∉ PERIODS then some (.period limit.period)
  else none

namespace EdgeProtection

/-- Checks and tidies the settings (header names trimmed, lists sorted). -/
def normalized (p : EdgeProtection) : Except EdgeInputError EdgeProtection := do
  refuseSome (p.rateLimit.bind limitError) id
  let requestHeaders ← normalizeHeaders p.requestHeaders true
  let responseHeaders ← normalizeHeaders p.responseHeaders false
  return { p with requestHeaders, responseHeaders }

end EdgeProtection

/-! ## Plans and quotas -/

/-- A zone's Cloudflare plan, for its rule quotas. -/
inductive ZonePlan where
  | free
  | pro
  | business
  | enterprise
  deriving DecidableEq, Repr

/-- What a plan allows. -/
structure PlanLimits where
  custom : ℕ
  rateLimit : ℕ
  transform : ℕ
  /-- Whether rate limiting rules can match a hostname. -/
  hostRateLimit : Bool
  /-- The longest rate limit period, in seconds. -/
  longestPeriod : ℕ
  cache : ℕ

def ZonePlan.limits : ZonePlan → PlanLimits
  | free =>
      { custom := 5, rateLimit := 1, transform := 10, hostRateLimit := false,
        longestPeriod := 10, cache := 10 }
  | pro =>
      { custom := 20, rateLimit := 2, transform := 25, hostRateLimit := true,
        longestPeriod := 60, cache := 25 }
  | business =>
      { custom := 100, rateLimit := 5, transform := 50, hostRateLimit := true,
        longestPeriod := 600, cache := 50 }
  | enterprise =>
      { custom := 1000, rateLimit := 100, transform := 300, hostRateLimit := true,
        longestPeriod := 3600, cache := 300 }

/-- A plan quota. -/
inductive QuotaKind where
  | custom
  | rateLimit
  | transform
  | cache
  deriving DecidableEq, Repr

namespace QuotaKind

/-- Every quota. -/
def all : List QuotaKind := [custom, rateLimit, transform, cache]

/-- The phases whose rules count towards it. -/
def phases : QuotaKind → List String
  | custom => [PHASE_CUSTOM]
  | rateLimit => [PHASE_RATE_LIMIT]
  | transform => [PHASE_REQUEST_HEADERS, PHASE_RESPONSE_HEADERS, PHASE_URL_REWRITE]
  | cache => [PHASE_CACHE]

/-- Its limit on `plan`. -/
def limit (quota : QuotaKind) (plan : ZonePlan) : ℕ :=
  match quota with
  | custom => plan.limits.custom
  | rateLimit => plan.limits.rateLimit
  | transform => plan.limits.transform
  | cache => plan.limits.cache

end QuotaKind

/-- Which rule a rule is. -/
inductive RuleKind where
  | block
  | challenge
  /-- A shared rate limit. -/
  | rateLimit
  | requestHeaders
  | responseHeaders
  | bypassCache
  deriving DecidableEq, Repr

namespace RuleKind

/-- Every kind with one rule per hostname (rate limits are shared). -/
def perHostname : List RuleKind :=
  [block, challenge, requestHeaders, responseHeaders, bypassCache]

def slug : RuleKind → String
  | block => "block"
  | challenge => "challenge"
  | rateLimit => "ratelimit"
  | requestHeaders => "request-headers"
  | responseHeaders => "response-headers"
  | bypassCache => "bypass-cache"

/-- The phase its rules live in. -/
def phase : RuleKind → String
  | block | challenge => PHASE_CUSTOM
  | rateLimit => PHASE_RATE_LIMIT
  | requestHeaders => PHASE_REQUEST_HEADERS
  | responseHeaders => PHASE_RESPONSE_HEADERS
  | bypassCache => PHASE_CACHE

/-- The quota its rules count towards. -/
def quota : RuleKind → QuotaKind
  | block | challenge => .custom
  | rateLimit => .rateLimit
  | requestHeaders | responseHeaders => .transform
  | bypassCache => .cache

end RuleKind

/-! ## Rules -/

/-- The marker of one of `hostname`'s rules. -/
def marker [External] (hostname : Hostname) (kind : RuleKind) : String :=
  RULE_MARKER ++ routeId hostname none ++ ":" ++ kind.slug

/-- The marker of the shared rate limit with `spec`. -/
def rateLimitMarker (spec : RateLimitSpec) : String :=
  RATE_LIMIT_MARKER ++ toString spec.requests ++ "-" ++ toString spec.period ++ "-" ++
    spec.action.cloudflare

/-- Automated clients that aren't verified bots. -/
def BOTS_EXPRESSION : String :=
  "(not cf.client.bot and (http.user_agent eq \"\" or lower(http.user_agent) contains " ++
  "\"curl\" or lower(http.user_agent) contains \"wget\" or lower(http.user_agent) contains " ++
  "\"python-requests\" or lower(http.user_agent) contains \"python-urllib\" or " ++
  "lower(http.user_agent) contains \"aiohttp\" or lower(http.user_agent) contains \"httpx\" " ++
  "or lower(http.user_agent) contains \"go-http-client\" or lower(http.user_agent) contains " ++
  "\"okhttp\" or lower(http.user_agent) contains \"java/\" or lower(http.user_agent) " ++
  "contains \"libwww-perl\" or lower(http.user_agent) contains \"node-fetch\" or " ++
  "lower(http.user_agent) contains \"axios\" or lower(http.user_agent) contains \"scrapy\" " ++
  "or lower(http.user_agent) contains \"headlesschrome\" or lower(http.user_agent) contains " ++
  "\"phantomjs\"))"

/-- Cloudflare's verified AI crawlers. -/
def AI_EXPRESSION : String := "(cf.verified_bot_category eq \"AI Crawler\")"

def hostExpression (hostname : Hostname) : String :=
  "(http.host eq \"" ++ hostname.asStr ++ "\")"

/-- The rate limit expression for `hostnames`. -/
def hostsExpression (hostnames : SortedSet String) : String :=
  let list := hostnames.toList.map fun h => "\"" ++ h ++ "\""
  "(http.host in \x7b" ++ String.intercalate " " list ++ "\x7d)"

/-- The hostnames of a rate limit expression. -/
def hostsOf (expression : String) : SortedSet String :=
  match (splitOnce '\x7b' expression).bind fun (_, rest) => splitOnce '\x7d' rest with
  | none => .empty
  | some (inner, _) =>
      .ofList ((((inner.toList.splitOnP isWhitespace).filter (· ≠ [])).map fun h =>
        toAsciiLowercase (trimMatches (· == '"') (String.ofList h))).filter (· ≠ ""))

/-- One header change as Cloudflare takes it. -/
def headerOperation (rule : HeaderRule) : Json :=
  .obj (("operation", .str rule.op.cloudflare) ::
    (rule.value.map fun value => ("value", Json.str value)).toList)

def headersParameters (list : List HeaderRule) : Json :=
  .obj [("headers", .obj (Json.fieldsOf (list.map fun rule =>
    (rule.name, headerOperation rule))))]

/-- The header change a member of the headers object says. -/
def headerOf : String × Json → Option HeaderRule
  | (name, op) => do
      let operation ← (op.get? "operation").bind Json.asStr
      let kind ← EdgeHeaderOp.fromCloudflare operation
      return { name, op := kind, value := (op.get? "value").bind Json.asStr }

def headersOf (parameters : Option Json) : List HeaderRule :=
  match (parameters.bind (Json.get? "headers")).bind Json.asObject with
  | none => []
  | some headers => sortHeaders (headers.filterMap headerOf)

/-- A rule scoped to `hostname`. -/
def hostnameRule [External] (hostname : Hostname) (kind : RuleKind) (action : String)
    (condition : Option String) (params : Option Json) : NewRule where
  action := action
  expression := match condition with
    | none => hostExpression hostname
    | some c => hostExpression hostname ++ " and " ++ c
  description := marker hostname kind
  enabled := true
  actionParameters := params
  ratelimit := none

/-- What the block rule matches besides the hostname; nothing when nothing is blocked. -/
def blockCondition (protection : EdgeProtection) : Option String :=
  match protection.bots == .block, protection.aiCrawlers with
  | true, true => some ("(" ++ BOTS_EXPRESSION ++ " or " ++ AI_EXPRESSION ++ ")")
  | true, false => some BOTS_EXPRESSION
  | false, true => some AI_EXPRESSION
  | false, false => none

/-- The rule for a list of header changes, unless it is empty. -/
def headersRule [External] (hostname : Hostname) (kind : RuleKind) (list : List HeaderRule) :
    List (RuleKind × NewRule) :=
  if list = [] then []
  else [(kind, hostnameRule hostname kind "rewrite" none (some (headersParameters list)))]

/-- The per-hostname rules `protection` needs (the rate limit is shared). -/
def hostnameRules [External] (hostname : Hostname) (protection : EdgeProtection) :
    List (RuleKind × NewRule) :=
  (match blockCondition protection with
    | some condition => [(.block, hostnameRule hostname .block "block" (some condition) none)]
    | none => []) ++
  (if protection.bots = .challenge then
    [(.challenge, hostnameRule hostname .challenge "managed_challenge" (some BOTS_EXPRESSION)
      none)]
   else []) ++
  headersRule hostname .requestHeaders protection.requestHeaders ++
  headersRule hostname .responseHeaders protection.responseHeaders ++
  (if protection.bypassCache then
    [(.bypassCache, hostnameRule hostname .bypassCache "set_cache_settings" none
      (some (.obj [("cache", .bool false)])))]
   else [])

/-- The shared rate limit rule for `hostnames` with `spec`. -/
def rateLimitRule (spec : RateLimitSpec) (hostnames : SortedSet String) : NewRule where
  action := spec.action.cloudflare
  expression := hostsExpression hostnames
  description := rateLimitMarker spec
  enabled := true
  actionParameters := none
  ratelimit := some
    { characteristics := ["cf.colo.id", "ip.src"]
      period := spec.period
      requestsPerPeriod := spec.requests
      mitigationTimeout := spec.period }

/-- The limit a rate limit rule enforces, if it carries the marker. -/
def rateLimitSpec (rule : NewRule) : Option RateLimitSpec :=
  if StartsWith RATE_LIMIT_MARKER rule.description then do
    let limit ← rule.ratelimit
    let action ← LimitAction.fromCloudflare rule.action
    return { requests := limit.requestsPerPeriod, period := limit.period, action }
  else none

/-! ## What was observed -/

/-- A rule in a phase, and whether it is owned. -/
structure ObservedRule where
  id : String
  rule : NewRule
  /-- Marker or ownership index. -/
  owned : Bool
  deriving DecidableEq

/-- A phase's entry point ruleset as observed. -/
structure ObservedRuleset where
  phase : String
  /-- The entry point's id (`none`: the zone has none yet). -/
  id : Option String
  /-- Its rules, in order. -/
  rules : List ObservedRule
  deriving DecidableEq

/-- A zone's edge rules as observed for a change. -/
structure EdgeState where
  zoneId : String
  zone : String
  plan : ZonePlan
  /-- Every phase written to or counted. -/
  rulesets : List ObservedRuleset
  /-- Whether Cache Rules can be read. -/
  cacheReadable : Bool
  deriving DecidableEq

/-- A shared rate limit: position, rule, limit and hostnames. -/
structure RateLimitGroup where
  position : ℕ
  rule : ObservedRule
  spec : RateLimitSpec
  hosts : SortedSet String
  deriving DecidableEq

/-- An owned rate limit rule as a group. -/
def rateLimitGroup (rule : ObservedRule) (position : ℕ) : Option RateLimitGroup :=
  if rule.owned then
    (rateLimitSpec rule.rule).map fun spec => ⟨position, rule, spec, hostsOf rule.rule.expression⟩
  else none

namespace EdgeState

/-- A phase's ruleset. -/
def ruleset (state : EdgeState) (phase : String) : Option ObservedRuleset :=
  state.rulesets.find? fun r => r.phase == phase

/-- A phase's rules. -/
def rulesIn (state : EdgeState) (phase : String) : List ObservedRule :=
  ((state.ruleset phase).map ObservedRuleset.rules).getD []

/-- Rules counted towards `quota` now. -/
def used (state : EdgeState) (quota : QuotaKind) : ℕ :=
  (quota.phases.map fun phase => (state.rulesIn phase).length).sum

/-- The owned rule with `description`, and its 1-based position. -/
def ownedRule (state : EdgeState) (phase description : String) : Option (ObservedRule × ℕ) :=
  ((state.rulesIn phase).zipIdx 1).find? fun (r, _) =>
    r.owned && r.rule.description == description

/-- The shared rate limits. -/
def rateLimits (state : EdgeState) : List RateLimitGroup :=
  ((state.rulesIn PHASE_RATE_LIMIT).zipIdx 1).filterMap fun (r, i) => rateLimitGroup r i

/-- The headers the owned rule of `kind` changes. -/
def headersFor [External] (state : EdgeState) (hostname : Hostname) (kind : RuleKind) :
    List HeaderRule :=
  match state.ownedRule kind.phase (marker hostname kind) with
  | some (rule, _) => headersOf rule.rule.actionParameters
  | none => []

/-- What is enforced for `hostname` now, read back from the rules. -/
def protectionOf [External] (state : EdgeState) (hostname : Hostname) : EdgeProtection :=
  let block := state.ownedRule PHASE_CUSTOM (marker hostname .block)
  let blocksBots := block.any fun (rule, _) => decide (HasText BOTS_EXPRESSION rule.rule.expression)
  { bots :=
      if blocksBots then .block
      else if (state.ownedRule PHASE_CUSTOM (marker hostname .challenge)).isSome then .challenge
      else .off
    aiCrawlers := block.any fun (rule, _) =>
      decide (HasText AI_EXPRESSION rule.rule.expression)
    rateLimit :=
      ((state.rateLimits.find? fun g => hostname.asStr ∈ g.hosts)).map RateLimitGroup.spec
    requestHeaders := state.headersFor hostname .requestHeaders
    responseHeaders := state.headersFor hostname .responseHeaders
    bypassCache :=
      (state.ownedRule PHASE_CACHE (marker hostname .bypassCache)).isSome }

end EdgeState

/-! ## Service tokens -/

/-- A service token as observed. -/
structure ObservedServiceToken where
  id : String
  name : String
  clientId : String
  expiresAt : Option String
  /-- In the ownership index. -/
  owned : Bool
  /-- The hostname it was made for. -/
  madeFor : Option String
  deriving DecidableEq

/-- Service tokens an account may have. -/
def MAX_SERVICE_TOKENS : ℕ := 50

/-- The name given to a service token. -/
def serviceTokenName (hostname : Hostname) (label : String) : String :=
  TEITUNNEL_PREFIX ++ hostname.asStr ++ " · " ++ trim label

end Teitunnel
