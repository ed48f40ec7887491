import Teitunnel.Types

/-!
# The fingerprint of a snapshot

The JSON form of a snapshot, as the derive attributes write it: the members in the order of the
fields, an empty optional member left out where the attribute says so, and without the owner
and the time of observation.  The fingerprint is a hash of its text.
-/

namespace Teitunnel

/-- An optional value, `null` without one. -/
def optJson {α : Type} (f : α → Json) : Option α → Json
  | some a => f a
  | none => .null

/-- An array. -/
def listJson {α : Type} (f : α → Json) (l : List α) : Json :=
  .arr (l.map f)

/-- A member left out without a value. -/
def optField {α : Type} (key : String) (f : α → Json) (a : Option α) : List (String × Json) :=
  (a.map fun a => (key, f a)).toList

/-- A member left out when its list is empty. -/
def listField {α : Type} (key : String) (f : α → Json) (l : List α) : List (String × Json) :=
  if l.isEmpty then [] else [(key, listJson f l)]

/-- A member left out when its text is empty. -/
def strField (key text : String) : List (String × Json) :=
  if text = "" then [] else [(key, .str text)]

def natJson (n : ℕ) : Json := .num n

def strsJson (l : List String) : Json := listJson .str l

def headerJson (h : HeaderMap) : Json :=
  .obj (h.map fun (name, values) => (name, strsJson values))

/-! ## Tunnels and DNS -/

def ZoneRef.toJson (z : ZoneRef) : Json :=
  .obj [("id", .str z.id), ("name", .str z.name)]

def IngressRule.toJson (r : IngressRule) : Json :=
  .obj (optField "hostname" .str r.hostname ++ optField "path" .str r.path ++
    [("service", .str r.service)] ++
    (if r.originRequest.isEmpty then [] else [("originRequest", .obj r.originRequest)]) ++
    r.extra)

def ObservedTunnel.toJson (t : ObservedTunnel) : Json :=
  .obj [("id", .str t.id), ("name", .str t.name), ("config_version", natJson t.configVersion),
    ("ingress", listJson IngressRule.toJson t.ingress)]

def RouteElsewhere.toJson (r : RouteElsewhere) : Json :=
  .obj [("tunnel", .str r.tunnel), ("hostname", .str r.hostname), ("path", optJson .str r.path)]

def DnsRecord.toJson (r : DnsRecord) : Json :=
  .obj [("id", .str r.id), ("name", .str r.name), ("type", .str r.kind),
    ("content", .str r.content), ("proxied", .bool r.proxied),
    ("comment", optJson .str r.comment), ("ttl", natJson r.ttl)]

def ObservedRecord.toJson (r : ObservedRecord) : Json :=
  .obj [("zone_id", .str r.zoneId), ("record", r.record.toJson), ("owned", .bool r.owned)]

/-! ## Access -/

def SignIn.toJson : SignIn → Json
  | any => .str "any"
  | github => .str "github"
  | google => .str "google"

def LoginMethod.toJson (m : LoginMethod) : Json :=
  .obj [("id", .str m.id), ("kind", .str m.kind)]

def AccessRule.toJson (r : AccessRule) : Json :=
  .obj [("emails", strsJson r.emails), ("emailDomains", strsJson r.emailDomains),
    ("github", strsJson r.github), ("signIn", r.signIn.toJson), ("bypass", strsJson r.bypass)]

def AccessPolicy.toJson (p : AccessPolicy) : Json :=
  .obj (optField "id" .str p.id ++
    [("name", .str p.name), ("decision", .str p.decision), ("include", .arr p.incl)] ++
    optField "precedence" natJson p.precedence)

def NewAccessApp.toJson (a : NewAccessApp) : Json :=
  .obj [("name", .str a.name), ("domain", .str a.domain), ("type", .str a.kind),
    ("session_duration", .str a.sessionDuration),
    ("app_launcher_visible", .bool a.appLauncherVisible),
    ("policies", listJson AccessPolicy.toJson a.policies),
    ("allowed_idps", strsJson a.allowedIdps),
    ("auto_redirect_to_identity", .bool a.autoRedirectToIdentity)]

def ObservedAccessApp.toJson (a : ObservedAccessApp) : Json :=
  .obj [("id", .str a.id), ("domain", .str a.domain), ("owned", .bool a.owned),
    ("rule", optJson AccessRule.toJson a.rule), ("definition", a.definition.toJson)]

def AccessState.toJson (s : AccessState) : Json :=
  .obj [("organization", optJson .bool s.organization),
    ("login_methods", optJson (listJson LoginMethod.toJson) s.loginMethods),
    ("apps", listJson ObservedAccessApp.toJson s.apps)]

/-! ## Load balancing and private networks -/

def ObservedNetworkRoute.toJson (r : ObservedNetworkRoute) : Json :=
  .obj [("id", .str r.id), ("network", .str r.network), ("tunnel_id", .str r.tunnelId),
    ("tunnel_name", optJson .str r.tunnelName),
    ("virtual_network_id", optJson .str r.virtualNetworkId), ("comment", .str r.comment)]

def ObservedHostnameRoute.toJson (r : ObservedHostnameRoute) : Json :=
  .obj [("id", .str r.id), ("hostname", .str r.hostname), ("tunnel_id", .str r.tunnelId),
    ("tunnel_name", optJson .str r.tunnelName), ("comment", .str r.comment)]

def NetworkState.toJson (s : NetworkState) : Json :=
  .obj [("default_vnet", optJson .str s.defaultVnet),
    ("routes", listJson ObservedNetworkRoute.toJson s.routes),
    ("hostnames", optJson (listJson ObservedHostnameRoute.toJson) s.hostnames)]

def Monitor.toJson (m : Monitor) : Json :=
  .obj (strField "id" m.id ++
    [("type", .str m.kind), ("description", .str m.description), ("path", .str m.path),
      ("expected_codes", .str m.expectedCodes), ("follow_redirects", .bool m.followRedirects),
      ("header", headerJson m.header)])

def Origin.toJson (o : Origin) : Json :=
  .obj [("name", .str o.name), ("address", .str o.address), ("enabled", .bool o.enabled),
    ("header", headerJson o.header)]

def Pool.toJson (p : Pool) : Json :=
  .obj (strField "id" p.id ++
    [("name", .str p.name), ("description", .str p.description), ("enabled", .bool p.enabled)] ++
    optField "monitor" .str p.monitor ++ [("origins", listJson Origin.toJson p.origins)])

def LoadBalancer.toJson (b : LoadBalancer) : Json :=
  .obj (strField "id" b.id ++
    [("name", .str b.name), ("description", .str b.description),
      ("default_pools", strsJson b.defaultPools), ("fallback_pool", .str b.fallbackPool),
      ("proxied", .bool b.proxied)])

def ServingTunnel.toJson (t : ServingTunnel) : Json :=
  .obj [("id", .str t.id), ("name", .str t.name)]

def BalanceState.toJson (s : BalanceState) : Json :=
  .obj [("hostname", .str s.hostname), ("zone_id", .str s.zoneId),
    ("balancer", optJson LoadBalancer.toJson s.balancer), ("pool", optJson Pool.toJson s.pool),
    ("monitor", optJson Monitor.toJson s.monitor),
    ("serving", listJson ServingTunnel.toJson s.serving)]

/-! ## Workers -/

def WorkerDomain.toJson (d : WorkerDomain) : Json :=
  .obj [("id", .str d.id), ("hostname", .str d.hostname), ("service", .str d.service),
    ("zone_id", .str d.zoneId), ("zone_name", .str d.zoneName)]

def SiteState.toJson (s : SiteState) : Json :=
  .obj [("script", .str s.script), ("exists", .bool s.exists_),
    ("active_version", optJson .str s.activeVersion), ("workers_dev", .bool s.workersDev),
    ("subdomain", optJson .str s.subdomain), ("domains", listJson WorkerDomain.toJson s.domains),
    ("hostname_taken_by", optJson .str s.hostnameTakenBy)]

def WorkerRoute.toJson (r : WorkerRoute) : Json :=
  .obj [("id", .str r.id), ("pattern", .str r.pattern), ("script", optJson .str r.script),
    ("request_limit_fail_open", optJson .bool r.requestLimitFailOpen)]

def OfflinePage.toJson (p : OfflinePage) : Json :=
  .obj [("title", .str p.title), ("message", .str p.message),
    ("whenAppDown", .bool p.whenAppDown)]

def InboxVerify.toJson : InboxVerify → Json
  | github => .str "github"
  | stripe => .str "stripe"
  | standard => .str "standard"

def InboxSettings.toJson (s : InboxSettings) : Json :=
  .obj [("maxItems", natJson s.maxItems), ("retentionDays", natJson s.retentionDays),
    ("verify", optJson InboxVerify.toJson s.verify)]

def FrontConfig.toJson : FrontConfig → Json
  | offline page => .obj [("kind", .str "offline"), ("page", page.toJson)]
  | inbox path settings =>
      .obj [("kind", .str "inbox"), ("path", .str path), ("settings", settings.toJson)]

def ObservedFront.toJson (f : ObservedFront) : Json :=
  .obj [("config", f.config.toJson), ("script", .str f.script), ("exists", .bool f.exists_),
    ("route", optJson WorkerRoute.toJson f.route)]

def FrontState.toJson (s : FrontState) : Json :=
  .obj [("hostname", .str s.hostname), ("zone_id", .str s.zoneId),
    ("fronts", listJson ObservedFront.toJson s.fronts),
    ("foreign", listJson WorkerRoute.toJson s.foreign)]

def DatabaseState.toJson (s : DatabaseState) : Json :=
  .obj [("id", optJson .str s.id)]

/-! ## Holds and edge rules -/

def HoldKind.toJson : HoldKind → Json
  | reservation => .str "reservation"
  | route => .str "route"

def Hold.toJson (h : Hold) : Json :=
  .obj [("hostname", .str h.hostname), ("owner", optJson .str h.owner),
    ("until", optJson natJson h.untilMs), ("kind", h.kind.toJson)]

def ZonePlan.toJson : ZonePlan → Json
  | free => .str "free"
  | pro => .str "pro"
  | business => .str "business"
  | enterprise => .str "enterprise"

def RateLimit.toJson (l : RateLimit) : Json :=
  .obj [("characteristics", strsJson l.characteristics), ("period", natJson l.period),
    ("requests_per_period", natJson l.requestsPerPeriod),
    ("mitigation_timeout", natJson l.mitigationTimeout)]

def NewRule.toJson (r : NewRule) : Json :=
  .obj ([("action", .str r.action), ("expression", .str r.expression),
      ("description", .str r.description), ("enabled", .bool r.enabled)] ++
    optField "action_parameters" id r.actionParameters ++
    optField "ratelimit" RateLimit.toJson r.ratelimit)

def ObservedRule.toJson (r : ObservedRule) : Json :=
  .obj [("id", .str r.id), ("rule", r.rule.toJson), ("owned", .bool r.owned)]

def ObservedRuleset.toJson (r : ObservedRuleset) : Json :=
  .obj [("phase", .str r.phase), ("id", optJson .str r.id),
    ("rules", listJson ObservedRule.toJson r.rules)]

def EdgeState.toJson (s : EdgeState) : Json :=
  .obj [("zone_id", .str s.zoneId), ("zone", .str s.zone), ("plan", s.plan.toJson),
    ("rulesets", listJson ObservedRuleset.toJson s.rulesets),
    ("cache_readable", .bool s.cacheReadable)]

def ObservedServiceToken.toJson (t : ObservedServiceToken) : Json :=
  .obj [("id", .str t.id), ("name", .str t.name), ("client_id", .str t.clientId),
    ("expires_at", optJson .str t.expiresAt), ("owned", .bool t.owned),
    ("made_for", optJson .str t.madeFor)]

/-! ## Snapshots -/

/-- Everything a plan depends on, but for the owner and the time. -/
def Snapshot.toJson (s : Snapshot) : Json :=
  .obj ([("account_id", .str s.accountId), ("machine_name", .str s.machineName),
      ("zones", listJson ZoneRef.toJson s.zones),
      ("tunnel", optJson ObservedTunnel.toJson s.tunnel),
      ("tunnel_names", strsJson s.tunnelNames),
      ("elsewhere", listJson RouteElsewhere.toJson s.elsewhere),
      ("records", listJson ObservedRecord.toJson s.records)] ++
    optField "access" AccessState.toJson s.access ++
    optField "networks" NetworkState.toJson s.networks ++
    optField "balance" BalanceState.toJson s.balance ++
    optField "site" SiteState.toJson s.site ++
    listField "held" Hold.toJson s.held ++
    listField "edge" EdgeState.toJson s.edge ++
    optField "service_tokens" (listJson ObservedServiceToken.toJson) s.serviceTokens ++
    optField "database" DatabaseState.toJson s.database ++
    listField "front" FrontState.toJson s.front)

/-- A hash of everything a plan depends on. -/
def Snapshot.fingerprint [External] (s : Snapshot) : String :=
  (External.sha256 (External.jsonText s.toJson)).hex

end Teitunnel
