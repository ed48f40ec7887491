import Teitunnel.Edge
import Teitunnel.Ownership
import Teitunnel.Routing
import Teitunnel.Workers

/-!
# Snapshots, intents, steps and plans

What a plan is made from (`Snapshot`, a consistent read of everything it depends on, and
`Intent`, what the user asked for) and what it is made of (`Step`, `Warning`).
-/

namespace Teitunnel

open Text

/-! ## What a plan is made from -/

/-- A route as the user describes it. -/
structure RouteSpec where
  /-- Stable id, written into the DNS comment. -/
  id : String
  hostname : Hostname
  path : Option PathRule
  origin : RouteOrigin
  options : Settings
  /-- Require a login for these people. -/
  access : Option AccessRule
  deriving DecidableEq

/-- The ingress rule of a route. -/
def RouteSpec.toRule (route : RouteSpec) : IngressRule where
  hostname := some route.hostname.asStr
  path := route.path.map PathRule.asStr
  service := route.origin.asStr
  originRequest := route.options
  extra := []
  extra_fields := no_ingress_fields

/-- A zone the account can use. -/
structure ZoneRef where
  id : String
  name : String
  deriving DecidableEq

/-- The zone a hostname belongs to: the longest matching apex wins. -/
def Hostname.zoneIn (h : Hostname) (zones : List ZoneRef) : Option ZoneRef :=
  lastLongest (fun zone => zone.name.utf8ByteSize) (zones.filter fun zone => h.isInZone zone.name)

/-- The machine tunnel as observed. -/
structure ObservedTunnel where
  id : String
  name : String
  configVersion : ℕ
  /-- Current ingress rules (including the catch-all). -/
  ingress : List IngressRule
  deriving DecidableEq

/-- A route on another of this machine's tunnels. -/
structure RouteElsewhere where
  tunnel : String
  hostname : String
  path : Option String
  deriving DecidableEq

/-- A DNS record in one of the zones, with whether it is owned. -/
structure ObservedRecord where
  zoneId : String
  record : DnsRecord
  /-- Created by us (ownership comment or ownership index). -/
  owned : Bool
  deriving DecidableEq

/-- A consistent read of everything a plan depends on. -/
structure Snapshot where
  accountId : String
  /-- Name to give a new machine tunnel. -/
  machineName : String
  zones : List ZoneRef
  tunnel : Option ObservedTunnel
  /-- Names of the account's tunnels, read when a tunnel will be created. -/
  tunnelNames : List String
  /-- Routes on this machine's other tunnels. -/
  elsewhere : List RouteElsewhere
  records : List ObservedRecord
  access : Option AccessState
  networks : Option NetworkState
  balance : Option BalanceState
  site : Option SiteState
  /-- The hostnames involved that someone else holds. -/
  held : List Hold
  /-- Who this is, written into DNS comments. -/
  owner : String
  /-- When it was observed (milliseconds since the epoch). -/
  now : ℕ
  /-- Zones' edge rules, one entry per zone. -/
  edge : List EdgeState
  serviceTokens : Option (List ObservedServiceToken)
  database : Option DatabaseState
  /-- Worker routes on hostnames, one entry per hostname. -/
  front : List FrontState
  deriving DecidableEq

namespace Snapshot

/-- The edge rules observed for a zone. -/
def edgeIn (s : Snapshot) (zoneId : String) : Option EdgeState :=
  s.edge.find? fun e => e.zoneId == zoneId

/-- The Workers observed in front of `hostname`. -/
def frontOf (s : Snapshot) (hostname : String) : Option FrontState :=
  s.front.find? fun f => SameText f.hostname hostname

/-- The records at `name`. -/
def recordsNamed (s : Snapshot) (name : String) : List ObservedRecord :=
  s.records.filter fun r => SameText r.record.name name

/-- The tunnel's rules with a hostname. -/
def routes (s : Snapshot) : List IngressRule :=
  ((s.tunnel.map ObservedTunnel.ingress).getD []).filter fun rule => rule.hostname.isSome

end Snapshot

/-- What the user asked for. -/
inductive Intent where
  | addRoute (route : RouteSpec)
  /-- Change a route (origin, options, path, or hostname: a rename). -/
  | updateRoute (hostname : Hostname) (path : Option PathRule) (route : RouteSpec)
  | removeRoute (hostname : Hostname) (path : Option PathRule)
  /-- Remove every route and delete the tunnel. -/
  | removeTunnel
  | createTunnel (name : String)
  | balanceRoute (hostname : Hostname)
  | unbalanceRoute (hostname : Hostname)
  /-- Add several routes at once; those that exist unchanged are skipped. -/
  | importRoutes (routes : List RouteSpec)
  | deleteRecord (zoneId : String) (hostname : Hostname) (recordId : String)
  | addNetwork (network : PrivateNetwork)
  | removeNetwork (network : PrivateNetwork)
  | addPrivateHostname (hostname : PrivateHostname)
  | removePrivateHostname (hostname : PrivateHostname)
  /-- Remove a login whose route is gone. -/
  | removeLogin (domain : String)
  /-- Remove what is attached to a hostname that no longer has a route. -/
  | cleanUpHostname (hostname : Hostname)
  /-- Put back the routes last written, undoing an edit made elsewhere. -/
  | restoreConfig (ingress : List IngressRule)
  | publishSnapshot (site : SiteSpec) (settings : SiteSettings) (content : SiteContent)
  | updateSnapshot (site : SiteSpec) (settings : SiteSettings) (content : SiteContent)
      (previous : List SiteFile)
  | rollbackSnapshot (site : SiteSpec) (versionId : String) (number : ℕ)
  | deleteSnapshot (site : SiteSpec)
  /-- Reserve a hostname until a time (`none`: without an end). -/
  | reserve (hostname : Hostname) (untilMs : Option ℕ)
  | release (hostname : Hostname)
  | protectHostname (hostname : Hostname) (protection : EdgeProtection)
  | createServiceToken (hostname : Hostname) (label : String)
  | revokeServiceToken (hostname : Hostname) (tokenId : String)
  | rotateServiceToken (hostname : Hostname) (tokenId : String)
  | setOfflinePage (hostname : Hostname) (page : Option OfflinePage)
  | setInbox (hostname : Hostname) (path : String) (inbox : Option InboxSettings)
      (secret : Option String)

/-! ## What a plan is made of -/

/-- Which tunnel a step refers to. -/
inductive TunnelRef where
  | existing (id : String)
  /-- The tunnel created earlier in the same plan. -/
  | created
  deriving DecidableEq

/-- Which monitor or pool a step refers to. -/
inductive LbRef where
  | existing (id : String)
  | created
  deriving DecidableEq

/-- Which service token a step refers to. -/
inductive TokenRef where
  | existing (id : String)
  | created
  deriving DecidableEq

/-- One tunnel as a pool endpoint. -/
structure PoolEndpoint where
  tunnel : TunnelRef
  name : String
  deriving DecidableEq

/-- One change, in execution order. -/
inductive Step where
  | createTunnel (name : String)
  /-- Replace the tunnel's ingress rules; `previous` is for rollback. -/
  | putConfig (tunnel : TunnelRef) (ingress : List IngressRule) (expectedVersion : Option ℕ)
      (previous : List IngressRule)
  | createRecord (zoneId hostname : String) (tunnel : TunnelRef) (routeId : String)
  | updateRecord (zoneId recordId hostname : String) (tunnel : TunnelRef) (routeId : String)
      (previous : DnsRecord)
  | deleteRecord (zoneId : String) (record : DnsRecord)
  | stopConnector (tunnelId : String)
  | deleteTunnel (tunnelId : String)
  /-- Add One-time PIN as a login method (the account has none). -/
  | addLoginMethod
  | createAccessApp (app : NewAccessApp)
  | updateAccessApp (id : String) (app previous : NewAccessApp)
  | deleteAccessApp (id : String) (previous : NewAccessApp)
  | createNetworkRoute (network : PrivateNetwork) (tunnel : TunnelRef)
  | deleteNetworkRoute (route : ObservedNetworkRoute)
  | createHostnameRoute (hostname : PrivateHostname) (tunnel : TunnelRef)
  | deleteHostnameRoute (route : ObservedHostnameRoute)
  | createLbMonitor (hostname : String)
  | createLbPool (hostname : String) (monitor : LbRef) (endpoints : List PoolEndpoint)
  | updateLbPool (hostname id : String) (monitor : LbRef) (endpoints : List PoolEndpoint)
      (previous : Pool)
  | createLoadBalancer (zoneId hostname : String) (pool : LbRef)
  | deleteLoadBalancer (zoneId : String) (balancer : LoadBalancer)
  | deleteLbPool (pool : Pool)
  | deleteLbMonitor (monitor : Monitor)
  /-- Probe the hostname end to end. -/
  | verify (hostname : String)
  | uploadSnapshotFiles (script : String) (content : SiteContent)
      (changedFiles changedBytes : ℕ)
  | createSnapshotWorker (snapshot script : String) (settings : SiteSettings)
  | publishSnapshotVersion (snapshot script : String) (settings : SiteSettings)
      (previous : Option String)
  | rollBackSnapshot (snapshot script versionId : String) (number : ℕ)
      (previous : Option String)
  | enableWorkersDev (script address : String)
  | disableWorkersDev (script address : String)
  | attachSnapshotDomain (zoneId hostname script : String)
  | detachSnapshotDomain (domain : WorkerDomain)
  | deleteSnapshotWorker (snapshot script : String)
  /-- Hold a hostname nobody routes with a placeholder record. -/
  | createReservation (zoneId hostname : String) (untilMs : Option ℕ)
  /-- Change the lease a record carries (only its comment changes). -/
  | setLease (zoneId : String) (record : DnsRecord) (lease : Bool) (untilMs : Option ℕ)
  | createEdgeRule (zoneId phase : String) (rulesetId : Option String) (kind : RuleKind)
      (hostnames : List String) (rule : NewRule)
  | updateEdgeRule (zoneId rulesetId ruleId : String) (kind : RuleKind)
      (hostnames : List String) (rule previous : NewRule)
  | deleteEdgeRule (zoneId phase rulesetId ruleId : String) (kind : RuleKind)
      (hostnames : List String) (previous : NewRule) (position : ℕ)
  | createServiceToken (hostname name : String)
  /-- Let a service token through a login: of the application given, or a new one. -/
  | allowServiceToken (domain : String) (app : Option (String × NewAccessApp))
      (token : TokenRef)
  | deleteServiceToken (token : ObservedServiceToken)
  | rotateServiceToken (token : ObservedServiceToken)
  | createDatabase (name : String)
  | putFrontWorker (hostname zoneId script : String) (config : FrontConfig)
      (previous : Option FrontConfig) (database : Option DatabaseRef) (secret : Option String)
  | createWorkerRoute (hostname zoneId pattern script : String) (kind : FrontKind)
      (path : String)
  | deleteWorkerRoute (hostname zoneId : String) (route : WorkerRoute) (kind : FrontKind)
      (path : String)
  | deleteFrontWorker (hostname zoneId script : String) (previous : FrontConfig)
      (database : Option String)
  deriving DecidableEq

/-- Whether this step changes something at Cloudflare. -/
def Step.isMutation : Step → Bool
  | verify _ | stopConnector _ => false
  | _ => true

/-- Something the user should know before applying. -/
inductive Warning where
  | singleEndpoint (hostname : String)
  | replacesForeignRecord (hostname kind content : String)
  | deletesForeignRecord (hostname kind content : String)
  | keepsForeignRecord (hostname : String)
  | tunnelEmpty
  | remoteOrigin (origin : String)
  | publicNetwork (network : String)
  | publicHostname (hostname : String)
  | overlapsNetwork (network other tunnel : String)
  /-- Someone else holds the hostname: going ahead takes it over. -/
  | heldBy (hostname : String) (owner : Option String) (untilMs : Option ℕ) (kind : HoldKind)
  /-- How much of a plan quota the zone uses after the change. -/
  | edgeQuota (quota : QuotaKind) (zone : String) (used limit : ℕ)
  | machineOnly (domain : String)
  | workerRequests (pattern : String)
  deriving DecidableEq

/-- Why no plan could be made. -/
inductive PlanError where
  | noZone (hostname : String)
  | routeExists (hostname : String)
  | noSuchRoute (hostname : String)
  | noTunnel
  | noSuchRecord (hostname : String)
  | zeroTrustNotSetUp
  | noSuchLogin (domain : String)
  | accessAppExists (domain : String)
  | accessDomain (error : AccessDomainError)
  | networkRouted (network tunnel : String)
  | noSuchNetwork (network : String)
  | privateHostnameRouted (hostname tunnel : String)
  | noSuchPrivateHostname (hostname : String)
  | routedElsewhere (hostname tunnel : String)
  | invalidTunnelName
  | tunnelNameTaken (name : String)
  | balancerExists (hostname : String)
  | notBalanced (hostname : String)
  | snapshotExists (name : String)
  | noSuchSnapshot (name : String)
  | hostnameRouted (hostname : String)
  | hostnameServed (hostname worker : String)
  | noWorkersSubdomain
  | snapshotLoginNeedsDomain
  | hostnameInUse (hostname : String)
  | notReserved (hostname : String)
  | edgeRateLimitNeedsPro (zone : String)
  | noLoginMethod (signIn : SignIn)
  | edgeRateLimitPeriod (zone : String) (longest : ℕ)
  | edgeQuotaFull (quota : QuotaKind) (zone : String) (limit : ℕ)
  | edgeRateLimitConflict (zone hostnames : String) (requests period : ℕ)
  | invalidTokenLabel
  | serviceTokenLimit (limit : ℕ)
  | serviceTokenExists (label : String)
  | noSuchServiceToken (id : String)
  | serviceTokenNotOwned (name : String)
  | frontNeedsRoute (hostname : String)
  | workerRouteTaken (pattern worker : String)
  | noFront (target : String)
  | front (error : FrontError)
  | inboxNeedsSecret
  deriving DecidableEq

/-- A reviewed, ordered set of steps. -/
structure Plan where
  /-- Steps in execution order.  Empty means "nothing to change". -/
  steps : List Step
  warnings : List Warning
  /-- Must the user confirm? -/
  requiresConfirmation : Bool
  /-- Fingerprint of the snapshot the plan was made against. -/
  fingerprint : String
  /-- The machine tunnel's name (existing, or the one it will be created with). -/
  tunnelName : String
  deriving DecidableEq

/-- Whether there is nothing to do (ignoring verification). -/
def Plan.isEmpty (plan : Plan) : Bool :=
  plan.steps.all fun s => !s.isMutation

end Teitunnel
