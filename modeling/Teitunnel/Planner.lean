import Teitunnel.Planner.Edge
import Teitunnel.Planner.Sites

/-!
# The planner

`plan intent snapshot`: the steps that make Cloudflare what the user asked for, in the order
they run, or the reason there is no such plan.

- add: create tunnel, config, DNS, verify;
- remove: config, DNS (only owned records), login, tunnel;
- rename: config (swap the rule), new DNS, delete the old owned record;
- private network or hostname: create tunnel, route the range or hostname.

A login goes up before the route goes live and comes down after it is gone.
-/

namespace Teitunnel

open Text Except

/-- Removes `hostname`'s front Workers and edge rules (those observed). -/
def releaseWorkersAndRules [External] (s : Snapshot) (b : Builder) (hostname : Hostname) :
    Except PlanError Builder :=
  let b := removeAllFronts s b hostname.asStr
  let observed := (hostname.zoneIn s.zones).any fun zone => (s.edgeIn zone.id).isSome
  if observed then protectEdge s b hostname {} else .ok b

/-- The service tokens made for `hostname`. -/
def Snapshot.tokensMadeFor (s : Snapshot) (hostname : Hostname) : List ObservedServiceToken :=
  s.tokens.filter fun t => t.owned && t.madeFor == some hostname.asStr

/-- Removes what is attached to `hostname` once no route uses it: its front Workers, edge rules
and service tokens (after its login, which may name them).  Logins go per route. -/
def releaseHostname [External] (s : Snapshot) (b : Builder) (hostname : Hostname) :
    Except PlanError Builder := do
  let b ← releaseWorkersAndRules s b hostname
  return b.extend ((s.tokensMadeFor hostname).map .deleteServiceToken)

/-- The Access domain of a route. -/
def routeDomain (route : RouteSpec) : Except PlanError String :=
  (accessDomain route.hostname route.path).mapError .accessDomain

/-- Whether some rule is the route of a hostname and path. -/
def hasRoute (rules : List IngressRule) (hostname : Hostname) (path : Option PathRule) : Bool :=
  rules.any fun r => decide (SameRoute r hostname path)

/-- Whether some rule has the hostname. -/
def routesHostname (rules : List IngressRule) (hostname : Hostname) : Bool :=
  rules.any fun r => r.hostname == some hostname.asStr

/-- Whether a rule already does what the route asks for. -/
def SameService (rule : IngressRule) (route : RouteSpec) : Prop :=
  rule.service = route.origin.asStr ∧ rule.originRequest = route.options

instance (rule : IngressRule) (route : RouteSpec) : Decidable (SameService rule route) :=
  inferInstanceAs (Decidable (_ ∧ _))

/-- The machine tunnel, which must exist. -/
def Snapshot.theTunnel (s : Snapshot) : Except PlanError ObservedTunnel :=
  match s.tunnel with
  | some tunnel => .ok tunnel
  | none => .error .noTunnel

/-- The login a route asks for, if it asks for one.  Returns its domain. -/
def protectRoute (s : Snapshot) (b : Builder) (route : RouteSpec) :
    Except PlanError (Option String × Builder) :=
  match route.access with
  | none => .ok (none, b)
  | some rule => do
      let domain ← routeDomain route
      let b ← b.protect s domain rule
      return (some domain, b)

section routes

variable (s : Snapshot) (b : Builder)

/-- Adds a route. -/
def planAddRoute (route : RouteSpec) : Except PlanError Builder := do
  let _ ← s.zoneId route.hostname
  s.notElsewhere route.hostname route.path
  match s.routes.find? fun r => SameRoute r route.hostname route.path with
  | some existing =>
      refuseIf (¬ SameService existing route) (.routeExists route.hostname.asStr)
      -- already configured; only DNS or the login may be missing
      let (tunnel, b) := b.ensureTunnel s
      let (_, b) ← protectRoute s b route
      let b ← b.serve s route.hostname tunnel route.id
      return b.verifyRoute route
  | none =>
      let b := b.remoteOriginWarning route
      let (tunnel, b) := b.ensureTunnel s
      let (_, b) ← protectRoute s b route
      let b := b.putConfig s tunnel (s.routes ++ [route.toRule])
      let b ← b.serve s route.hostname tunnel route.id
      return b.verifyRoute route

/-- The rules with the route's own rule in place of the edited one. -/
def replaceRoute (rules : List IngressRule) (hostname : Hostname) (path : Option PathRule)
    (route : RouteSpec) : List IngressRule :=
  rules.map fun r => if SameRoute r hostname path then route.toRule else r

/-- Takes the login down where the route was, when the route no longer has it there. -/
def dropOldLogin (hostname : Hostname) (path : Option PathRule) (route : RouteSpec)
    (newDomain : Option String) : Builder :=
  match accessDomain hostname path with
  | .error _ => b
  | .ok old =>
      if newDomain = some old then b
      else if hostname ≠ route.hostname ∨ path ≠ route.path then b.unprotect s old
      else b.dropLogin s old

/-- A route that moves must not be routed by another tunnel where it goes. -/
def checkMove (hostname : Hostname) (path : Option PathRule) (route : RouteSpec) :
    Except PlanError Unit :=
  if hostname ≠ route.hostname ∨ path ≠ route.path then
    s.notElsewhere route.hostname route.path
  else .ok ()

/-- Releases the DNS record of a renamed route, unless another rule uses its old name. -/
def releaseOldName (hostname : Hostname) (path : Option PathRule) (route : RouteSpec)
    (tunnelId : String) : Builder :=
  let othersLeft := s.routes.any fun r =>
    r.hostname == some hostname.asStr && !decide (SameRoute r hostname path)
  if hostname ≠ route.hostname ∧ othersLeft = false then b.releaseDns s hostname.asStr tunnelId
  else b

/-- Changes a route (origin, options, path, or hostname). -/
def planUpdateRoute (hostname : Hostname) (path : Option PathRule) (route : RouteSpec) :
    Except PlanError Builder := do
  let t ← s.theTunnel
  refuseIf (hasRoute s.routes hostname path = false) (.noSuchRoute hostname.asStr)
  let _ ← s.zoneId route.hostname
  checkMove s hostname path route
  refuseIf (hostname ≠ route.hostname ∧ hasRoute s.routes route.hostname route.path)
    (.routeExists route.hostname.asStr)
  let b := b.remoteOriginWarning route
  let (newDomain, b) ← protectRoute s b route
  let tunnel := TunnelRef.existing t.id
  let b := b.putConfig s tunnel (replaceRoute s.routes hostname path route)
  let b ← b.ensureDns s route.hostname tunnel route.id
  let b := releaseOldName s b hostname path route t.id
  let b := dropOldLogin s b hostname path route newDomain
  return b.verifyRoute route

/-- Leaves a balanced hostname: out of its pool, or, as the last tunnel serving it, the load
balancing goes too.  Returns whether other computers still serve it. -/
def leaveBalanced (hostname : Hostname) : Bool × Builder :=
  if s.balanced then
    let endpoints := s.endpoints none
    if endpoints = [] then (false, b.unbalance s)
    else (true, (b.syncPool s hostname.asStr endpoints).2)
  else (false, b)

/-- Takes the login of a removed route down. -/
def unprotectRoute (hostname : Hostname) (path : Option PathRule) : Builder :=
  match accessDomain hostname path with
  | .ok domain => b.unprotect s domain
  | .error _ => b

/-- The tunnel's rules but for one route's. -/
def routesWithout (hostname : Hostname) (path : Option PathRule) : List IngressRule :=
  s.routes.filter fun r => ¬ SameRoute r hostname path

/-- Leaves the tunnel with these rules only. -/
def removeRule (tunnelId : String) (kept : List IngressRule) : Builder :=
  (if kept = [] then b.warn .tunnelEmpty else b).putConfig s (.existing tunnelId) kept

/-- Releases what makes a hostname reach this tunnel, unless a rule still uses it.  Returns
whether other computers still serve it. -/
def leaveHostname (hostname : Hostname) (tunnelId : String) (stillUsed : Bool) :
    Bool × Builder :=
  if stillUsed then (false, b)
  else leaveBalanced s (b.releaseDns s hostname.asStr tunnelId) hostname

/-- Removes a route. -/
def planRemoveRoute [External] (hostname : Hostname) (path : Option PathRule) :
    Except PlanError Builder := do
  let t ← s.theTunnel
  refuseIf (hasRoute s.routes hostname path = false) (.noSuchRoute hostname.asStr)
  let kept := routesWithout s hostname path
  let stillUsed := routesHostname kept hostname
  let b := removeRule s b t.id kept
  let (servedElsewhere, b) := leaveHostname s b hostname t.id stillUsed
  let b := unprotectRoute s b hostname path
  if stillUsed ∨ servedElsewhere then return b else releaseHostname s b hostname

/-- The rules with the imported routes added (those that exist unchanged are skipped). -/
def importRules :
    List RouteSpec → List IngressRule → Builder → Except PlanError (List IngressRule × Builder)
  | [], desired, b => .ok (desired, b)
  | route :: rest, desired, b => do
      let _ ← s.zoneId route.hostname
      s.notElsewhere route.hostname route.path
      match desired.find? fun r => SameRoute r route.hostname route.path with
      | some existing =>
          refuseIf (¬ SameService existing route) (.routeExists route.hostname.asStr)
          importRules rest desired b
      | none =>
          importRules rest (desired ++ [route.toRule]) (b.remoteOriginWarning route)

/-- The first route of each hostname. -/
def firstOfEach : List String → List RouteSpec → List RouteSpec
  | _, [] => []
  | seen, route :: rest =>
      if route.hostname.asStr ∈ seen then firstOfEach seen rest
      else route :: firstOfEach (route.hostname.asStr :: seen) rest

/-- A DNS record for each route. -/
def ensureEachDns (tunnel : TunnelRef) : List RouteSpec → Builder → Except PlanError Builder
  | [], b => .ok b
  | route :: rest, b => do
      let b ← b.ensureDns s route.hostname tunnel route.id
      ensureEachDns tunnel rest b

/-- Adds several routes at once. -/
def planImportRoutes (routes : List RouteSpec) : Except PlanError Builder := do
  let (desired, b) ← importRules s routes s.routes b
  let (tunnel, b) := b.ensureTunnel s
  let b := b.putConfig s tunnel desired
  -- one DNS record and one check per hostname, even with several paths
  let added := firstOfEach [] routes
  let b ← ensureEachDns s tunnel added b
  return added.foldl Builder.verifyRoute b

/-- Puts back the routes last written. -/
def planRestoreConfig (ingress : List IngressRule) : Except PlanError Builder := do
  let t ← s.theTunnel
  return b.putConfig s (.existing t.id) (ingress.filter fun r => r.hostname.isSome)

end routes

section balancing

variable (s : Snapshot) (b : Builder)

/-- Load balances a hostname across every tunnel that routes it. -/
def planBalanceRoute (hostname : Hostname) : Except PlanError Builder := do
  let zoneId ← s.zoneId hostname
  let t ← s.theTunnel
  refuseIf (routesHostname s.routes hostname = false) (.noSuchRoute hostname.asStr)
  match s.balance with
  | none => throw (.noZone hostname.asStr)
  | some state =>
      refuseIf (state.owned = false) (.balancerExists hostname.asStr)
      let endpoints := s.endpoints (some (.existing t.id))
      let b := if endpoints.length = 1 then b.warn (.singleEndpoint hostname.asStr) else b
      let (pool, b) := b.syncPool s hostname.asStr endpoints
      return match state.balancer, pool with
        | none, some pool => b.push (.createLoadBalancer zoneId hostname.asStr pool)
        | _, _ => b

/-- Stops load balancing a hostname. -/
def planUnbalanceRoute (hostname : Hostname) : Except PlanError Builder :=
  if s.balanced then .ok (b.unbalance s) else .error (.notBalanced hostname.asStr)

end balancing

section tunnels

variable (s : Snapshot) (b : Builder)

/-- Creates another tunnel for this machine. -/
def planCreateTunnel (name : String) : Except PlanError Builder :=
  let name := trim name
  if name = "" ∨ name.length > 64 ∨ name.toList.any isControl then .error .invalidTunnelName
  else if s.tunnelNames.any fun taken => decide (SameText taken name) then
    .error (.tunnelNameTaken name)
  else .ok (b.push (.createTunnel name))

/-- The hostnames the tunnel routes, in order, once each. -/
def routedHostnames (rules : List IngressRule) : List String :=
  (sorted (rules.filterMap IngressRule.hostname)).destutter (· ≠ ·)

/-- Removes the front Workers and edge rules of a hostname whose record pointed at the tunnel. -/
def releaseServed [External] (target : String) (b : Builder) (hostname : String) :
    Except PlanError Builder :=
  match Hostname.parse hostname with
  | .error _ => .ok b
  | .ok host =>
      if (s.recordsNamed hostname).any fun r =>
          r.owned && decide (SameText r.record.content target) then
        releaseWorkersAndRules s b host
      else .ok b

/-- The same for each hostname in turn. -/
def releaseEach [External] (target : String) (hostnames : List String) (b : Builder) :
    Except PlanError Builder :=
  hostnames.foldlM (releaseServed s target) b

/-- The domains of the owned applications. -/
def ownedDomains : List String :=
  (((s.access.map AccessState.apps).getD []).filter ObservedAccessApp.owned).map
    ObservedAccessApp.domain

/-- The owned tokens made for one of the hostnames. -/
def doomedTokens (hostnames : List String) : List ObservedServiceToken :=
  s.tokens.filter fun t => t.owned && t.madeFor.any hostnames.contains

/-- Removes every route and deletes the tunnel. -/
def planRemoveTunnel [External] : Except PlanError Builder := do
  let t ← s.theTunnel
  let hostnames := routedHostnames s.routes
  let b := if s.routes = [] then b else b.putConfig s (.existing t.id) []
  let b := hostnames.foldl (fun b hostname => b.releaseDns s hostname t.id) b
  let b ← releaseEach s (tunnelTarget t.id) hostnames b
  -- logins come down once no route reaches them, but before the tunnel is deleted
  let b := (ownedDomains s).foldl (fun b domain => b.unprotect s domain) b
  let b := b.extend ((doomedTokens s hostnames).map .deleteServiceToken)
  -- private network routes would point at a tunnel that no longer exists
  let networks := (s.networks.map fun n => n.ofTunnel t.id).getD []
  let b := b.extend (networks.map .deleteNetworkRoute)
  let hostnameRoutes := (s.networks.map fun n => n.hostnamesOfTunnel t.id).getD []
  let b := b.extend (hostnameRoutes.map .deleteHostnameRoute)
  return (b.push (.stopConnector t.id)).push (.deleteTunnel t.id)

end tunnels

section cleanup

variable (s : Snapshot) (b : Builder)

/-- Deletes one DNS record. -/
def planDeleteRecord (zoneId : String) (hostname : Hostname) (recordId : String) :
    Except PlanError Builder :=
  match s.records.find? fun r => r.record.id == recordId with
  | none => .error (.noSuchRecord hostname.asStr)
  | some record =>
      let b := if record.owned then b else b.confirm.warn
        (.deletesForeignRecord record.record.name record.record.kind record.record.content)
      .ok (b.push (.deleteRecord zoneId record.record))

/-- Removes what is attached to a hostname nothing can serve. -/
def planCleanUpHostname [External] (hostname : Hostname) : Except PlanError Builder :=
  if routesHostname s.routes hostname || !(s.recordsNamed hostname.asStr).isEmpty then
    .error (.hostnameRouted hostname.asStr)
  else releaseHostname s (b.unprotect s hostname.asStr) hostname

/-- The Access domain of a rule, if it has one. -/
def ruleDomain [External] (rule : IngressRule) : Option String := do
  let hostname ← rule.hostname
  let h ← (Hostname.parse hostname).toOption
  let path := rule.path.bind fun p => (PathRule.parse p).toOption
  (accessDomain h path).toOption

/-- Removes a login whose route is gone. -/
def planRemoveLogin [External] (domain : String) : Except PlanError Builder :=
  if s.routes.any fun r => (ruleDomain r).any fun d => decide (SameText d domain) then
    .error (.routeExists domain)
  else
    let b := b.unprotect s domain
    if b.steps = [] then .error (.noSuchLogin domain) else .ok b

end cleanup

section networks

variable [External] (s : Snapshot) (b : Builder)

/-- The private ranges routed in the default virtual network. -/
def defaultRoutes : List ObservedNetworkRoute :=
  (s.networks.map NetworkState.inDefaultVnet).getD []

/-- Whether a tunnel id is this machine's. -/
def isOurs (tunnelId : String) : Bool :=
  s.tunnel.any fun t => t.id == tunnelId

/-- Warns of other tunnels' routes that share addresses with the range. -/
def warnOverlaps (network : PrivateNetwork) : Builder :=
  ((defaultRoutes s).filter fun r => !isOurs s r.tunnelId).foldl (fun b other =>
    if other.range.any fun o => o.overlaps network then
      b.warn (.overlapsNetwork network.toText other.network
        (other.tunnelName.getD other.tunnelId))
    else b) b

/-- Lets WARP clients reach a private range through this machine's tunnel. -/
def planAddNetwork (network : PrivateNetwork) : Except PlanError Builder :=
  match (defaultRoutes s).find? fun r => r.range == some network with
  | some existing =>
      if isOurs s existing.tunnelId then .ok b
      else .error (.networkRouted network.toText
        (existing.tunnelName.getD existing.tunnelId))
  | none =>
      let b := if network.isPrivate then b
        else b.confirm.warn (.publicNetwork network.toText)
      let b := warnOverlaps s b network
      let (tunnel, b) := b.ensureTunnel s
      .ok (b.push (.createNetworkRoute network tunnel))

/-- Stops routing a private range to this machine's tunnel. -/
def planRemoveNetwork (network : PrivateNetwork) : Except PlanError Builder := do
  let t ← s.theTunnel
  let routes := (defaultRoutes s).filter fun r =>
    r.tunnelId == t.id && r.range == some network
  refuseIf (routes = []) (.noSuchNetwork network.toText)
  return b.extend (routes.map .deleteNetworkRoute)

/-- The routes of a private hostname, to any tunnel. -/
def hostnameRoutesOf (hostname : PrivateHostname) : List ObservedHostnameRoute :=
  (s.networks.map fun n => n.hostnameRoutes hostname).getD []

/-- Lets WARP clients reach a private hostname through this machine's tunnel. -/
def planAddPrivateHostname (hostname : PrivateHostname) : Except PlanError Builder :=
  match (hostnameRoutesOf s hostname).head? with
  | some route =>
      if isOurs s route.tunnelId then .ok b
      else .error (.privateHostnameRouted hostname.asStr
        (route.tunnelName.getD route.tunnelId))
  | none =>
      let b := if s.zones.any fun z => hostname.host.isInZone z.name then
          b.confirm.warn (.publicHostname hostname.asStr)
        else b
      let (tunnel, b) := b.ensureTunnel s
      .ok (b.push (.createHostnameRoute hostname tunnel))

/-- Stops routing a private hostname to this machine's tunnel. -/
def planRemovePrivateHostname (hostname : PrivateHostname) : Except PlanError Builder := do
  let t ← s.theTunnel
  let routes := (hostnameRoutesOf s hostname).filter fun r => r.tunnelId == t.id
  refuseIf (routes = []) (.noSuchPrivateHostname hostname.asStr)
  return b.extend (routes.map .deleteHostnameRoute)

end networks

/-- The plan for an intent before it is finished. -/
def build [External] (s : Snapshot) (b : Builder) : Intent → Except PlanError Builder
  | .addRoute route => planAddRoute s b route
  | .updateRoute hostname path route => planUpdateRoute s b hostname path route
  | .removeRoute hostname path => planRemoveRoute s b hostname path
  | .removeTunnel => planRemoveTunnel s b
  | .createTunnel name => planCreateTunnel s b name
  | .balanceRoute hostname => planBalanceRoute s b hostname
  | .unbalanceRoute hostname => planUnbalanceRoute s b hostname
  | .importRoutes routes => planImportRoutes s b routes
  | .deleteRecord zoneId hostname recordId => planDeleteRecord s b zoneId hostname recordId
  | .addNetwork network => planAddNetwork s b network
  | .removeNetwork network => planRemoveNetwork s b network
  | .addPrivateHostname hostname => planAddPrivateHostname s b hostname
  | .removePrivateHostname hostname => planRemovePrivateHostname s b hostname
  | .removeLogin domain => planRemoveLogin s b domain
  | .cleanUpHostname hostname => planCleanUpHostname s b hostname
  | .restoreConfig ingress => planRestoreConfig s b ingress
  | .publishSnapshot site settings content => publishSite s b site settings content
  | .updateSnapshot site settings content previous =>
      updateSite s b site settings content previous
  | .rollbackSnapshot site versionId number => rollbackSite s b site versionId number
  | .deleteSnapshot site => .ok (deleteSite s b site)
  | .reserve hostname untilMs => reserve s b hostname untilMs
  | .release hostname => release s b hostname
  | .protectHostname hostname protection => protectEdge s b hostname protection
  | .createServiceToken hostname label => createToken s b hostname label
  | .revokeServiceToken hostname tokenId => revokeToken s b hostname tokenId
  | .rotateServiceToken _ tokenId => rotateToken s b tokenId
  | .setOfflinePage hostname page => offline s b hostname page
  | .setInbox hostname path settings secret => inbox s b hostname path settings secret

/-- Plans `intent` against a snapshot. -/
def plan [External] (intent : Intent) (s : Snapshot) : Except PlanError Plan :=
  (build s {} intent).map fun b => b.finish s

end Teitunnel
