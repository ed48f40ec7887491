import Teitunnel.Planner
import Teitunnel.Lib.Lists

/-!
# Applying a plan

A model of applying a plan to a snapshot: what Cloudflare would look like afterwards.  Objects
that are created get ids; a simulated id goes through `ids`, so that a result about every `ids`
holds whatever ids Cloudflare hands out, and the identity gives the simulator's own.
-/

namespace Teitunnel

open Text

/-- The ids handed out, by the simulator's own. -/
abbrev Ids := String → String

/-- A snapshot while a plan is applied, with a count of the objects created. -/
@[ext] structure Sim where
  next : Snapshot
  recordIds : ℕ

def emptyAccess : AccessState where
  organization := some true
  loginMethods := some []
  apps := []

def emptyNetworks : NetworkState where
  defaultVnet := none
  routes := []
  hostnames := none

namespace Snapshot

variable (s : Snapshot)

/-- Nobody else holds `hostname` any more. -/
def releaseHolds (hostname : String) : Snapshot :=
  { s with held := s.held.filter fun h => ¬ SameText h.hostname hostname }

/-- The first record satisfying `p` changed. -/
def modifyRecord (p : ObservedRecord → Bool) (f : ObservedRecord → ObservedRecord) : Snapshot :=
  { s with records := s.records.modifyFirst p f }

/-- Access changed (set up when it wasn't read). -/
def modifyAccess (f : AccessState → AccessState) : Snapshot :=
  { s with access := some (f (s.access.getD emptyAccess)) }

/-- The applications changed, when they were read. -/
def modifyApps (f : List ObservedAccessApp → List ObservedAccessApp) : Snapshot :=
  { s with access := s.access.map fun a => { a with apps := f a.apps } }

/-- The private networks changed (empty when they weren't read). -/
def modifyNetworks (f : NetworkState → NetworkState) : Snapshot :=
  { s with networks := some (f (s.networks.getD emptyNetworks)) }

def modifyBalance (f : BalanceState → BalanceState) : Snapshot :=
  { s with balance := s.balance.map f }

def modifySite (f : SiteState → SiteState) : Snapshot :=
  { s with site := s.site.map f }

end Snapshot

/-- The tunnel a step refers to. -/
def TunnelRef.resolve (ids : Ids) : TunnelRef → String
  | existing id => id
  | created => ids "new-tunnel"

section records

variable (ids : Ids) (n : ℕ) (s : Snapshot)

/-- A record with the `n`-th id. -/
def newRecord (zoneId name kind content comment : String) : ObservedRecord where
  zoneId := zoneId
  owned := true
  record :=
    { id := ids ("sim-" ++ toString n), name := name, kind := kind, content := content,
      proxied := true, comment := some comment, ttl := 1 }

def applyCreateRecord (zoneId hostname : String) (tunnel : TunnelRef) (routeId : String) :
    Snapshot :=
  let comment := routeComment routeId s.owner none s.now
  let record := newRecord ids n zoneId hostname "CNAME" (tunnelTarget (tunnel.resolve ids)) comment
  { s with records := s.records ++ [record] }.releaseHolds hostname

/-- The record pointed at the tunnel. -/
def repoint (tunnel : TunnelRef) (routeId : String) (r : ObservedRecord) : ObservedRecord :=
  { r with
    owned := true
    record := { r.record with
      kind := "CNAME"
      content := tunnelTarget (tunnel.resolve ids)
      proxied := true
      comment := some (routeComment routeId s.owner r.record.comment s.now) } }

def applyUpdateRecord (recordId : String) (tunnel : TunnelRef) (routeId : String) : Snapshot :=
  match s.records.find? fun r => r.record.id == recordId with
  | none => s
  | some r =>
      (s.modifyRecord (fun r => r.record.id == recordId)
        (repoint ids s tunnel routeId)).releaseHolds r.record.name

def applyDeleteRecord (record : DnsRecord) : Snapshot :=
  { s with records := s.records.filter fun r => r.record.id ≠ record.id }.releaseHolds
    record.name

def applyCreateReservation (zoneId hostname : String) (untilMs : Option ℕ) : Snapshot :=
  let comment := (Ownership.ofLease s.owner untilMs).render
  let record := newRecord ids n zoneId hostname LEASE_KIND LEASE_ADDRESS comment
  { s with records := s.records ++ [record] }.releaseHolds hostname

/-- The comment of a record with its lease changed. -/
def leaseComment (owner : String) (comment : Option String) (lease : Bool)
    (untilMs : Option ℕ) : String :=
  let o := (comment.bind Ownership.parse).getD (Ownership.ofLease owner none)
  ({ o with
    lease := lease || o.marker == .lease
    untilMs := if lease then untilMs else none } : Ownership).render

def applySetLease (record : DnsRecord) (lease : Bool) (untilMs : Option ℕ) : Snapshot :=
  s.modifyRecord (fun r => r.record.id == record.id) fun r =>
    { r with record := { r.record with
      comment := some (leaseComment s.owner r.record.comment lease untilMs) } }

end records

section access

variable [External] (ids : Ids) (n : ℕ) (s : Snapshot)

def applyAddLoginMethod : Snapshot :=
  s.modifyAccess fun a =>
    { a with loginMethods := some (a.loginMethods.getD [] ++ [⟨ids "sim-login", "onetimepin"⟩]) }

/-- An application as observed after it is created. -/
def newApp (id : String) (app : NewAccessApp) : ObservedAccessApp where
  id := id
  domain := app.domain
  owned := true
  rule := AccessRule.fromNew app
  definition := app

def applyCreateAccessApp (app : NewAccessApp) : Snapshot :=
  s.modifyAccess fun a =>
    { a with apps := a.apps ++ [newApp (ids ("sim-app-" ++ toString n)) app] }

def applyUpdateAccessApp (id : String) (app : NewAccessApp) : Snapshot :=
  s.modifyApps fun apps => apps.modifyFirst (fun a => a.id == id) fun a =>
    { a with domain := app.domain, rule := AccessRule.fromNew app, definition := app }

def applyDeleteAccessApp (id : String) : Snapshot :=
  s.modifyApps fun apps => apps.filter fun a => a.id ≠ id

def applyAllowServiceToken (domain : String) (app : Option (String × NewAccessApp)) : Snapshot :=
  let before := (app.map Prod.snd).getD (machineOnlyDefinition domain)
  let definition := withServiceToken before (ids "sim-token")
  s.modifyAccess fun a => { a with apps := match app with
    | some (id, _) => a.apps.modifyFirst (fun x => x.id == id) fun x =>
        { x with rule := AccessRule.fromNew definition, definition }
    | none => a.apps ++ [⟨ids "sim-machines", domain, true, none, definition⟩] }

end access

section balance

variable (ids : Ids) (s : Snapshot)

/-- The tunnel an endpoint names, after the plan's own tunnel is created. -/
def endpointTunnel (e : PoolEndpoint) : String :=
  match e.tunnel with
  | .existing id => id
  | .created => (s.tunnel.map ObservedTunnel.id).getD ""

def applyPool (hostname : String) (endpoints : List PoolEndpoint) : Snapshot :=
  s.modifyBalance fun state =>
    { state with
      pool := some
        { id := (state.pool.map Pool.id).getD (ids "sim-pool")
          name := poolName hostname
          description := lbMarker hostname
          enabled := true
          monitor := state.monitor.map Monitor.id
          origins := endpoints.map fun e => originFor hostname (endpointTunnel s e) e.name } }

def applyLoadBalancer (hostname : String) : Snapshot :=
  s.modifyBalance fun state =>
    let pool := (state.pool.map Pool.id).getD ""
    { state with
      balancer := some
        { id := ids "sim-lb"
          name := hostname
          description := lbMarker hostname
          defaultPools := [pool]
          fallbackPool := pool
          proxied := true } }

end balance

/-- A private range's route with the `n`-th id. -/
def newNetworkRoute [External] (ids : Ids) (n : ℕ) (state : NetworkState)
    (network : PrivateNetwork) (tunnel : TunnelRef) : ObservedNetworkRoute where
  id := ids ("sim-net-" ++ toString n)
  network := network.toText
  tunnelId := tunnel.resolve ids
  tunnelName := none
  virtualNetworkId := state.defaultVnet
  comment := NETWORK_COMMENT

/-- A private hostname's route with the `n`-th id. -/
def newHostnameRoute (ids : Ids) (n : ℕ) (hostname : PrivateHostname) (tunnel : TunnelRef) :
    ObservedHostnameRoute where
  id := ids ("sim-host-" ++ toString n)
  hostname := hostname.asStr
  tunnelId := tunnel.resolve ids
  tunnelName := none
  comment := NETWORK_COMMENT

section edge

variable (ids : Ids) (n : ℕ)

/-- A ruleset with one more rule (made when the zone has none). -/
def ObservedRuleset.add (phase : String) (rule : NewRule) (r : ObservedRuleset) :
    ObservedRuleset :=
  { r with
    id := some (r.id.getD (ids ("sim-ruleset-" ++ phase)))
    rules := r.rules ++ [⟨ids ("sim-rule-" ++ toString n), rule, true⟩] }

def EdgeState.addRule (phase : String) (rule : NewRule) (e : EdgeState) : EdgeState :=
  { e with
    rulesets := e.rulesets.modifyFirst (fun r => r.phase == phase)
      (ObservedRuleset.add ids n phase rule) }

def ObservedRuleset.has (ruleId : String) (r : ObservedRuleset) : Bool :=
  r.rules.any fun x => x.id == ruleId

def ObservedRuleset.setRule (ruleId : String) (rule : NewRule) (r : ObservedRuleset) :
    ObservedRuleset :=
  { r with rules := r.rules.modifyFirst (fun x => x.id == ruleId) fun x => { x with rule } }

def EdgeState.has (ruleId : String) (e : EdgeState) : Bool :=
  e.rulesets.any fun r => r.has ruleId

def EdgeState.setRule (ruleId : String) (rule : NewRule) (e : EdgeState) : EdgeState :=
  { e with
    rulesets := e.rulesets.modifyFirst (fun r => r.has ruleId)
      (ObservedRuleset.setRule ruleId rule) }

def ObservedRuleset.drop (ruleId : String) (r : ObservedRuleset) : ObservedRuleset :=
  { r with rules := r.rules.filter fun x => x.id ≠ ruleId }

def EdgeState.dropRule (ruleId : String) (e : EdgeState) : EdgeState :=
  { e with rulesets := e.rulesets.map (ObservedRuleset.drop ruleId) }

/-- The zones' rules after a step. -/
def applyEdge (edge : List EdgeState) : Step → List EdgeState
  | .createEdgeRule zoneId phase _ _ _ rule =>
      edge.modifyFirst (fun e => e.zoneId == zoneId) (EdgeState.addRule ids n phase rule)
  | .updateEdgeRule _ _ ruleId _ _ rule _ =>
      edge.modifyFirst (fun e => e.has ruleId) (EdgeState.setRule ruleId rule)
  | .deleteEdgeRule _ _ _ ruleId _ _ _ _ => edge.map (EdgeState.dropRule ruleId)
  | _ => edge

end edge

section front

variable (ids : Ids)

/-- A hostname's front Workers with one put in place. -/
def FrontState.put (script : String) (config : FrontConfig) (f : FrontState) : FrontState :=
  { f with
    fronts :=
      if f.fronts.any fun x => x.is config.kind config.path then
        f.fronts.modifyFirst (fun x => x.is config.kind config.path) fun x =>
          { x with config, exists_ := true }
      else f.fronts ++ [{ config, script, exists_ := true, route := none }] }

/-- A hostname's front Workers with one of them routed. -/
def FrontState.route (pattern script : String) (kind : FrontKind) (path : String)
    (f : FrontState) : FrontState :=
  { f with
    fronts := f.fronts.modifyFirst (fun x => x.is kind path) fun x =>
      { x with route := some ⟨ids ("route-" ++ script), pattern, some script, some true⟩ } }

/-- A hostname's front Workers without the route `routeId`. -/
def FrontState.unroute (routeId : String) (f : FrontState) : FrontState :=
  { f with
    fronts := f.fronts.map fun x =>
      if x.route.any fun r => r.id == routeId then { x with route := none } else x }

/-- The Workers in front of hostnames after a step. -/
def applyFront (front : List FrontState) : Step → List FrontState
  | .putFrontWorker hostname _ script config _ _ _ =>
      front.modifyFirst (fun f => f.hostname == hostname) (FrontState.put script config)
  | .createWorkerRoute hostname _ pattern script kind path =>
      front.modifyFirst
        (fun f => f.hostname == hostname && f.fronts.any fun x => x.is kind path)
        (FrontState.route ids pattern script kind path)
  | .deleteWorkerRoute _ _ route _ _ => front.map (FrontState.unroute route.id)
  | .deleteFrontWorker _ _ script _ _ =>
      front.map fun f => { f with fronts := f.fronts.filter fun x => x.script ≠ script }
  | _ => front

end front

/-- Whether a step gives an object the next id. -/
def Step.numbersObject : Step → Bool
  | createRecord .. | createReservation .. | createAccessApp .. | createNetworkRoute ..
  | createHostnameRoute .. | createEdgeRule .. => true
  | _ => false

/-- The snapshot after a step that creates the `n`-th object, if it creates one. -/
def applyTo [External] (ids : Ids) (n : ℕ) (s : Snapshot) (step : Step) : Snapshot :=
  match step with
  | .createTunnel name =>
      { s with tunnel := some { id := ids "new-tunnel", name, configVersion := 0, ingress := [] } }
  | .putConfig _ ingress _ _ =>
      { s with
        tunnel := s.tunnel.map fun t =>
          { t with ingress, configVersion := t.configVersion + 1 } }
  | .createRecord zoneId hostname tunnel routeId =>
      applyCreateRecord ids n s zoneId hostname tunnel routeId
  | .updateRecord _ recordId _ tunnel routeId _ =>
      applyUpdateRecord ids s recordId tunnel routeId
  | .deleteRecord _ record => applyDeleteRecord s record
  | .createReservation zoneId hostname untilMs =>
      applyCreateReservation ids n s zoneId hostname untilMs
  | .setLease _ record lease untilMs => applySetLease s record lease untilMs
  | .deleteTunnel _ => { s with tunnel := none }
  | .addLoginMethod => applyAddLoginMethod ids s
  | .createAccessApp app => applyCreateAccessApp ids n s app
  | .updateAccessApp id app _ => applyUpdateAccessApp s id app
  | .deleteAccessApp id _ => applyDeleteAccessApp s id
  | .createNetworkRoute network tunnel =>
      s.modifyNetworks fun state =>
        { state with routes := state.routes ++ [newNetworkRoute ids n state network tunnel] }
  | .deleteNetworkRoute route =>
      { s with
        networks := s.networks.map fun state =>
          { state with routes := state.routes.filter fun r => r.id ≠ route.id } }
  | .createHostnameRoute hostname tunnel =>
      s.modifyNetworks fun state =>
        { state with
          hostnames := some (state.hostnames.getD [] ++
            [newHostnameRoute ids n hostname tunnel]) }
  | .deleteHostnameRoute route =>
      { s with
        networks := s.networks.map fun state =>
          { state with
            hostnames := state.hostnames.map fun l => l.filter fun r => r.id ≠ route.id } }
  | .createLbMonitor hostname =>
      s.modifyBalance fun state =>
        { state with monitor := some { monitorFor hostname with id := ids "sim-monitor" } }
  | .createLbPool hostname _ endpoints => applyPool ids s hostname endpoints
  | .updateLbPool hostname _ _ endpoints _ => applyPool ids s hostname endpoints
  | .createLoadBalancer _ hostname _ => applyLoadBalancer ids s hostname
  | .deleteLoadBalancer _ _ => s.modifyBalance fun state => { state with balancer := none }
  | .deleteLbPool _ => s.modifyBalance fun state => { state with pool := none }
  | .deleteLbMonitor _ => s.modifyBalance fun state => { state with monitor := none }
  -- a new secret changes nothing the planner reads, like these
  | .stopConnector _ | .verify _ | .uploadSnapshotFiles .. | .rotateServiceToken _ => s
  | .createSnapshotWorker .. | .publishSnapshotVersion .. =>
      s.modifySite fun site =>
        { site with exists_ := true, activeVersion := some (ids "new-version") }
  | .rollBackSnapshot _ _ versionId _ _ =>
      s.modifySite fun site => { site with activeVersion := some versionId }
  | .enableWorkersDev .. => s.modifySite fun site => { site with workersDev := true }
  | .disableWorkersDev .. => s.modifySite fun site => { site with workersDev := false }
  | .attachSnapshotDomain zoneId hostname script =>
      s.modifySite fun site =>
        { site with
          domains := site.domains ++ [⟨ids ("domain-" ++ hostname), hostname, script, zoneId, ""⟩] }
  | .detachSnapshotDomain domain =>
      s.modifySite fun site =>
        { site with domains := site.domains.filter fun d => d.id ≠ domain.id }
  | .deleteSnapshotWorker .. =>
      s.modifySite fun site =>
        { site with exists_ := false, activeVersion := none, domains := [], workersDev := false }
  | .createEdgeRule .. | .updateEdgeRule .. | .deleteEdgeRule .. =>
      { s with edge := applyEdge ids n s.edge step }
  | .createServiceToken _ name =>
      let token := ⟨ids "sim-token", name, ids "sim-token.access", none, true, none⟩
      { s with serviceTokens := some (s.serviceTokens.getD [] ++ [token]) }
  | .allowServiceToken domain app _ => applyAllowServiceToken ids s domain app
  | .deleteServiceToken token =>
      { s with serviceTokens := s.serviceTokens.map fun l => l.filter fun t => t.id ≠ token.id }
  | .createDatabase _ => { s with database := some { id := some (ids "new-database") } }
  | .putFrontWorker .. | .createWorkerRoute .. | .deleteWorkerRoute .. | .deleteFrontWorker .. =>
      { s with front := applyFront ids s.front step }

/-- One step of applying a plan. -/
def applyStep [External] (ids : Ids) (sim : Sim) (step : Step) : Sim :=
  let n := if step.numbersObject then sim.recordIds + 1 else sim.recordIds
  { next := applyTo ids n sim.next step, recordIds := n }

/-- The snapshot after steps, as a perfect executor would leave it. -/
def applySteps [External] (ids : Ids) (s : Snapshot) (steps : List Step) : Snapshot :=
  (steps.foldl (applyStep ids) ⟨s, 0⟩).next

/-- Applies a plan to a snapshot. -/
def apply [External] (ids : Ids) (s : Snapshot) (plan : Plan) : Snapshot :=
  applySteps ids s plan.steps

/-! ## Whole runs -/

section runs

variable [External]

/-- `s'` is `s` after the plan of an intent that satisfies `P`, whatever ids its objects get. -/
def Applies (P : Snapshot → Intent → Prop) (s s' : Snapshot) : Prop :=
  ∃ intent p ids, P s intent ∧ plan intent s = .ok p ∧ s' = apply ids s p

/-- Applies the plan of an intent (without a plan nothing changes). -/
def applyIntent (s : Snapshot) (intent : Intent) : Snapshot :=
  match plan intent s with
  | .ok p => apply id s p
  | .error _ => s

/-- Applies the plan of each intent in turn. -/
def applyAll (s : Snapshot) (intents : List Intent) : Snapshot :=
  intents.foldl applyIntent s

lemma applyAll_run {P : Snapshot → Intent → Prop} (s : Snapshot) (intents : List Intent)
    (h : ∀ intent ∈ intents, ∀ s, P s intent) :
    Relation.ReflTransGen (Applies P) s (applyAll s intents) := by
  induction intents generalizing s with
  | nil => exact .refl
  | cons intent rest ih =>
      have hrest : Relation.ReflTransGen (Applies P) (applyIntent s intent)
          (applyAll (applyIntent s intent) rest) :=
        ih _ fun i hi => h i (List.mem_cons_of_mem intent hi)
      refine Relation.ReflTransGen.trans ?_ hrest
      unfold applyIntent
      split
      · rename_i p hplan
        exact .single ⟨intent, p, id, h intent List.mem_cons_self s, hplan, rfl⟩
      · exact .refl

end runs

end Teitunnel
