import Teitunnel.Serialize

/-!
# The plan under construction

The planner reads one snapshot and appends to one builder: steps, warnings, and whether the
user must confirm.  Each operation here takes the snapshot and the builder and returns the
builder afterwards, or the error that stops the planning.
-/

namespace Teitunnel

open Text

/-- A plan under construction. -/
@[ext] structure Builder where
  steps : List Step := []
  warnings : List Warning := []
  requiresConfirmation : Bool := false
  deriving DecidableEq

namespace Builder

/-- The builder with one more step. -/
def push (b : Builder) (step : Step) : Builder :=
  { b with steps := b.steps ++ [step] }

/-- The builder with one more warning. -/
def warn (b : Builder) (warning : Warning) : Builder :=
  { b with warnings := b.warnings ++ [warning] }

/-- The builder whose plan the user must confirm. -/
def confirm (b : Builder) : Builder :=
  { b with requiresConfirmation := true }

/-- The builder with more steps. -/
def extend (b : Builder) (steps : List Step) : Builder :=
  { b with steps := b.steps ++ steps }

variable (b : Builder)

@[simp] lemma push_steps (step : Step) : (b.push step).steps = b.steps ++ [step] := rfl
@[simp] lemma push_warnings (step : Step) : (b.push step).warnings = b.warnings := rfl
@[simp] lemma push_requiresConfirmation (step : Step) :
    (b.push step).requiresConfirmation = b.requiresConfirmation := rfl
@[simp] lemma warn_steps (w : Warning) : (b.warn w).steps = b.steps := rfl
@[simp] lemma warn_warnings (w : Warning) : (b.warn w).warnings = b.warnings ++ [w] := rfl
@[simp] lemma warn_requiresConfirmation (w : Warning) :
    (b.warn w).requiresConfirmation = b.requiresConfirmation := rfl
@[simp] lemma confirm_steps : b.confirm.steps = b.steps := rfl
@[simp] lemma confirm_warnings : b.confirm.warnings = b.warnings := rfl
@[simp] lemma confirm_requiresConfirmation : b.confirm.requiresConfirmation = true := rfl
@[simp] lemma extend_steps (l : List Step) : (b.extend l).steps = b.steps ++ l := rfl
@[simp] lemma extend_warnings (l : List Step) : (b.extend l).warnings = b.warnings := rfl
@[simp] lemma extend_requiresConfirmation (l : List Step) :
    (b.extend l).requiresConfirmation = b.requiresConfirmation := rfl

end Builder

/-- Whether the rule is the route of a hostname and path. -/
def SameRoute (rule : IngressRule) (hostname : Hostname) (path : Option PathRule) : Prop :=
  rule.hostname = some hostname.asStr ∧ rule.path = path.map PathRule.asStr

instance (rule : IngressRule) (hostname : Hostname) (path : Option PathRule) :
    Decidable (SameRoute rule hostname path) :=
  inferInstanceAs (Decidable (_ ∧ _))

/-- No tunnel has the name. -/
def FreeName (taken : List String) (name : String) : Prop :=
  ¬ ∃ t ∈ taken, SameText t name

instance (taken : List String) (name : String) : Decidable (FreeName taken name) :=
  inferInstanceAs (Decidable (¬ ∃ t ∈ taken, SameText t name))

/-- `base`, or `base 2`, `base 3`, … if another tunnel already has the name.  One of the first
`taken.length + 1` numbers is free. -/
def uniqueName (base : String) (taken : List String) : String :=
  if FreeName taken base then base
  else
    let numbered := (List.range' 2 (taken.length + 1)).map fun n => base ++ " " ++ toString n
    (numbered.find? (FreeName taken ·)).getD base

/-- The kinds of records that answer for a name. -/
def isAddressKind (kind : String) : Bool :=
  kind == "A" || kind == "AAAA" || kind == "CNAME"

namespace Snapshot

variable (s : Snapshot)

/-- The pool endpoints of a hostname: every tunnel that routes it except this machine's, plus
this machine's (`own`) when it routes it after the change. -/
def endpoints (own : Option TunnelRef) : List PoolEndpoint :=
  let ours := s.tunnel.map ObservedTunnel.id
  let serving := (s.balance.map BalanceState.serving).getD []
  (serving.filter fun t => some t.id ≠ ours).map (fun t => ⟨.existing t.id, t.name⟩) ++
    match own with
    | some tunnel => [⟨tunnel, (s.tunnel.map ObservedTunnel.name).getD s.machineName⟩]
    | none => []

/-- Whether the hostname is load balanced by us now. -/
def balanced : Bool :=
  s.balance.any BalanceState.active

/-- The zone of a hostname. -/
def zoneId (hostname : Hostname) : Except PlanError String :=
  match hostname.zoneIn s.zones with
  | some zone => .ok zone.id
  | none => .error (.noZone hostname.asStr)

/-- Fails if another of this machine's tunnels already routes `hostname` (and `path`). -/
def notElsewhere (hostname : Hostname) (path : Option PathRule) : Except PlanError Unit :=
  match s.elsewhere.find? fun r =>
      r.hostname == hostname.asStr && r.path == path.map PathRule.asStr with
  | some other => .error (.routedElsewhere hostname.asStr other.tunnel)
  | none => .ok ()

/-- Someone else's hold on `hostname`, if any. -/
def holder (hostname : String) : Option Hold :=
  s.held.find? fun h => SameText h.hostname hostname

/-- The application for `domain` if it is owned. -/
def ownedApp (domain : String) : Option ObservedAccessApp :=
  (s.access.bind fun a => a.app domain).filter ObservedAccessApp.owned

/-- The paths under `domain` that skip its login. -/
def bypassesOf (domain : String) : List String :=
  (s.access.map fun a => bypassPaths a domain).getD []

/-- The records that answer for `hostname`. -/
def addressRecords (hostname : String) : List ObservedRecord :=
  (s.recordsNamed hostname).filter fun r => isAddressKind r.record.kind

end Snapshot

namespace Builder

variable (s : Snapshot) (b : Builder)

/-! ## Tunnels and load balancing -/

/-- The tunnel to use, creating it first if this machine has none. -/
def ensureTunnel : TunnelRef × Builder :=
  match s.tunnel with
  | some tunnel => (.existing tunnel.id, b)
  | none => (.created, b.push (.createTunnel (uniqueName s.machineName s.tunnelNames)))

/-- The address of an endpoint, as a pool stores it (nothing for a tunnel being created). -/
def endpointAddress (e : PoolEndpoint) : String :=
  match e.tunnel with
  | .existing id => tunnelTarget id
  | .created => ""

/-- The pool already sends traffic to these endpoints, checked by this monitor. -/
def PoolInSync (pool : Pool) (monitor : LbRef) (endpoints : List PoolEndpoint) : Prop :=
  SortedSet.ofList (endpoints.map endpointAddress) = .ofList (pool.origins.map Origin.address) ∧
    ∃ id, monitor = .existing id ∧ pool.monitor = some id

instance (pool : Pool) (monitor : LbRef) (endpoints : List PoolEndpoint) :
    Decidable (PoolInSync pool monitor endpoints) :=
  have : Decidable (∃ id, monitor = .existing id ∧ pool.monitor = some id) :=
    match monitor with
    | .existing id => decidable_of_iff (pool.monitor = some id) (by simp)
    | .created => isFalse (by simp)
  inferInstanceAs (Decidable (_ ∧ _))

/-- Makes the pool for `hostname` send traffic to `endpoints`: a new pool (and monitor) when
there is none, an update when they differ.  Returns the pool. -/
def syncPool (hostname : String) (endpoints : List PoolEndpoint) : Option LbRef × Builder :=
  match s.balance with
  | none => (none, b)
  | some state =>
      let (monitor, b) := match state.monitor with
        | some monitor => (LbRef.existing monitor.id, b)
        | none => (LbRef.created, b.push (.createLbMonitor hostname))
      match state.pool with
      | some pool =>
          (some (.existing pool.id),
            if PoolInSync pool monitor endpoints then b
            else b.push (.updateLbPool hostname pool.id monitor endpoints pool))
      | none => (some .created, b.push (.createLbPool hostname monitor endpoints))

/-- Removes everything made to balance the hostname. -/
def unbalance : Builder :=
  match s.balance.filter BalanceState.active with
  | none => b
  | some state =>
      b.extend ((state.balancer.map (Step.deleteLoadBalancer state.zoneId)).toList ++
        (state.pool.map Step.deleteLbPool).toList ++
        (state.monitor.map Step.deleteLbMonitor).toList)

end Builder

/-! ## Ingress -/

/-- The catch-all service every config ends with. -/
def CATCH_ALL : String := "http_status:404"

/-- Where a rule stands: the catch-all last, exact hostnames before wildcards, longer paths
before shorter ones (a path counts one more than its length). -/
def specificity (rule : IngressRule) : ℕ × ℕ × ℕ :=
  (if rule.hostname = none then 1 else 0,
    if rule.hostname.any fun h => decide (StartsWith "*" h) then 1 else 0,
    match rule.path with
    | some p => p.utf8ByteSize + 1
    | none => 0)

/-- `a` may stand before `b`. -/
def SpecificLE (a b : IngressRule) : Prop :=
  let x := specificity a
  let y := specificity b
  x.1 < y.1 ∨ x.1 = y.1 ∧ (x.2.1 < y.2.1 ∨ x.2.1 = y.2.1 ∧ y.2.2 ≤ x.2.2)

instance (a b : IngressRule) : Decidable (SpecificLE a b) :=
  inferInstanceAs (Decidable (_ ∨ _ ∧ (_ ∨ _ ∧ _)))

/-- The rule that answers what no other rule does. -/
def catchAllRule : IngressRule where
  hostname := none
  path := none
  service := CATCH_ALL
  originRequest := []
  extra := []
  extra_fields := no_ingress_fields

/-- Sorts rules by specificity (stable), drops existing catch-alls and appends one. -/
def sortIngress (rules : List IngressRule) : List IngressRule :=
  (rules.filter fun rule => rule.hostname.isSome).insertionSort SpecificLE ++ [catchAllRule]

namespace Builder

variable (s : Snapshot) (b : Builder)

/-- Replaces the tunnel's rules, unless they are already the ones desired. -/
def putConfig (tunnel : TunnelRef) (desired : List IngressRule) : Builder :=
  let current := (s.tunnel.map ObservedTunnel.ingress).getD []
  let desired := sortIngress desired
  if desired ≠ current then
    b.push (.putConfig tunnel desired (s.tunnel.map ObservedTunnel.configVersion) current)
  else b

/-! ## DNS -/

/-- Flags a change that takes `hostname` from whoever holds it. -/
def takeOver (hostname : String) : Builder :=
  match s.holder hostname with
  | none => b
  | some hold =>
      let warning := Warning.heldBy hold.hostname hold.owner hold.untilMs hold.kind
      if warning ∈ b.warnings then b.confirm else b.confirm.warn warning

/-- Flags the replacement of a record that isn't owned. -/
def flagForeign (record : ObservedRecord) : Builder :=
  if record.owned then b
  else b.confirm.warn
    (.replacesForeignRecord record.record.name record.record.kind record.record.content)

/-- The record already makes its name resolve to the tunnel. -/
def PointsAt (tunnel : TunnelRef) (record : ObservedRecord) : Prop :=
  ∃ id, tunnel = .existing id ∧ SameText record.record.content (tunnelTarget id) ∧
    record.record.proxied

instance (tunnel : TunnelRef) (record : ObservedRecord) : Decidable (PointsAt tunnel record) :=
  match tunnel with
  | .existing id => decidable_of_iff
      (SameText record.record.content (tunnelTarget id) ∧ record.record.proxied = true)
      (by simp [PointsAt])
  | .created => isFalse (by simp [PointsAt])

/-- Removes the records beyond the first: they would still answer for the name. -/
def dropExtras (zoneId : String) (extras : List ObservedRecord) : Builder :=
  extras.foldl (fun b extra => (b.flagForeign extra).push (.deleteRecord zoneId extra.record)) b

/-- Makes `hostname` resolve to the tunnel. -/
def ensureDns (hostname : Hostname) (tunnel : TunnelRef) (routeId : String) :
    Except PlanError Builder := do
  let zoneId ← s.zoneId hostname
  let b := b.takeOver s hostname.asStr
  match s.addressRecords hostname.asStr with
  | [] => return b.push (.createRecord zoneId hostname.asStr tunnel routeId)
  | first :: extras =>
      if extras = [] ∧ PointsAt tunnel first then return b
      else
        let b := (b.flagForeign first).push
          (.updateRecord zoneId first.record.id hostname.asStr tunnel routeId first.record)
        return b.dropExtras zoneId extras

/-- After a route's record is deleted: if it carried a lease that hasn't ended, the placeholder
takes its place so the name stays reserved. -/
def restore (record : ObservedRecord) : Builder :=
  match record.record.comment.bind Ownership.parse with
  | none => b
  | some ownership =>
      if ownership.marker.isRoute && ownership.leasedAt s.now then
        b.push (.createReservation record.zoneId record.record.name ownership.untilMs)
      else b

/-- Deletes the records for `hostname` that are owned and point at the tunnel.  Foreign records
are kept. -/
def releaseDns (hostname tunnelId : String) : Builder :=
  let matching := (s.recordsNamed hostname).filter fun r =>
    SameText r.record.content (tunnelTarget tunnelId)
  matching.foldl (fun b record =>
    if record.owned then (b.push (.deleteRecord record.zoneId record.record)).restore s record
    else b.warn (.keepsForeignRecord hostname)) b

/-- For a route of a balanced hostname: joins the pool instead of pointing the DNS record at
this machine.  Otherwise, DNS. -/
def serve (hostname : Hostname) (tunnel : TunnelRef) (routeId : String) :
    Except PlanError Builder :=
  if s.balanced then .ok (b.syncPool s hostname.asStr (s.endpoints (some tunnel))).2
  else b.ensureDns s hostname tunnel routeId

/-! ## Logins -/

/-- Closes the path that skips a login at `domain`, if it is one of ours. -/
def closeBypass (domain : String) : Builder :=
  match (s.ownedApp domain).filter fun a => isBypass a.definition with
  | some app => b.push (.deleteAccessApp app.id app.definition)
  | none => b

/-- Closes paths under `domain` that skip its login. -/
def closeAll (domain : String) (paths : List String) : Builder :=
  paths.foldl (fun b path => b.closeBypass s (domain ++ path)) b

/-- Removes every path under `domain` that skips its login. -/
def closeBypasses (domain : String) : Builder :=
  b.closeAll s domain (s.bypassesOf domain)

/-- Removes the login from `domain` (and the paths that skip it), if it is ours. -/
def unprotect (domain : String) : Builder :=
  let b := b.closeBypasses s domain
  match s.ownedApp domain with
  | some app => b.push (.deleteAccessApp app.id app.definition)
  | none => b

/-- Removes the people's login from `domain` but keeps its service tokens passing; without
tokens, the application goes. -/
def dropLogin (domain : String) : Builder :=
  match s.ownedApp domain with
  | none => b
  | some app =>
      if serviceTokensOf app.definition = [] then b.unprotect s domain
      else
        -- without a login there is nothing to skip
        (b.closeBypasses s domain).push
          (.updateAccessApp app.id
            (keepMachines (machineOnlyDefinition domain) app.definition) app.definition)

/-- Opens paths under `domain` that skip its login, unless something is already there. -/
def openBypasses (domain : String) : List String → Builder → Except PlanError Builder
  | [], b => .ok b
  | path :: rest, b =>
      if (s.access.bind fun a => a.app (domain ++ path)).isSome then
        .error (.accessAppExists (domain ++ path))
      else openBypasses domain rest
        (b.push (.createAccessApp (bypassDefinition (domain ++ path))))

/-- Makes the paths under `domain` that skip its login exactly `paths`. -/
def bypass (domain : String) (paths : List String) : Except PlanError Builder := do
  let current := s.bypassesOf domain
  let b ← openBypasses s domain (paths.filter fun p => p ∉ current) b
  return b.closeAll s domain (current.filter fun p => p ∉ paths)

/-- The same people log in, but through a login method that was replaced. -/
def staleMethods (app wanted : NewAccessApp) (method : Option LoginMethod) : Bool :=
  decide (app.allowedIdps ≠ wanted.allowedIdps) ||
    (githubMethods app).any fun id => some id ≠ method.map LoginMethod.id

/-- The application that `protect` wants in place of an owned one: service tokens keep
passing. -/
def wantedApp (domain : String) (rule : AccessRule) (method : Option LoginMethod)
    (app : ObservedAccessApp) : NewAccessApp :=
  keepMachines (appDefinition domain rule method) app.definition

/-- An owned application already lets in exactly these people. -/
def InPlace (domain : String) (rule : AccessRule) (method : Option LoginMethod)
    (app : ObservedAccessApp) : Prop :=
  app.rule = some rule.peopleOnly ∧
    app.definition.name = (wantedApp domain rule method app).name ∧
    staleMethods app.definition (wantedApp domain rule method app) method = false

instance (domain : String) (rule : AccessRule) (method : Option LoginMethod)
    (app : ObservedAccessApp) : Decidable (InPlace domain rule method app) :=
  inferInstanceAs (Decidable (_ ∧ _ ∧ _))

/-- The login methods observed. -/
def methodsOf (s : Snapshot) : Option (List LoginMethod) :=
  s.access.bind AccessState.loginMethods

/-- A new application for `domain`, after the login method it needs when there is none. -/
def createLogin (domain : String) (rule : AccessRule) (method : Option LoginMethod) :
    Except PlanError Builder :=
  if (s.access.bind AccessState.organization) = some false then .error .zeroTrustNotSetUp
  else
    let noLogin := (methodsOf s).any List.isEmpty
    let b := if method.isNone && noLogin && !b.steps.contains .addLoginMethod then
        b.push .addLoginMethod
      else b
    .ok (b.push (.createAccessApp (appDefinition domain rule method)))

/-- Requires a login for `domain`, without the paths that skip it. -/
def requireLogin (domain : String) (rule : AccessRule) (method : Option LoginMethod) :
    Except PlanError Builder :=
  match s.access.bind fun a => a.app domain with
  | none => b.createLogin s domain rule method
  | some app =>
      if app.owned then
        if InPlace domain rule method app then .ok b
        else .ok (b.push
          (.updateAccessApp app.id (wantedApp domain rule method app) app.definition))
      -- someone else's application is never changed
      else if app.rule ≠ some rule.peopleOnly then .error (.accessAppExists domain)
      else .ok b

/-- Requires a login for `domain`: creates the application, or updates it if it lets in
different people. -/
def protect (domain : String) (rule : AccessRule) : Except PlanError Builder := do
  let method ← (loginMethod rule.signIn ((methodsOf s).getD [])).mapError .noLoginMethod
  let b ← b.requireLogin s domain rule method
  b.bypass s domain rule.bypass

/-! ## Finishing -/

/-- Checks the route end to end, when a browser could open it. -/
def verifyRoute (route : RouteSpec) : Builder :=
  if route.origin.isWeb then b.push (.verify route.hostname.asStr) else b

def remoteOriginWarning (route : RouteSpec) : Builder :=
  if route.origin.isLocal then b else b.warn (.remoteOrigin route.origin.asStr)

/-- The name the plan gives the tunnel it creates. -/
def createdName : List Step → Option String
  | [] => none
  | .createTunnel name :: _ => some name
  | _ :: rest => createdName rest

/-- The finished plan.  A plan whose only steps are checks has nothing to apply. -/
def finish [External] : Plan :=
  let steps := if b.steps.any Step.isMutation then b.steps else []
  { steps
    warnings := b.warnings
    requiresConfirmation := b.requiresConfirmation
    fingerprint := s.fingerprint
    tunnelName := match s.tunnel with
      | some t => t.name
      | none => (createdName steps).getD s.machineName }

end Builder

end Teitunnel
