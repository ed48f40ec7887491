import Teitunnel.Planner.Builder

/-!
# Planning edge protection and service tokens

Only owned rules are added, changed or removed, one by one; other rules in the same phases are
counted towards the plan's quotas and otherwise left alone.  Rules are added first, then
changed, then removed from the end of a phase towards its start.
-/

namespace Teitunnel

open Text Except

/-- What the plan does to the rules, before they are ordered. -/
structure Changes where
  creates : List Step := []
  updates : List Step := []
  /-- With each rule's position, to remove from the end first. -/
  deletes : List (ℕ × Step) := []

/-- The id of a phase's ruleset, if the zone has one. -/
def EdgeState.rulesetId (state : EdgeState) (phase : String) : Option String :=
  (state.ruleset phase).bind ObservedRuleset.id

namespace Changes

def create (c : Changes) (state : EdgeState) (kind : RuleKind) (hostnames : List String)
    (rule : NewRule) : Changes :=
  { c with creates := c.creates ++
      [.createEdgeRule state.zoneId kind.phase (state.rulesetId kind.phase) kind hostnames rule] }

def update (c : Changes) (state : EdgeState) (kind : RuleKind) (hostnames : List String)
    (observed : ObservedRule) (rule : NewRule) : Changes :=
  { c with updates := c.updates ++
      [.updateEdgeRule state.zoneId ((state.rulesetId kind.phase).getD "") observed.id kind
        hostnames rule observed.rule] }

def delete (c : Changes) (state : EdgeState) (kind : RuleKind) (hostnames : List String)
    (position : ℕ) (observed : ObservedRule) : Changes :=
  { c with deletes := c.deletes ++
      [(position, .deleteEdgeRule state.zoneId kind.phase
        ((state.rulesetId kind.phase).getD "") observed.id kind hostnames observed.rule
        position)] }

/-- The step adds a rule to one of `quota`'s phases. -/
def createsIn (quota : QuotaKind) : Step → Bool
  | .createEdgeRule _ phase _ _ _ _ => quota.phases.contains phase
  | _ => false

/-- The step removes a rule from one of `quota`'s phases. -/
def deletesIn (quota : QuotaKind) : Step → Bool
  | .deleteEdgeRule _ phase _ _ _ _ _ _ => quota.phases.contains phase
  | _ => false

/-- Rules added minus rules removed in `quota`'s phases. -/
def delta (c : Changes) (quota : QuotaKind) : ℤ :=
  (c.creates.countP (createsIn quota) : ℤ) -
    (c.deletes.countP fun d => deletesIn quota d.2 : ℤ)

/-- The kind of the rule a step is about. -/
def kindOf : Step → Option RuleKind
  | .createEdgeRule _ _ _ kind _ _ => some kind
  | .updateEdgeRule _ _ _ kind _ _ _ => some kind
  | .deleteEdgeRule _ _ _ _ kind _ _ _ => some kind
  | _ => none

/-- Something changes that counts towards `quota`. -/
def touches (c : Changes) (quota : QuotaKind) : Bool :=
  (c.creates ++ c.updates ++ c.deletes.map Prod.snd).any fun s =>
    (kindOf s).map RuleKind.quota == some quota

/-- The removals, from the end of a phase towards its start. -/
def sortedDeletes (c : Changes) : List (ℕ × Step) :=
  c.deletes.insertionSort fun a b => b.1 ≤ a.1

/-- The steps in the order they run. -/
def steps (c : Changes) : List Step :=
  c.creates ++ c.updates ++ c.sortedDeletes.map Prod.snd

end Changes

/-- What happens to `hostname`'s rule of one kind. -/
def kindChange [External] (state : EdgeState) (hostname : Hostname)
    (desired : List (RuleKind × NewRule)) (changes : Changes) (kind : RuleKind) : Changes :=
  let host := [hostname.asStr]
  match state.ownedRule kind.phase (marker hostname kind), desired.lookup kind with
  | none, some rule => changes.create state kind host rule
  | some (observed, _), some rule =>
      if observed.rule ≠ rule then changes.update state kind host observed rule else changes
  | some (observed, position), none => changes.delete state kind host position observed
  | none, none => changes

/-- The kinds a zone's rules are compared for: without the permission to read Cache Rules the
cache phase is unknown and left alone. -/
def EdgeState.kinds (state : EdgeState) : List RuleKind :=
  RuleKind.perHostname.filter fun kind => kind != .bypassCache || state.cacheReadable

/-- What happens to `hostname`'s own rules. -/
def hostnameChanges [External] (state : EdgeState) (hostname : Hostname)
    (protection : EdgeProtection) : Changes :=
  state.kinds.foldl (kindChange state hostname (hostnameRules hostname protection)) {}

/-- The shared rate limit `host` is in. -/
def EdgeState.groupOf (state : EdgeState) (host : String) : Option RateLimitGroup :=
  state.rateLimits.find? fun g => host ∈ g.hosts

/-- Why the zone's plan has no such limit. -/
def limitRefused (state : EdgeState) (spec : RateLimitSpec) : Option PlanError :=
  if !state.plan.limits.hostRateLimit then some (.edgeRateLimitNeedsPro state.zone)
  else if spec.period > state.plan.limits.longestPeriod then
    some (.edgeRateLimitPeriod state.zone state.plan.limits.longestPeriod)
  else none

/-- Takes `host` out of the rule it is in; the rule goes when nobody is left in it. -/
def leaveGroup (state : EdgeState) (host : String) (changes : Changes) :
    Option RateLimitGroup → Changes
  | none => changes
  | some g =>
      let rest := g.hosts.erase host
      if rest.isEmpty then changes.delete state .rateLimit g.hosts.toList g.position g.rule
      else changes.update state .rateLimit rest.toList g.rule (rateLimitRule g.spec rest)

/-- Why there is no room for another rate limit rule: another limit holds it. -/
def limitConflict (state : EdgeState) (host : String) (current : Option RateLimitGroup) :
    PlanError :=
  let others := state.rateLimits.find? fun g => some g.rule.id ≠ current.map (·.rule.id)
  let remaining := (current.map fun g => (g.spec, g.hosts.erase host)).filter
    fun (_, rest) => !rest.isEmpty
  match (others.map fun g => (g.spec, g.hosts)).orElse fun _ => remaining with
  | some (other, hosts) =>
      .edgeRateLimitConflict state.zone (String.intercalate ", " hosts.toList) other.requests
        other.period
  | none => .edgeQuotaFull .rateLimit state.zone (QuotaKind.rateLimit.limit state.plan)

/-- Puts `host` into the shared rate limit with `spec`: the rule that has it already, or a new
one. -/
def joinGroup (state : EdgeState) (host : String) (spec : RateLimitSpec)
    (current : Option RateLimitGroup) (changes : Changes) : Except PlanError Changes :=
  match state.rateLimits.find? fun g =>
      g.spec = spec && some g.rule.id ≠ current.map (·.rule.id) with
  | some g =>
      let hosts := g.hosts.insert host
      .ok (changes.update state .rateLimit hosts.toList g.rule (rateLimitRule spec hosts))
  | none =>
      let freed := if current.any fun g => (g.hosts.erase host).isEmpty then 1 else 0
      if state.used .rateLimit - freed ≥ QuotaKind.rateLimit.limit state.plan then
        .error (limitConflict state host current)
      else
        let hosts := SortedSet.ofList [host]
        .ok (changes.create state .rateLimit hosts.toList (rateLimitRule spec hosts))

/-- Moves `hostname` into the shared rate limit with `wanted` (or out of every one). -/
def rateLimit (state : EdgeState) (hostname : Hostname) (wanted : Option RateLimitSpec)
    (changes : Changes) : Except PlanError Changes :=
  let host := hostname.asStr
  let current := state.groupOf host
  if current.map RateLimitGroup.spec = wanted then .ok changes
  else match wanted with
    | none => .ok (leaveGroup state host changes current)
    | some spec =>
        match limitRefused state spec with
        | some refusal => .error refusal
        | none => joinGroup state host spec current (leaveGroup state host changes current)

/-- Rules counted towards `quota` after the changes. -/
def usedAfter (state : EdgeState) (changes : Changes) (quota : QuotaKind) : ℕ :=
  ((state.used quota : ℤ) + changes.delta quota).toNat

/-- Checks each quota the changes touch, and tells how much of it is used afterwards. -/
def checkQuotas (state : EdgeState) (changes : Changes) :
    List QuotaKind → Builder → Except PlanError Builder
  | [], b => .ok b
  | quota :: rest, b =>
      if !changes.touches quota then checkQuotas state changes rest b
      else
        let limit := quota.limit state.plan
        let used := usedAfter state changes quota
        if changes.delta quota > 0 ∧ used > limit then
          .error (.edgeQuotaFull quota state.zone limit)
        else checkQuotas state changes rest (b.warn (.edgeQuota quota state.zone used limit))

/-- Everything that changes when the edge comes to enforce `protection` for `hostname`. -/
def protectChanges [External] (state : EdgeState) (hostname : Hostname)
    (protection : EdgeProtection) : Except PlanError Changes :=
  rateLimit state hostname protection.rateLimit (hostnameChanges state hostname protection)

/-- Makes the edge enforce `protection` for `hostname`. -/
def protectEdge [External] (s : Snapshot) (b : Builder) (hostname : Hostname)
    (protection : EdgeProtection) : Except PlanError Builder := do
  let zoneId ← s.zoneId hostname
  match s.edgeIn zoneId with
  | none => throw (.noZone hostname.asStr)
  | some state =>
      let changes ← protectChanges state hostname protection
      let b ← checkQuotas state changes QuotaKind.all b
      return b.extend changes.steps

/-! ## Service tokens -/

/-- The account's service tokens observed. -/
def Snapshot.tokens (s : Snapshot) : List ObservedServiceToken :=
  s.serviceTokens.getD []

/-- The token with an id, if it is owned. -/
def ownToken (s : Snapshot) (tokenId : String) : Except PlanError ObservedServiceToken :=
  match s.tokens.find? fun t => t.id == tokenId with
  | none => .error (.noSuchServiceToken tokenId)
  | some token => if token.owned then .ok token else .error (.serviceTokenNotOwned token.name)

/-- Creates a token and lets it through the hostname's login. -/
def createToken (s : Snapshot) (b : Builder) (hostname : Hostname) (label : String) :
    Except PlanError Builder := do
  let label := trim label
  refuseIf (label = "" ∨ label.length > 40 ∨ label.toList.any isControl) .invalidTokenLabel
  let _ ← s.zoneId hostname
  refuseIf (s.tokens.length ≥ MAX_SERVICE_TOKENS) (.serviceTokenLimit MAX_SERVICE_TOKENS)
  let name := serviceTokenName hostname label
  refuseIf (s.tokens.any fun t => decide (SameText t.name name)) (.serviceTokenExists label)
  let domain := hostname.asStr
  let create := Step.createServiceToken domain name
  match s.access.bind fun a => a.app domain with
  | some app =>
      refuseIf (app.owned = false) (.accessAppExists domain)
      return (b.push create).push
        (.allowServiceToken domain (some (app.id, app.definition)) .created)
  | none =>
      refuseIf ((s.access.bind AccessState.organization) = some false) .zeroTrustNotSetUp
      return ((b.warn (.machineOnly domain)).push create).push
        (.allowServiceToken domain none .created)

/-- Takes a token out of the hostname's login, then deletes it. -/
def revokeToken (s : Snapshot) (b : Builder) (hostname : Hostname) (tokenId : String) :
    Except PlanError Builder := do
  let token ← ownToken s tokenId
  let b := match (s.ownedApp hostname.asStr).filter fun a =>
      (serviceTokensOf a.definition).contains token.id with
    | none => b
    | some app =>
        let without := withoutServiceToken app.definition token.id
        if without.policies = [] then b.push (.deleteAccessApp app.id app.definition)
        else b.push (.updateAccessApp app.id without app.definition)
  return b.push (.deleteServiceToken token)

/-- Gives a token a new secret. -/
def rotateToken (s : Snapshot) (b : Builder) (tokenId : String) : Except PlanError Builder := do
  let token ← ownToken s tokenId
  return b.push (.rotateServiceToken token)

end Teitunnel
