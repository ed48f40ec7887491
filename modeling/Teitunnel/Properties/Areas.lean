import Teitunnel.Lib.Runs
import Teitunnel.Simulate

/-!
# Areas

Each step belongs to one area: the part of the account it changes.  Applying a step leaves the
other parts alone (`applyTo_tunnel` and its siblings), and each operation of the planner appends
steps of its own areas only (`Builder.Appends`).  So what a plan does to one part is read off
the steps of that part.
-/

namespace Teitunnel

open Except

/-- The part of the account a step changes. -/
inductive Area where
  | tunnel
  | dns
  | login
  | token
  | network
  | balance
  | site
  | edge
  | front
  | database
  /-- Nothing at Cloudflare. -/
  | check
  deriving DecidableEq, Repr

/-- The part a step changes. -/
def Step.area : Step → Area
  | createTunnel .. | putConfig .. | deleteTunnel .. => .tunnel
  | createRecord .. | updateRecord .. | deleteRecord .. | createReservation ..
  | setLease .. => .dns
  | addLoginMethod | createAccessApp .. | updateAccessApp .. | deleteAccessApp ..
  | allowServiceToken .. => .login
  | createServiceToken .. | deleteServiceToken .. | rotateServiceToken .. => .token
  | createNetworkRoute .. | deleteNetworkRoute .. | createHostnameRoute ..
  | deleteHostnameRoute .. => .network
  | createLbMonitor .. | createLbPool .. | updateLbPool .. | createLoadBalancer ..
  | deleteLoadBalancer .. | deleteLbPool .. | deleteLbMonitor .. => .balance
  | uploadSnapshotFiles .. | createSnapshotWorker .. | publishSnapshotVersion ..
  | rollBackSnapshot .. | enableWorkersDev .. | disableWorkersDev .. | attachSnapshotDomain ..
  | detachSnapshotDomain .. | deleteSnapshotWorker .. => .site
  | createEdgeRule .. | updateEdgeRule .. | deleteEdgeRule .. => .edge
  | putFrontWorker .. | createWorkerRoute .. | deleteWorkerRoute .. | deleteFrontWorker .. =>
      .front
  | createDatabase .. => .database
  | verify .. | stopConnector .. => .check

/-- The steps that change nothing are the checks. -/
lemma Step.isMutation_iff {step : Step} : step.isMutation ↔ step.area ≠ .check := by
  cases step <;> simp [Step.isMutation, Step.area]

/-! ## A step leaves the other areas alone -/

section frame

variable [External] {ids : Ids} {n : ℕ} {s : Snapshot} {step : Step}

lemma applyTo_tunnel (h : step.area ≠ .tunnel) : (applyTo ids n s step).tunnel = s.tunnel := by
  cases step with
  | updateRecord => simp only [applyTo, applyUpdateRecord]; split <;> rfl
  | createTunnel | putConfig | deleteTunnel => exact absurd rfl h
  | _ => rfl

lemma applyTo_records (h : step.area ≠ .dns) : (applyTo ids n s step).records = s.records := by
  cases step with
  | createRecord | updateRecord | deleteRecord | createReservation | setLease =>
      exact absurd rfl h
  | _ => rfl

lemma applyTo_held (h : step.area ≠ .dns) : (applyTo ids n s step).held = s.held := by
  cases step with
  | createRecord | updateRecord | deleteRecord | createReservation | setLease =>
      exact absurd rfl h
  | _ => rfl

lemma applyTo_access (h : step.area ≠ .login) : (applyTo ids n s step).access = s.access := by
  cases step with
  | updateRecord => simp only [applyTo, applyUpdateRecord]; split <;> rfl
  | addLoginMethod | createAccessApp | updateAccessApp | deleteAccessApp | allowServiceToken =>
      exact absurd rfl h
  | _ => rfl

lemma applyTo_edge (h : step.area ≠ .edge) : (applyTo ids n s step).edge = s.edge := by
  cases step with
  | updateRecord => simp only [applyTo, applyUpdateRecord]; split <;> rfl
  | createEdgeRule | updateEdgeRule | deleteEdgeRule => exact absurd rfl h
  | _ => rfl

lemma applyTo_serviceTokens (h : step.area ≠ .token) :
    (applyTo ids n s step).serviceTokens = s.serviceTokens := by
  cases step with
  | updateRecord => simp only [applyTo, applyUpdateRecord]; split <;> rfl
  | createServiceToken | deleteServiceToken | rotateServiceToken => exact absurd rfl h
  | _ => rfl

lemma applyTo_networks (h : step.area ≠ .network) :
    (applyTo ids n s step).networks = s.networks := by
  cases step with
  | updateRecord => simp only [applyTo, applyUpdateRecord]; split <;> rfl
  | createNetworkRoute | deleteNetworkRoute | createHostnameRoute | deleteHostnameRoute =>
      exact absurd rfl h
  | _ => rfl

lemma applyTo_balance (h : step.area ≠ .balance) :
    (applyTo ids n s step).balance = s.balance := by
  cases step with
  | updateRecord => simp only [applyTo, applyUpdateRecord]; split <;> rfl
  | createLbMonitor | createLbPool | updateLbPool | createLoadBalancer | deleteLoadBalancer
  | deleteLbPool | deleteLbMonitor => exact absurd rfl h
  | _ => rfl

lemma applyTo_front (h : step.area ≠ .front) : (applyTo ids n s step).front = s.front := by
  cases step with
  | updateRecord => simp only [applyTo, applyUpdateRecord]; split <;> rfl
  | putFrontWorker | createWorkerRoute | deleteWorkerRoute | deleteFrontWorker =>
      exact absurd rfl h
  | _ => rfl

/-- No step changes the zones, the other tunnels' routes, the owner or the time. -/
lemma applyTo_rest : (applyTo ids n s step).zones = s.zones ∧
    (applyTo ids n s step).elsewhere = s.elsewhere ∧
    (applyTo ids n s step).owner = s.owner ∧ (applyTo ids n s step).now = s.now ∧
    (applyTo ids n s step).machineName = s.machineName ∧
    (applyTo ids n s step).tunnelNames = s.tunnelNames := by
  cases step with
  | updateRecord =>
      simp only [applyTo, applyUpdateRecord]
      split <;> exact ⟨rfl, rfl, rfl, rfl, rfl, rfl⟩
  | _ => exact ⟨rfl, rfl, rfl, rfl, rfl, rfl⟩

end frame

/-! ## What the planner appends -/

namespace Builder

/-- `b'` goes on from `b` with steps of these areas. -/
def Appends (areas : List Area) (b b' : Builder) : Prop :=
  ∃ l, b'.steps = b.steps ++ l ∧ ∀ step ∈ l, step.area ∈ areas

namespace Appends

variable {areas areas' : List Area} {a b c : Builder}

@[refl] lemma refl (b : Builder) : Appends areas b b :=
  ⟨[], by simp, by simp⟩

lemma of_steps_eq (h : b.steps = a.steps) : Appends areas a b :=
  ⟨[], by simp [h], by simp⟩

lemma trans (h : Appends areas a b) (h' : Appends areas b c) : Appends areas a c := by
  obtain ⟨l, hl, hP⟩ := h
  obtain ⟨l', hl', hP'⟩ := h'
  refine ⟨l ++ l', by rw [hl', hl, List.append_assoc], ?_⟩
  intro step hstep
  exact (List.mem_append.mp hstep).elim (hP step) (hP' step)

lemma mono (h : Appends areas a b) (hsub : areas ⊆ areas') : Appends areas' a b := by
  obtain ⟨l, hl, hP⟩ := h
  exact ⟨l, hl, fun step hstep => hsub (hP step hstep)⟩

lemma push {step : Step} (h : areas.contains step.area = true) :
    Appends areas b (b.push step) :=
  ⟨[step], rfl, by simpa using h⟩

lemma extend {l : List Step} (h : ∀ step ∈ l, step.area ∈ areas) :
    Appends areas b (b.extend l) :=
  ⟨l, rfl, h⟩

/-- A list of steps made one from each element of another list. -/
lemma extend_map {α : Type*} {f : α → Step} {l : List α}
    (h : ∀ a, areas.contains (f a).area = true) : Appends areas b (b.extend (l.map f)) := by
  refine extend fun step hstep => ?_
  obtain ⟨x, _, rfl⟩ := List.mem_map.mp hstep
  simpa using h x

/-- A fold whose every round appends, appends. -/
lemma foldl {α : Type*} {f : Builder → α → Builder} {l : List α}
    (h : ∀ a ∈ l, ∀ b, Appends areas b (f b a)) : Appends areas b (l.foldl f b) := by
  induction l generalizing b with
  | nil => exact refl b
  | cons a l ih =>
      rw [List.foldl_cons]
      exact (h a List.mem_cons_self b).trans
        (ih fun c hc => h c (List.mem_cons_of_mem a hc))

end Appends

/-- The steps of one area. -/
def only (area : Area) (b : Builder) : List Step :=
  b.steps.filter fun step => step.area = area

/-- Steps of other areas don't count. -/
lemma Appends.only_eq {areas : List Area} {b b' : Builder} (h : Appends areas b b') {area : Area}
    (hne : area ∉ areas) : b'.only area = b.only area := by
  obtain ⟨l, hl, hstep⟩ := h
  have hnil : l.filter (fun step => step.area = area) = [] :=
    List.filter_eq_nil_iff.mpr fun step hmem => by
      simpa using fun heq : step.area = area => hne (heq ▸ hstep step hmem)
  rw [only, hl, List.filter_append, hnil, List.append_nil, only]

@[simp] lemma only_empty (area : Area) : only area {} = [] := rfl

lemma only_push (area : Area) (b : Builder) (step : Step) :
    (b.push step).only area = b.only area ++ (if step.area = area then [step] else []) := by
  rw [only, push_steps, List.filter_append, ← only]
  congr 1
  by_cases h : step.area = area <;> simp [h]

lemma only_extend (area : Area) (b : Builder) (l : List Step) :
    (b.extend l).only area = b.only area ++ l.filter fun step => step.area = area := by
  rw [only, extend_steps, List.filter_append, ← only]

/-! ### DNS and load balancing -/

variable {s : Snapshot} {b b' : Builder}

lemma takeOver_steps (hostname : String) : (b.takeOver s hostname).steps = b.steps := by
  unfold takeOver
  split
  · rfl
  · dsimp only; split <;> rfl

lemma flagForeign_steps (record : ObservedRecord) : (b.flagForeign record).steps = b.steps := by
  unfold flagForeign
  split <;> rfl

lemma remoteOriginWarning_steps (route : RouteSpec) :
    (b.remoteOriginWarning route).steps = b.steps := by
  unfold remoteOriginWarning
  split <;> rfl

lemma dropExtras_appends (zoneId : String) (extras : List ObservedRecord) :
    Appends [.dns] b (b.dropExtras zoneId extras) := by
  refine Appends.foldl fun extra _ b => ?_
  exact (Appends.of_steps_eq (flagForeign_steps extra)).trans (Appends.push rfl)

lemma ensureDns_appends {hostname : Hostname} {tunnel : TunnelRef} {routeId : String}
    (h : b.ensureDns s hostname tunnel routeId = .ok b') : Appends [.dns] b b' := by
  simp only [ensureDns, bind_eq_ok] at h
  obtain ⟨zoneId, -, h⟩ := h
  have hb : Appends [.dns] b (b.takeOver s hostname.asStr) :=
    Appends.of_steps_eq (takeOver_steps _)
  split at h
  · cases h
    exact hb.trans (Appends.push rfl)
  · split at h
    · cases h; exact hb
    · cases h
      refine hb.trans (Appends.trans ?_ (dropExtras_appends _ _))
      exact (Appends.of_steps_eq (flagForeign_steps _)).trans (Appends.push rfl)

lemma restore_appends (record : ObservedRecord) : Appends [.dns] b (b.restore s record) := by
  unfold restore
  split
  · exact Appends.refl b
  · split
    · exact Appends.push rfl
    · exact Appends.refl b

lemma releaseDns_appends (hostname tunnelId : String) :
    Appends [.dns] b (b.releaseDns s hostname tunnelId) := by
  refine Appends.foldl fun record _ b => ?_
  split
  · have hdelete : Appends [.dns] b (b.push (.deleteRecord record.zoneId record.record)) :=
      Appends.push rfl
    exact hdelete.trans (restore_appends record)
  · exact Appends.of_steps_eq rfl

lemma syncPool_appends (hostname : String) (endpoints : List PoolEndpoint) :
    Appends [.balance] b (b.syncPool s hostname endpoints).2 := by
  unfold syncPool
  split
  · exact Appends.refl b
  · split
    rename_i state monitor b₁ hm
    have hb : Appends [.balance] b b₁ := by
      split at hm
      · cases hm; exact Appends.refl b
      · cases hm; exact Appends.push rfl
    split
    · split
      · exact hb
      · exact hb.trans (Appends.push rfl)
    · exact hb.trans (Appends.push rfl)

lemma unbalance_appends : Appends [.balance] b (b.unbalance s) := by
  unfold unbalance
  split
  · exact Appends.refl b
  · refine Appends.extend fun step hstep => ?_
    simp only [List.mem_append, Option.mem_toList, Option.map_eq_some_iff] at hstep
    rcases hstep with (⟨_, _, rfl⟩ | ⟨_, _, rfl⟩) | ⟨_, _, rfl⟩ <;> simp [Step.area]

lemma serve_appends {hostname : Hostname} {tunnel : TunnelRef} {routeId : String}
    (h : b.serve s hostname tunnel routeId = .ok b') : Appends [.dns, .balance] b b' := by
  unfold serve at h
  split at h
  · cases h
    exact (syncPool_appends _ _).mono (by simp)
  · exact (ensureDns_appends h).mono (by simp)

/-! ### Logins -/

lemma closeBypass_appends (domain : String) : Appends [.login] b (b.closeBypass s domain) := by
  unfold closeBypass
  split
  · exact Appends.push rfl
  · exact Appends.refl b

lemma closeAll_appends (domain : String) (paths : List String) :
    Appends [.login] b (b.closeAll s domain paths) :=
  Appends.foldl fun path _ _ => closeBypass_appends (domain ++ path)

lemma unprotect_appends (domain : String) : Appends [.login] b (b.unprotect s domain) := by
  have hb : Appends [.login] b (b.closeBypasses s domain) := closeAll_appends domain _
  unfold unprotect
  dsimp only
  split
  · exact hb.trans (Appends.push rfl)
  · exact hb

lemma dropLogin_appends (domain : String) : Appends [.login] b (b.dropLogin s domain) := by
  unfold dropLogin
  split
  · exact Appends.refl b
  · split
    · exact unprotect_appends domain
    · exact (closeAll_appends domain _).trans (Appends.push rfl)

lemma openBypasses_appends {domain : String} {paths : List String}
    (h : openBypasses s domain paths b = .ok b') : Appends [.login] b b' := by
  induction paths generalizing b with
  | nil => cases h; exact Appends.refl _
  | cons path rest ih =>
      rw [openBypasses] at h
      split at h
      · cases h
      · have hopen : Appends [.login] b
            (b.push (.createAccessApp (bypassDefinition (domain ++ path)))) := Appends.push rfl
        exact hopen.trans (ih h)

lemma bypass_appends {domain : String} {paths : List String}
    (h : b.bypass s domain paths = .ok b') : Appends [.login] b b' := by
  simp only [bypass, bind_eq_ok, pure_eq_ok] at h
  obtain ⟨b₁, hopen, rfl⟩ := h
  exact (openBypasses_appends hopen).trans (closeAll_appends domain _)

lemma createLogin_appends {domain : String} {rule : AccessRule} {method : Option LoginMethod}
    (h : b.createLogin s domain rule method = .ok b') : Appends [.login] b b' := by
  unfold createLogin at h
  split at h
  · cases h
  · simp only [Except.ok.injEq] at h
    subst h
    split
    · have hmethod : Appends [.login] b (b.push .addLoginMethod) := Appends.push rfl
      exact hmethod.trans (Appends.push rfl)
    · exact Appends.push rfl

lemma requireLogin_appends {domain : String} {rule : AccessRule} {method : Option LoginMethod}
    (h : b.requireLogin s domain rule method = .ok b') : Appends [.login] b b' := by
  unfold requireLogin at h
  split at h
  · exact createLogin_appends h
  · split at h
    · split at h
      · cases h; exact Appends.refl b
      · cases h; exact Appends.push rfl
    · split at h
      · cases h
      · cases h; exact Appends.refl b

/-- The parts of `protect`: the login method, the application, the paths that skip it. -/
lemma protect_ok {domain : String} {rule : AccessRule} (h : b.protect s domain rule = .ok b') :
    ∃ method b₁, loginMethod rule.signIn ((methodsOf s).getD []) = .ok method ∧
      b.requireLogin s domain rule method = .ok b₁ ∧
      b₁.bypass s domain rule.bypass = .ok b' := by
  simp only [protect, bind_eq_ok, mapError_eq_ok] at h
  obtain ⟨method, hmethod, b₁, hlogin, hbypass⟩ := h
  exact ⟨method, b₁, hmethod, hlogin, hbypass⟩

lemma protect_appends {domain : String} {rule : AccessRule}
    (h : b.protect s domain rule = .ok b') : Appends [.login] b b' := by
  obtain ⟨_, _, _, hlogin, hbypass⟩ := protect_ok h
  exact (requireLogin_appends hlogin).trans (bypass_appends hbypass)

lemma verifyRoute_appends (route : RouteSpec) : Appends [.check] b (b.verifyRoute route) := by
  unfold verifyRoute
  split
  · exact Appends.push rfl
  · exact Appends.refl b

end Builder

/-! ### Edge rules, front Workers and tokens -/

section edge

open Builder

/-- The step adds a rule of some kind to that kind's phase. -/
def CreatesRule (state : EdgeState) (step : Step) : Prop :=
  ∃ kind hosts rule,
    step = .createEdgeRule state.zoneId kind.phase (state.rulesetId kind.phase) kind hosts rule

/-- The step changes a rule of some kind. -/
def UpdatesRule (state : EdgeState) (step : Step) : Prop :=
  ∃ (kind : RuleKind) (hosts : _) (observed : ObservedRule) (rule : NewRule),
    step = .updateEdgeRule state.zoneId ((state.rulesetId kind.phase).getD "") observed.id kind
      hosts rule observed.rule

/-- The step removes a rule of some kind, found at this position, from that kind's phase. -/
def DeletesRule (state : EdgeState) (d : ℕ × Step) : Prop :=
  ∃ (kind : RuleKind) (hosts : _) (observed : ObservedRule),
    d.2 = .deleteEdgeRule state.zoneId kind.phase ((state.rulesetId kind.phase).getD "")
      observed.id kind hosts observed.rule d.1

/-- Every change is listed with its kind. -/
structure Changes.Filed (state : EdgeState) (c : Changes) : Prop where
  creates : ∀ step ∈ c.creates, CreatesRule state step
  updates : ∀ step ∈ c.updates, UpdatesRule state step
  deletes : ∀ d ∈ c.deletes, DeletesRule state d

variable {state : EdgeState} {c c' : Changes} {kind : RuleKind} {hosts : List String}

namespace Changes.Filed

lemma create {rule : NewRule} (h : c.Filed state) :
    (c.create state kind hosts rule).Filed state := by
  refine ⟨?_, h.updates, h.deletes⟩
  intro step hstep
  rcases List.mem_append.mp hstep with hstep | hstep
  · exact h.creates step hstep
  · exact ⟨kind, hosts, rule, List.mem_singleton.mp hstep⟩

lemma update {observed : ObservedRule} {rule : NewRule} (h : c.Filed state) :
    (c.update state kind hosts observed rule).Filed state := by
  refine ⟨h.creates, ?_, h.deletes⟩
  intro step hstep
  rcases List.mem_append.mp hstep with hstep | hstep
  · exact h.updates step hstep
  · exact ⟨kind, hosts, observed, rule, List.mem_singleton.mp hstep⟩

lemma delete {position : ℕ} {observed : ObservedRule} (h : c.Filed state) :
    (c.delete state kind hosts position observed).Filed state := by
  refine ⟨h.creates, h.updates, ?_⟩
  intro d hd
  rcases List.mem_append.mp hd with hd | hd
  · exact h.deletes d hd
  · rw [List.mem_singleton.mp hd]
    exact ⟨kind, hosts, observed, rfl⟩

lemma mem_sortedDeletes {c : Changes} {d : ℕ × Step} : d ∈ c.sortedDeletes ↔ d ∈ c.deletes :=
  (List.perm_insertionSort _ _).mem_iff

lemma area_steps (h : c.Filed state) : ∀ step ∈ c.steps, step.area = .edge := by
  intro step hstep
  simp only [Changes.steps, List.mem_append] at hstep
  rcases hstep with (hstep | hstep) | hstep
  · obtain ⟨_, _, _, rfl⟩ := h.creates step hstep
    rfl
  · obtain ⟨_, _, _, _, rfl⟩ := h.updates step hstep
    rfl
  · obtain ⟨d, hd, rfl⟩ := List.mem_map.mp hstep
    obtain ⟨_, _, _, heq⟩ := h.deletes d (mem_sortedDeletes.mp hd)
    rw [heq]
    rfl

end Changes.Filed

variable [External] {hostname : Hostname}

lemma kindChange_filed {desired : List (RuleKind × NewRule)} (h : c.Filed state) :
    (kindChange state hostname desired c kind).Filed state := by
  unfold kindChange
  dsimp only
  split
  · exact h.create
  · split
    · exact h.update
    · exact h
  · exact h.delete
  · exact h

lemma hostnameChanges_filed {protection : EdgeProtection} :
    (hostnameChanges state hostname protection).Filed state := by
  have h : ∀ (kinds : List RuleKind) (c : Changes), c.Filed state →
      (kinds.foldl (kindChange state hostname (hostnameRules hostname protection)) c).Filed state := by
    intro kinds
    induction kinds with
    | nil => exact fun c hc => hc
    | cons kind rest ih => exact fun c hc => ih _ (kindChange_filed hc)
  exact h _ _ ⟨by simp, by simp, by simp⟩

omit [External] in
lemma leaveGroup_filed {host : String} {current : Option RateLimitGroup} (h : c.Filed state) :
    (leaveGroup state host c current).Filed state := by
  unfold leaveGroup
  split
  · exact h
  · dsimp only
    split
    · exact h.delete
    · exact h.update

omit [External] in
lemma joinGroup_filed {host : String} {spec : RateLimitSpec} {current : Option RateLimitGroup}
    (h : c.Filed state) (hc : joinGroup state host spec current c = .ok c') : c'.Filed state := by
  unfold joinGroup at hc
  split at hc
  · cases hc; exact h.update
  · dsimp only at hc
    split_ifs at hc <;> cases hc <;> exact h.create

omit [External] in
lemma rateLimit_filed {wanted : Option RateLimitSpec} (h : c.Filed state)
    (hc : rateLimit state hostname wanted c = .ok c') : c'.Filed state := by
  unfold rateLimit at hc
  dsimp only at hc
  split at hc
  · cases hc; exact h
  · split at hc
    · cases hc; exact leaveGroup_filed h
    · split at hc
      · cases hc
      · exact joinGroup_filed (leaveGroup_filed h) hc

omit [External] in
lemma checkQuotas_steps {quotas : List QuotaKind} {b b' : Builder}
    (h : checkQuotas state c quotas b = .ok b') : b'.steps = b.steps := by
  induction quotas generalizing b with
  | nil => cases h; rfl
  | cons quota rest ih =>
      simp only [checkQuotas] at h
      split at h
      · exact ih h
      · split at h
        · cases h
        · rw [ih h]; rfl

/-- What `protectEdge` appends: the steps of the changes it computes, within the quotas. -/
lemma protectEdge_ok {s : Snapshot} {b b' : Builder} {protection : EdgeProtection}
    (h : protectEdge s b hostname protection = .ok b') :
    ∃ zoneId state changes b₁, s.zoneId hostname = .ok zoneId ∧ s.edgeIn zoneId = some state ∧
      protectChanges state hostname protection = .ok changes ∧
      checkQuotas state changes QuotaKind.all b = .ok b₁ ∧ b' = b₁.extend changes.steps := by
  simp only [protectEdge, bind_eq_ok] at h
  obtain ⟨zoneId, hzone, h⟩ := h
  split at h
  · simp at h
  · rename_i state hstate
    simp only [bind_eq_ok, pure_eq_ok] at h
    obtain ⟨changes, hchanges, b₁, hquotas, rfl⟩ := h
    exact ⟨zoneId, state, changes, b₁, hzone, hstate, hchanges, hquotas, rfl⟩

lemma protectChanges_filed {protection : EdgeProtection}
    (h : protectChanges state hostname protection = .ok c) : c.Filed state :=
  rateLimit_filed hostnameChanges_filed h

lemma protectEdge_appends {s : Snapshot} {b b' : Builder} {protection : EdgeProtection}
    (h : protectEdge s b hostname protection = .ok b') : Appends [.edge] b b' := by
  obtain ⟨_, state, changes, b₁, -, -, hchanges, hquotas, rfl⟩ := protectEdge_ok h
  refine (Appends.of_steps_eq (checkQuotas_steps hquotas)).trans (Appends.extend ?_)
  intro step hstep
  rw [(protectChanges_filed hchanges).area_steps step hstep]
  exact List.mem_singleton_self _

omit [External] in
lemma removeFront_appends {s : Snapshot} {b b' : Builder} {name : String} {kind : FrontKind}
    {path : String} (h : removeFront s b name kind path = some b') : Appends [.front] b b' := by
  simp only [removeFront, Option.bind_eq_bind, Option.bind_eq_some_iff, Option.pure_def,
    Option.some.injEq] at h
  obtain ⟨state, -, front, -, rfl⟩ := h
  refine Appends.extend fun step hstep => ?_
  simp only [removeFrontSteps, List.mem_append, Option.mem_toList, Option.map_eq_some_iff,
    List.mem_singleton] at hstep
  rcases hstep with ⟨_, _, rfl⟩ | rfl <;> simp [Step.area]

omit [External] in
lemma removeAllFronts_appends {s : Snapshot} {b : Builder} {name : String} :
    Appends [.front] b (removeAllFronts s b name) := by
  unfold removeAllFronts
  split
  · exact Appends.refl b
  · refine Appends.foldl fun front _ b => ?_
    cases hf : removeFront s b name front.config.kind front.config.path with
    | none => exact Appends.refl b
    | some b' => exact removeFront_appends hf

lemma releaseWorkersAndRules_appends {s : Snapshot} {b b' : Builder}
    (h : releaseWorkersAndRules s b hostname = .ok b') : Appends [.front, .edge] b b' := by
  unfold releaseWorkersAndRules at h
  dsimp only at h
  have hb : Appends [.front, .edge] b (removeAllFronts s b hostname.asStr) :=
    removeAllFronts_appends.mono (by simp)
  split at h
  · exact hb.trans ((protectEdge_appends h).mono (by simp))
  · cases h; exact hb

lemma releaseHostname_appends {s : Snapshot} {b b' : Builder}
    (h : releaseHostname s b hostname = .ok b') : Appends [.front, .edge, .token] b b' := by
  simp only [releaseHostname, bind_eq_ok, pure_eq_ok] at h
  obtain ⟨b₁, hrelease, rfl⟩ := h
  exact ((releaseWorkersAndRules_appends hrelease).mono (by simp)).trans
    (Appends.extend_map fun _ => rfl)

end edge

/-! ### Routes -/

section routes

open Builder

variable {s : Snapshot} {b b' : Builder}

lemma protectRoute_appends {route : RouteSpec} {domain : Option String}
    (h : protectRoute s b route = .ok (domain, b')) : Appends [.login] b b' := by
  unfold protectRoute at h
  split at h
  · cases h; exact Appends.refl b
  · simp only [bind_eq_ok, pure_eq_ok, Prod.mk.injEq] at h
    obtain ⟨_, -, _, hprotect, -, rfl⟩ := h
    exact protect_appends hprotect

lemma dropOldLogin_appends {hostname : Hostname} {path : Option PathRule} {route : RouteSpec}
    {domain : Option String} : Appends [.login] b (dropOldLogin s b hostname path route domain) := by
  unfold dropOldLogin
  split
  · exact Appends.refl b
  · split
    · exact Appends.refl b
    · split
      · exact unprotect_appends _
      · exact dropLogin_appends _

lemma unprotectRoute_appends {hostname : Hostname} {path : Option PathRule} :
    Appends [.login] b (unprotectRoute s b hostname path) := by
  unfold unprotectRoute
  split
  · exact unprotect_appends _
  · exact Appends.refl b

lemma leaveBalanced_appends {hostname : Hostname} :
    Appends [.balance] b (leaveBalanced s b hostname).2 := by
  unfold leaveBalanced
  split
  · dsimp only
    split
    · exact unbalance_appends
    · exact syncPool_appends _ _
  · exact Appends.refl b

lemma releaseOldName_appends {hostname : Hostname} {path : Option PathRule} {route : RouteSpec}
    {tunnelId : String} : Appends [.dns] b (releaseOldName s b hostname path route tunnelId) := by
  unfold releaseOldName
  dsimp only
  split
  · exact releaseDns_appends _ _
  · exact Appends.refl b

lemma leaveHostname_appends {hostname : Hostname} {tunnelId : String} {stillUsed : Bool} :
    Appends [.dns, .balance] b (leaveHostname s b hostname tunnelId stillUsed).2 := by
  unfold leaveHostname
  split
  · exact Appends.refl b
  · exact ((releaseDns_appends _ _).mono (by simp)).trans (leaveBalanced_appends.mono (by simp))

lemma verifyEach_appends {routes : List RouteSpec} :
    Appends [.check] b (routes.foldl verifyRoute b) :=
  Appends.foldl fun route _ _ => verifyRoute_appends route

lemma ensureEachDns_appends {tunnel : TunnelRef} {routes : List RouteSpec}
    (h : ensureEachDns s tunnel routes b = .ok b') : Appends [.dns] b b' := by
  induction routes generalizing b with
  | nil => cases h; exact Appends.refl _
  | cons route rest ih =>
      simp only [ensureEachDns, bind_eq_ok] at h
      obtain ⟨b₁, hdns, hrest⟩ := h
      exact (ensureDns_appends hdns).trans (ih hrest)

lemma releaseServed_appends [External] {target hostname : String}
    (h : releaseServed s target b hostname = .ok b') : Appends [.front, .edge] b b' := by
  unfold releaseServed at h
  split at h
  · cases h; exact Appends.refl b
  · split at h
    · exact releaseWorkersAndRules_appends h
    · cases h; exact Appends.refl b

lemma releaseEach_appends [External] {target : String} {hostnames : List String}
    (h : releaseEach s target hostnames b = .ok b') : Appends [.front, .edge] b b' := by
  induction hostnames generalizing b with
  | nil => cases h; exact Appends.refl _
  | cons hostname rest ih =>
      simp only [releaseEach, List.foldlM_cons, bind_eq_ok] at h
      obtain ⟨b₁, hserved, hrest⟩ := h
      exact (releaseServed_appends hserved).trans (ih hrest)

end routes

/-! ## Finished plans -/

section finished

variable [External] {s : Snapshot} {intent : Intent} {p : Plan}

/-- The steps of a plan in one area, as the builder appended them. -/
lemma plan_only (h : plan intent s = .ok p) :
    ∃ b, build s {} intent = .ok b ∧ ∀ area, area ≠ .check →
      (p.steps.filter fun step => step.area = area) = b.only area := by
  simp only [plan, map_eq_ok] at h
  obtain ⟨b, hb, rfl⟩ := h
  refine ⟨b, hb, fun area harea => ?_⟩
  simp only [Builder.finish, Builder.only]
  split_ifs with hany
  · rfl
  · -- a plan of checks only is empty, and none of its checks are in another area
    have hnone : ∀ step ∈ b.steps, ¬ (decide (step.area = area)) = true := by
      intro step hstep heq
      have hmut : step.isMutation := Step.isMutation_iff.mpr (by
        rw [of_decide_eq_true heq]; exact harea)
      exact hany (List.any_eq_true.mpr ⟨step, hstep, hmut⟩)
    rw [List.filter_eq_nil_iff.mpr hnone, List.filter_nil]

end finished

end Teitunnel
