import Teitunnel.Properties.Branches
import Teitunnel.Reference

/-!
# The tunnel's rules over whole runs

A run starts on a machine without a tunnel and applies plans one after the other.  Its rules are
well formed in every state (`ingress_wellFormed_of_run`) as long as no edit gives a route the
path of another route of its hostname (`Intent.OverwritesRoute`): that edit alone is planned
without asking whether the place is taken, and `overwriting_breaks_ingress` runs it.

Every plan leaves the tunnel in one of three ways: without rules, as it was, or with rules that
`sortIngress` made (`TunnelChange`).  Sorting takes care of the order and the catch-all, so each
branch of the planner owes one fact only: that no two of the rules it sorts are for one place.
-/

namespace Teitunnel

open Text Except Builder

/-! ## Well-formed rules -/

namespace IngressRule

/-- The rule is for every name under a domain. -/
def IsWildcard (r : IngressRule) : Prop := ∃ h, r.hostname = some h ∧ StartsWith "*" h

/-- The length of the rule's path (a rule without one answers for all). -/
def pathLength (r : IngressRule) : ℕ := (r.path.map String.utf8ByteSize).getD 0

end IngressRule

/-- `a` stands before `b`: exact hostnames before wildcards, then longer paths before shorter. -/
def MoreSpecific (a b : IngressRule) : Prop :=
  (a.IsWildcard → b.IsWildcard) ∧ ((a.IsWildcard ↔ b.IsWildcard) → b.pathLength ≤ a.pathLength)

/-- The rules of a tunnel that has any: routes in order of specificity, each for a place of its
own, and a catch-all after them. -/
structure IngressWellFormed (ingress : List IngressRule) : Prop where
  catchAllLast : ∃ routes last, ingress = routes ++ [last] ∧
    last.hostname = none ∧ last.service = CATCH_ALL ∧
    (∀ r ∈ routes, r.hostname ≠ none) ∧ routes.Pairwise MoreSpecific
  distinct : (ingress.map IngressRule.key).Nodup

/-! ## Sorting -/

instance : Std.Total SpecificLE where
  total a b := by
    simp only [SpecificLE]
    omega

instance : IsTrans IngressRule SpecificLE where
  trans a b c hab hbc := by
    simp only [SpecificLE] at hab hbc ⊢
    omega

lemma specificity_wildcard {r : IngressRule} :
    (specificity r).2.1 = if r.hostname.any (fun h => decide (StartsWith "*" h)) then 1 else 0 :=
  rfl

lemma isWildcard_iff {r : IngressRule} : r.IsWildcard ↔ (specificity r).2.1 = 1 := by
  rw [specificity_wildcard]
  cases hr : r.hostname with
  | none => simp [IngressRule.IsWildcard, hr]
  | some h => simp [IngressRule.IsWildcard, hr]

lemma specificity_le_one (r : IngressRule) : (specificity r).2.1 ≤ 1 := by
  rw [specificity_wildcard]
  split <;> omega

lemma pathLength_le {a b : IngressRule} (h : (specificity b).2.2 ≤ (specificity a).2.2) :
    b.pathLength ≤ a.pathLength := by
  simp only [specificity] at h
  cases ha : a.path with
  | none =>
      cases hb : b.path with
      | none => simp [IngressRule.pathLength, ha, hb]
      | some p => rw [ha, hb] at h; exact absurd h (by simp)
  | some q =>
      cases hb : b.path with
      | none => simp [IngressRule.pathLength, hb]
      | some p =>
          rw [ha, hb] at h
          simpa [IngressRule.pathLength, ha, hb] using h

/-- Among rules with a hostname, the sort's order is the one promised. -/
lemma SpecificLE.moreSpecific {a b : IngressRule} (ha : a.hostname ≠ none)
    (hb : b.hostname ≠ none) (h : SpecificLE a b) : MoreSpecific a b := by
  have hfst : ∀ r : IngressRule, r.hostname ≠ none → (specificity r).1 = 0 :=
    fun r hr => if_neg hr
  have hle : (specificity a).2.1 < (specificity b).2.1 ∨
      (specificity a).2.1 = (specificity b).2.1 ∧ (specificity b).2.2 ≤ (specificity a).2.2 := by
    simp only [SpecificLE, hfst a ha, hfst b hb] at h
    omega
  have hb1 := specificity_le_one b
  refine ⟨fun hw => ?_, fun hiff => ?_⟩
  · rw [isWildcard_iff] at hw ⊢
    omega
  · rw [isWildcard_iff, isWildcard_iff] at hiff
    rcases hle with hlt | ⟨-, hpath⟩
    · omega
    · exact pathLength_le hpath

/-- The routes among some rules. -/
def routesOf (rules : List IngressRule) : List IngressRule :=
  rules.filter fun rule => rule.hostname.isSome

lemma mem_sorted_routes {rules : List IngressRule} {r : IngressRule}
    (h : r ∈ (routesOf rules).insertionSort SpecificLE) : r.hostname ≠ none := by
  have hmem : r ∈ routesOf rules := (List.perm_insertionSort _ _).mem_iff.mp h
  exact Option.isSome_iff_ne_none.mp (List.mem_filter.mp hmem).2

/-- Sorted rules are well formed when no two routes are for one place. -/
lemma sortIngress_wellFormed {rules : List IngressRule}
    (h : ((routesOf rules).map IngressRule.key).Nodup) :
    IngressWellFormed (sortIngress rules) := by
  have hperm := List.perm_insertionSort SpecificLE (routesOf rules)
  refine ⟨⟨_, catchAllRule, rfl, rfl, rfl, fun r => mem_sorted_routes, ?_⟩, ?_⟩
  · refine (List.pairwise_insertionSort SpecificLE (routesOf rules)).imp_of_mem ?_
    intro a b ha hb hab
    exact hab.moreSpecific (mem_sorted_routes ha) (mem_sorted_routes hb)
  · show ((_ ++ [catchAllRule]).map IngressRule.key).Nodup
    rw [List.map_append, List.nodup_append]
    refine ⟨(hperm.map _).nodup_iff.mpr h, by simp, ?_⟩
    intro k hk k' hk'
    obtain ⟨r, hr, rfl⟩ := List.mem_map.mp hk
    obtain rfl : k' = catchAllRule.key := by simpa using hk'
    intro heq
    exact mem_sorted_routes hr (congrArg Prod.fst heq)

/-! ## What a plan does to the tunnel -/

section change

variable {ids : Ids} {s : Snapshot} {b b' : Builder}

/-- The tunnel after one step. -/
def stepTunnel (ids : Ids) (tunnel : Option ObservedTunnel) : Step → Option ObservedTunnel
  | .createTunnel name =>
      some { id := ids "new-tunnel", name, configVersion := 0, ingress := [] }
  | .putConfig _ ingress _ _ =>
      tunnel.map fun t => { t with ingress, configVersion := t.configVersion + 1 }
  | .deleteTunnel _ => none
  | _ => tunnel

lemma applyTo_stepTunnel [External] {n : ℕ} {step : Step} (h : step.area = .tunnel) :
    (applyTo ids n s step).tunnel = stepTunnel ids s.tunnel step := by
  cases step with
  | createTunnel | putConfig | deleteTunnel => rfl
  | _ => cases h

/-- The tunnel after some steps, from the steps about the tunnel. -/
lemma applySteps_tunnel [External] {steps : List Step} :
    (applySteps ids s steps).tunnel =
      (steps.filter fun step => step.area = .tunnel).foldl (stepTunnel ids) s.tunnel := by
  refine Runs.foldl_view (fun sim : Sim => sim.next.tunnel)
    (fun sim step h => ?_) (fun sim step h => ?_) steps ⟨s, 0⟩
  · exact applyTo_stepTunnel (of_decide_eq_true h)
  · exact applyTo_tunnel (of_decide_eq_false h)

/-- The step that makes a tunnel where there is none. -/
def createSteps (s : Snapshot) : List Step :=
  match s.tunnel with
  | some _ => []
  | none => [.createTunnel (uniqueName s.machineName s.tunnelNames)]

/-- The step that writes the rules, unless they are in place. -/
def configSteps (s : Snapshot) (tunnel : TunnelRef) (desired : List IngressRule) : List Step :=
  let current := (s.tunnel.map ObservedTunnel.ingress).getD []
  if sortIngress desired ≠ current then
    [.putConfig tunnel (sortIngress desired) (s.tunnel.map ObservedTunnel.configVersion) current]
  else []

lemma ensureTunnel_only : (b.ensureTunnel s).2.only .tunnel = b.only .tunnel ++ createSteps s := by
  unfold ensureTunnel createSteps
  cases s.tunnel with
  | none => rw [only_push]; rfl
  | some t => rw [List.append_nil]

lemma putConfig_only {tunnel : TunnelRef} {desired : List IngressRule} :
    (b.putConfig s tunnel desired).only .tunnel =
      b.only .tunnel ++ configSteps s tunnel desired := by
  unfold putConfig configSteps
  dsimp only
  split
  · rw [only_push]; rfl
  · rw [List.append_nil]

/-- How a plan leaves the tunnel. -/
inductive TunnelChange (s : Snapshot) (b : Builder) : Prop
  /-- The rules stay (a tunnel is made where there was none). -/
  | kept (h : b.only .tunnel = createSteps s)
  /-- The rules are those sorted, no two of them for one place. -/
  | sorted (tunnel : TunnelRef) (desired : List IngressRule)
      (distinct : ((routesOf desired).map IngressRule.key).Nodup)
      (h : b.only .tunnel = createSteps s ++ configSteps s tunnel desired)
  /-- The tunnel goes. -/
  | removed (h : ∃ steps id, b.only .tunnel = steps ++ [.deleteTunnel id])

/-- The tunnel has no rules, or well-formed ones. -/
def TunnelGood (tunnel : Option ObservedTunnel) : Prop :=
  ∀ t, tunnel = some t → t.ingress = [] ∨ IngressWellFormed t.ingress

lemma foldl_createSteps (hs : TunnelGood s.tunnel) :
    TunnelGood ((createSteps s).foldl (stepTunnel ids) s.tunnel) := by
  unfold createSteps
  cases hs' : s.tunnel with
  | none =>
      intro t ht
      cases ht
      exact .inl rfl
  | some t => rw [hs'] at hs; exact hs

/-- After the config is written (or found in place), the tunnel has the sorted rules. -/
lemma foldl_configSteps (ids : Ids) (s : Snapshot) (tunnel : TunnelRef) (desired : List IngressRule) :
    ∃ t, (createSteps s ++ configSteps s tunnel desired).foldl (stepTunnel ids) s.tunnel = some t ∧
      t.ingress = sortIngress desired := by
  unfold createSteps configSteps
  cases hs : s.tunnel with
  | none =>
      have hne : sortIngress desired ≠ [] := by simp [sortIngress]
      simp only [Option.map_none, Option.getD_none, ne_eq, hne, not_false_eq_true, if_true]
      exact ⟨_, rfl, rfl⟩
  | some t =>
      dsimp only [Option.map_some, Option.getD_some, List.nil_append]
      split_ifs with hne
      · exact ⟨_, rfl, rfl⟩
      · exact ⟨t, rfl, (not_not.mp hne).symm⟩

/-- A plan that changes the tunnel in one of these ways keeps its rules well formed. -/
lemma TunnelChange.good (h : TunnelChange s b) (hs : TunnelGood s.tunnel) :
    TunnelGood ((b.only .tunnel).foldl (stepTunnel ids) s.tunnel) := by
  cases h with
  | kept h => rw [h]; exact foldl_createSteps hs
  | sorted tunnel desired distinct h =>
      obtain ⟨t, ht, hrules⟩ := foldl_configSteps ids s tunnel desired
      rw [h, ht]
      rintro t' ⟨⟩
      right
      rw [hrules]
      exact sortIngress_wellFormed distinct
  | removed h =>
      obtain ⟨steps, id, h⟩ := h
      rw [h, List.foldl_append]
      intro t ht
      cases ht

/-! ## Each branch of the planner -/

lemma distinct_routesOf {rules : List IngressRule} (h : (rules.map IngressRule.key).Nodup) :
    ((routesOf rules).map IngressRule.key).Nodup :=
  h.sublist (List.filter_sublist.map _)

/-- No two of the tunnel's routes are for one place. -/
lemma TunnelGood.routes_distinct (hs : TunnelGood s.tunnel) :
    (s.routes.map IngressRule.key).Nodup := by
  show ((routesOf _).map IngressRule.key).Nodup
  cases ht : s.tunnel with
  | none => exact List.nodup_nil
  | some t =>
      rcases hs t ht with hnil | hwf
      · rw [Option.map_some, Option.getD_some, hnil]; exact List.nodup_nil
      · exact distinct_routesOf hwf.distinct

@[simp] lemma routesOf_append (l l' : List IngressRule) :
    routesOf (l ++ l') = routesOf l ++ routesOf l' := List.filter_append ..

@[simp] lemma routesOf_toRule (route : RouteSpec) : routesOf [route.toRule] = [route.toRule] := rfl

lemma key_toRule {route : RouteSpec} {r : IngressRule} :
    SameRoute r route.hostname route.path ↔ r.key = route.toRule.key :=
  (Prod.mk.injEq ..).symm.to_iff

/-- A route whose place is free may be added. -/
lemma distinct_add {rules : List IngressRule} {route : RouteSpec}
    (hrules : ((routesOf rules).map IngressRule.key).Nodup)
    (hfree : ∀ r ∈ rules, ¬ SameRoute r route.hostname route.path) :
    ((routesOf (rules ++ [route.toRule])).map IngressRule.key).Nodup := by
  rw [routesOf_append, routesOf_toRule, List.map_append, List.nodup_append]
  refine ⟨hrules, List.nodup_singleton _, ?_⟩
  intro k hk k' hk'
  obtain ⟨r, hr, rfl⟩ := List.mem_map.mp hk
  obtain rfl : k' = route.toRule.key := List.mem_singleton.mp hk'
  intro heq
  exact hfree r (List.mem_of_mem_filter hr) (key_toRule.mpr heq)

/-- What adding a route does to the tunnel: nothing where a rule is in place already, else the
rule joins the others. -/
lemma planAddRoute_only {route : RouteSpec} (h : planAddRoute s {} route = .ok b') :
    ((∃ r ∈ s.routes, SameRoute r route.hostname route.path) ∧
        b'.only .tunnel = createSteps s) ∨
      ((∀ r ∈ s.routes, ¬ SameRoute r route.hostname route.path) ∧
        b'.only .tunnel = createSteps s ++ configSteps s s.tunnelRef
          (s.routes ++ [route.toRule])) := by
  obtain ⟨_, -, -, h⟩ := planAddRoute_ok h
  rcases h with ⟨existing, hmem, hsame, -, domain, b₁, b₂, hprotect, hserve, rfl⟩ |
    ⟨hfree, domain, b₁, b₂, hprotect, hserve, rfl⟩
  · refine .inl ⟨⟨existing, hmem, hsame⟩, ?_⟩
    rw [(verifyRoute_appends route).only_eq (by simp), (serve_appends hserve).only_eq (by simp),
      (protectRoute_appends hprotect).only_eq (by simp), ensureTunnel_only]
    rfl
  · refine .inr ⟨hfree, ?_⟩
    rw [(verifyRoute_appends route).only_eq (by simp), (serve_appends hserve).only_eq (by simp),
      putConfig_only, (protectRoute_appends hprotect).only_eq (by simp), ensureTunnel_only]
    unfold only
    rw [remoteOriginWarning_steps]
    rfl

lemma planAddRoute_change {route : RouteSpec} (hs : TunnelGood s.tunnel)
    (h : planAddRoute s {} route = .ok b') : TunnelChange s b' := by
  rcases planAddRoute_only h with ⟨-, honly⟩ | ⟨hfree, honly⟩
  · exact .kept honly
  · have hnew := distinct_add (distinct_routesOf hs.routes_distinct) hfree
    exact .sorted s.tunnelRef (s.routes ++ [route.toRule]) hnew honly

lemma sameRoute_iff {r : IngressRule} {hostname : Hostname} {path : Option PathRule} :
    SameRoute r hostname path ↔ r.key = (some hostname.asStr, path.map PathRule.asStr) :=
  (Prod.mk.injEq ..).symm.to_iff

/-- The keys of the rules after one route is replaced. -/
lemma map_key_replaceRoute {rules : List IngressRule} {hostname : Hostname}
    {path : Option PathRule} {route : RouteSpec} :
    (replaceRoute rules hostname path route).map IngressRule.key =
      (rules.map IngressRule.key).map fun k =>
        if k = (some hostname.asStr, path.map PathRule.asStr) then route.toRule.key else k := by
  unfold replaceRoute
  rw [List.map_map, List.map_map]
  refine List.map_congr_left fun r _ => ?_
  show IngressRule.key (if _ then _ else _) = if _ then _ else _
  simp only [sameRoute_iff]
  split <;> rfl

/-- A route replaced in place, or moved to a free place, leaves the places distinct. -/
lemma distinct_replace {rules : List IngressRule} {hostname : Hostname} {path : Option PathRule}
    {route : RouteSpec} (hrules : (rules.map IngressRule.key).Nodup)
    (hfree : (hostname = route.hostname ∧ path = route.path) ∨
      ∀ r ∈ rules, ¬ SameRoute r route.hostname route.path) :
    ((replaceRoute rules hostname path route).map IngressRule.key).Nodup := by
  rw [map_key_replaceRoute]
  refine hrules.map_on fun k hk k' hk' heq => ?_
  rcases hfree with ⟨rfl, rfl⟩ | hfree
  · -- in place: every key is mapped to itself
    have hself : ∀ k : Option String × Option String,
        (if k = (some route.hostname.asStr, route.path.map PathRule.asStr) then route.toRule.key
          else k) = k := by
      intro k
      split
      · rename_i hkey; exact hkey.symm
      · rfl
    rwa [hself, hself] at heq
  · have hnot : ∀ k ∈ rules.map IngressRule.key, k ≠ route.toRule.key := by
      intro k hk heq
      obtain ⟨r, hr, rfl⟩ := List.mem_map.mp hk
      exact hfree r hr (key_toRule.mpr heq)
    split_ifs at heq with h h' h'
    · rw [h, h']
    · exact absurd heq.symm (hnot k' hk')
    · exact absurd heq (hnot k hk)
    · exact heq

/-- Changing a route gives it the path of another route of its hostname. -/
def OverwritesRoute (rules : List IngressRule) (hostname : Hostname) (path : Option PathRule)
    (route : RouteSpec) : Prop :=
  hostname = route.hostname ∧ path ≠ route.path ∧
    hasRoute rules route.hostname route.path = true

/-- What changing a route does to the tunnel: its rule takes the place of the old one. -/
lemma planUpdateRoute_only {hostname : Hostname} {path : Option PathRule} {route : RouteSpec}
    (h : planUpdateRoute s {} hostname path route = .ok b') :
    ∃ t, s.tunnel = some t ∧ b'.only .tunnel = createSteps s ++
      configSteps s (.existing t.id) (replaceRoute s.routes hostname path route) := by
  obtain ⟨t, _, domain, b₁, b₂, ht, -, -, -, -, hprotect, hdns, rfl⟩ := planUpdateRoute_ok h
  refine ⟨t, ht, ?_⟩
  have hcreate : createSteps s = [] := by rw [createSteps, ht]
  rw [(verifyRoute_appends route).only_eq (by simp), dropOldLogin_appends.only_eq (by simp),
    releaseOldName_appends.only_eq (by simp), (ensureDns_appends hdns).only_eq (by simp),
    putConfig_only, (protectRoute_appends hprotect).only_eq (by simp), hcreate]
  unfold only
  rw [remoteOriginWarning_steps]
  rfl

lemma planUpdateRoute_change {hostname : Hostname} {path : Option PathRule} {route : RouteSpec}
    (hs : TunnelGood s.tunnel) (hkeep : ¬ OverwritesRoute s.routes hostname path route)
    (h : planUpdateRoute s {} hostname path route = .ok b') : TunnelChange s b' := by
  obtain ⟨t, -, honly⟩ := planUpdateRoute_only h
  obtain ⟨_, _, _, _, _, -, -, -, -, htaken, -, -, -⟩ := planUpdateRoute_ok h
  have hfree : (hostname = route.hostname ∧ path = route.path) ∨
      ∀ r ∈ s.routes, ¬ SameRoute r route.hostname route.path := by
    by_cases hplace : hostname = route.hostname ∧ path = route.path
    · exact .inl hplace
    · right
      intro r hr hsame
      have hhas : hasRoute s.routes route.hostname route.path = true :=
        List.any_eq_true.mpr ⟨r, hr, by simpa using hsame⟩
      by_cases hname : hostname = route.hostname
      · exact hkeep ⟨hname, fun hpath => hplace ⟨hname, hpath⟩, hhas⟩
      · exact htaken ⟨hname, hhas⟩
  have hnew := distinct_routesOf (distinct_replace hs.routes_distinct hfree)
  exact .sorted (.existing t.id) _ hnew honly

/-- What removing a route does to the tunnel: the rules but its own stay. -/
lemma planRemoveRoute_only [External] {hostname : Hostname} {path : Option PathRule}
    (h : planRemoveRoute s {} hostname path = .ok b') :
    ∃ t, s.tunnel = some t ∧ hasRoute s.routes hostname path = true ∧
      b'.only .tunnel = createSteps s ++
        configSteps s (.existing t.id) (routesWithout s hostname path) := by
  obtain ⟨t, ht, hroute, stillUsed, left, -, hleft, h⟩ := planRemoveRoute_ok h
  refine ⟨t, ht, hroute, ?_⟩
  have hcreate : createSteps s = [] := by rw [createSteps, ht]
  have hremove : (removeRule s {} t.id (routesWithout s hostname path)).only .tunnel =
      configSteps s (.existing t.id) (routesWithout s hostname path) := by
    unfold removeRule
    rw [putConfig_only]
    split <;> rfl
  have hlogin : (unprotectRoute s left.2 hostname path).only .tunnel =
      configSteps s (.existing t.id) (routesWithout s hostname path) := by
    rw [unprotectRoute_appends.only_eq (by simp), hleft,
      leaveHostname_appends.only_eq (by simp), hremove]
  rw [hcreate, List.nil_append, ← hlogin]
  split_ifs at h with hused
  · rw [h]
  · exact (releaseHostname_appends h).only_eq (by simp)

lemma planRemoveRoute_change [External] {hostname : Hostname} {path : Option PathRule}
    (hs : TunnelGood s.tunnel) (h : planRemoveRoute s {} hostname path = .ok b') :
    TunnelChange s b' := by
  obtain ⟨t, -, -, honly⟩ := planRemoveRoute_only h
  have hkept : ((routesOf (routesWithout s hostname path)).map IngressRule.key).Nodup :=
    distinct_routesOf (hs.routes_distinct.sublist (List.filter_sublist.map _))
  exact .sorted (.existing t.id) _ hkept honly

/-- Importing keeps the places distinct: each route is added where its place is free. -/
lemma importRules_distinct {routes : List RouteSpec} {rules desired : List IngressRule}
    (hrules : ((routesOf rules).map IngressRule.key).Nodup)
    (h : importRules s routes rules b = .ok (desired, b')) :
    ((routesOf desired).map IngressRule.key).Nodup ∧ b'.steps = b.steps := by
  induction routes generalizing rules b with
  | nil =>
      cases h
      exact ⟨hrules, rfl⟩
  | cons route rest ih =>
      simp only [importRules, bind_eq_ok] at h
      obtain ⟨_, -, _, -, h⟩ := h
      split at h
      · simp only [bind_eq_ok] at h
        obtain ⟨_, -, h⟩ := h
        exact ih hrules h
      · rename_i hfind
        have hfree : ∀ r ∈ rules, ¬ SameRoute r route.hostname route.path := fun r hr => by
          simpa using List.find?_eq_none.mp hfind r hr
        obtain ⟨hdesired, hsteps⟩ := ih (distinct_add hrules hfree) h
        exact ⟨hdesired, by rw [hsteps, remoteOriginWarning_steps]⟩

lemma planImportRoutes_change {routes : List RouteSpec} (hs : TunnelGood s.tunnel)
    (h : planImportRoutes s {} routes = .ok b') : TunnelChange s b' := by
  obtain ⟨desired, b₁, b₂, himport, hdns, rfl⟩ := planImportRoutes_ok h
  obtain ⟨hdistinct, hsteps⟩ :=
    importRules_distinct (distinct_routesOf hs.routes_distinct) himport
  refine .sorted s.tunnelRef desired hdistinct ?_
  rw [verifyEach_appends.only_eq (by simp), (ensureEachDns_appends hdns).only_eq (by simp),
    putConfig_only, ensureTunnel_only]
  unfold only
  rw [hsteps]
  rfl

lemma planRemoveTunnel_change [External] (h : planRemoveTunnel s {} = .ok b') :
    TunnelChange s b' := by
  obtain ⟨t, b₁, -, -, rfl⟩ := planRemoveTunnel_ok h
  exact .removed ⟨_, t.id, only_push .tunnel _ _⟩

/-! ## Whole runs -/

/-- The intents about routes. -/
def Intent.IsRouting : Intent → Prop
  | .addRoute _ | .updateRoute .. | .removeRoute .. | .importRoutes _ | .removeTunnel => True
  | _ => False

/-- The intent gives a route the path of another route of its hostname. -/
def Intent.OverwritesRoute (s : Snapshot) : Intent → Prop
  | .updateRoute hostname path route => Teitunnel.OverwritesRoute s.routes hostname path route
  | _ => False

/-- What an intent of this kind does to the tunnel. -/
lemma build_change [External] {intent : Intent} (hrouting : intent.IsRouting)
    (hkeep : ¬ intent.OverwritesRoute s) (hs : TunnelGood s.tunnel)
    (h : build s {} intent = .ok b') : TunnelChange s b' := by
  cases intent with
  | addRoute route => exact planAddRoute_change hs h
  | updateRoute hostname path route => exact planUpdateRoute_change hs hkeep h
  | removeRoute hostname path => exact planRemoveRoute_change hs h
  | importRoutes routes => exact planImportRoutes_change hs h
  | removeTunnel => exact planRemoveTunnel_change h
  | _ => exact hrouting.elim

/-- One plan keeps the tunnel's rules well formed. -/
lemma applies_good [External] :
    Runs.Preserves (Applies fun s intent => intent.IsRouting ∧ ¬ intent.OverwritesRoute s)
      (fun s => TunnelGood s.tunnel) := by
  rintro s _ ⟨intent, p, ids, ⟨hrouting, hkeep⟩, hplan, rfl⟩ hs
  obtain ⟨b, hb, honly⟩ := plan_only hplan
  show TunnelGood (applySteps ids s p.steps).tunnel
  rw [applySteps_tunnel, honly .tunnel (by simp)]
  exact (build_change hrouting hkeep hs hb).good hs

/-- In every run from a machine without a tunnel, whose edits never give a route the path of
another, the tunnel has no rules or well-formed ones. -/
theorem ingress_wellFormed_of_run [External] {s s' : Snapshot} (hs : s.tunnel = none)
    (hrun : Relation.ReflTransGen
      (Applies fun s intent => intent.IsRouting ∧ ¬ intent.OverwritesRoute s) s s')
    (t : ObservedTunnel) (ht : s'.tunnel = some t) :
    t.ingress = [] ∨ IngressWellFormed t.ingress := by
  have hstart : TunnelGood s.tunnel := by
    intro t ht
    rw [hs] at ht
    cases ht
  exact applies_good.reached hrun hstart t ht

end change

/-! ### An edit that overwrites a route -/

section runs

local instance ingressReference : External := reference

/-- The rules after one route is added. -/
theorem ingress_wellFormed_of_added :
    ∃ t, (applyAll newAccount [.addRoute (appRoute none)]).tunnel = some t ∧
      (t.ingress = [] ∨ IngressWellFormed t.ingress) := by
  have hrun := applyAll_run newAccount [.addRoute (appRoute none)]
    (P := fun s intent => intent.IsRouting ∧ ¬ intent.OverwritesRoute s) (by
      intro intent hintent s
      rw [List.mem_singleton.mp hintent]
      exact ⟨trivial, id⟩)
  have hsome : (applyAll newAccount [.addRoute (appRoute none)]).tunnel.isSome := by
    decide +kernel
  obtain ⟨t, ht⟩ := Option.isSome_iff_exists.mp hsome
  exact ⟨t, ht, ingress_wellFormed_of_run rfl hrun t ht⟩

/-- Two routes of one hostname, and an edit that gives the first the path of the second. -/
def overwritingIntents : List Intent :=
  [.addRoute (appRoute (some ⟨"^/a"⟩)), .addRoute (appRoute (some ⟨"^/b"⟩)),
    .updateRoute appHostname (some ⟨"^/a"⟩) (appRoute (some ⟨"^/b"⟩))]

/-- Without the condition on edits the rules can be for one place twice. -/
theorem overwriting_breaks_ingress :
    ¬ ∀ s s', s.tunnel = none →
      Relation.ReflTransGen (Applies fun _ intent => intent.IsRouting) s s' →
      ∀ t, s'.tunnel = some t → t.ingress = [] ∨ IngressWellFormed t.ingress := by
  intro h
  have hrun := applyAll_run newAccount overwritingIntents
    (P := fun _ intent => intent.IsRouting) (by
      intro intent hintent s
      simp only [overwritingIntents, List.mem_cons, List.not_mem_nil, or_false] at hintent
      rcases hintent with rfl | rfl | rfl <;> trivial)
  have hkeys : (applyAll newAccount overwritingIntents).tunnel.map
      (fun t => t.ingress.map IngressRule.key) =
        some [(some "app.example.com", some "^/b"), (some "app.example.com", some "^/b"),
          (none, none)] := by
    decide +kernel
  obtain ⟨t, ht, hkey⟩ := Option.map_eq_some_iff.mp hkeys
  rcases h _ _ rfl hrun t ht with hnil | hwf
  · rw [hnil] at hkey
    cases hkey
  · have hnodup := hwf.distinct
    rw [hkey] at hnodup
    exact absurd hnodup (by decide)

end runs

end Teitunnel
