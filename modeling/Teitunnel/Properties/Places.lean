import Teitunnel.Engine
import Teitunnel.Properties.Ingress

/-!
# The rules of a place

What the run of a plan leaves of the rules for one hostname and path, however it ends: a change
of a route touches the rules of its own places only.
-/

namespace Teitunnel

open Except Builder Ledger

variable {s : Snapshot} {b : Builder} {p : Plan} {place : Place} {rules : List IngressRule}

/-! ## Sorting and the places -/

lemma mem_routesOf {r : IngressRule} : r ∈ routesOf rules ↔ r ∈ rules ∧ r.hostname.isSome :=
  List.mem_filter

/-- The rules of a place with a hostname are among the routes. -/
lemma alike_routesOf (hname : place.1 ≠ none) :
    SameItems (itemsAt IngressRule.key (routesOf rules) place)
      (itemsAt IngressRule.key rules place) := by
  refine ⟨fun r hr => ?_, fun r hr => ?_⟩
  · obtain ⟨hmem, hkey⟩ := mem_itemsAt.mp hr
    exact mem_itemsAt.mpr ⟨(mem_routesOf.mp hmem).1, hkey⟩
  · obtain ⟨hmem, hkey⟩ := mem_itemsAt.mp hr
    have hsome : r.hostname.isSome := by
      rw [Option.isSome_iff_ne_none]
      exact fun hnone => hname (by rw [← hkey]; exact hnone)
    exact mem_itemsAt.mpr ⟨mem_routesOf.mpr ⟨hmem, hsome⟩, hkey⟩

/-- Sorting keeps the rules of every place with a hostname. -/
lemma alike_sortIngress (hname : place.1 ≠ none) :
    SameItems (itemsAt IngressRule.key (sortIngress rules) place)
      (itemsAt IngressRule.key rules place) := by
  have hperm := List.perm_insertionSort SpecificLE (routesOf rules)
  refine SameItems.trans ⟨fun r hr => ?_, fun r hr => ?_⟩ (alike_routesOf hname)
  · obtain ⟨hmem, hkey⟩ := mem_itemsAt.mp hr
    rcases List.mem_append.mp hmem with hmem | hlast
    · exact mem_itemsAt.mpr ⟨hperm.mem_iff.mp hmem, hkey⟩
    · rw [List.mem_singleton.mp hlast] at hkey
      exact absurd (congrArg Prod.fst hkey).symm hname
  · obtain ⟨hmem, hkey⟩ := mem_itemsAt.mp hr
    exact mem_itemsAt.mpr ⟨List.mem_append_left _ (hperm.mem_iff.mpr hmem), hkey⟩

/-- A rule for one place changes nothing at the others. -/
lemma itemsAt_snoc_of_ne {r : IngressRule} (h : r.key ≠ place) :
    itemsAt IngressRule.key (rules ++ [r]) place = itemsAt IngressRule.key rules place := by
  rw [itemsAt, List.filter_append, itemsAt, List.filter_cons_of_neg (by simpa using h),
    List.filter_nil, List.append_nil]

/-! ## Where the run of a plan ends -/

section ends

variable [External] {intent : Intent} {steps : List Step}

/-- The tunnel after the first steps of a plan, from those of them that are about the tunnel. -/
lemma applySteps_take (ran : ℕ) (hsteps : (p.steps.filter fun step => step.area = .tunnel) = steps) :
    ∃ done, done <+: steps ∧
      (applySteps id s (p.steps.take ran)).tunnel = done.foldl (stepTunnel id) s.tunnel := by
  refine ⟨(p.steps.take ran).filter fun step => step.area = .tunnel, ?_, applySteps_tunnel⟩
  rw [← hsteps]
  exact (List.take_prefix ran p.steps).filter _

omit [External] in
/-- After some of the steps that make a tunnel and write rules, the tunnel has the rules it had,
or those. -/
lemma foldl_prefix {tunnel : TunnelRef} {desired : List IngressRule} {done : List Step}
    (hdone : done <+: createSteps s ++ configSteps s tunnel desired) :
    ((done.foldl (stepTunnel id) s.tunnel).map ObservedTunnel.ingress).getD [] =
        s.ingress.getD [] ∨
      ((done.foldl (stepTunnel id) s.tunnel).map ObservedTunnel.ingress).getD [] =
        sortIngress desired := by
  unfold createSteps configSteps at hdone
  unfold Snapshot.ingress
  cases hs : s.tunnel with
  | none =>
      rw [hs] at hdone
      dsimp only at hdone
      split_ifs at hdone <;>
        simp only [List.cons_append, List.nil_append, List.prefix_cons_iff, List.prefix_nil]
          at hdone
      · rcases hdone with rfl | ⟨_, rfl, rfl | ⟨_, rfl, rfl⟩⟩
        · exact .inl rfl
        · exact .inl rfl
        · exact .inr rfl
      · rcases hdone with rfl | ⟨_, rfl, rfl⟩
        · exact .inl rfl
        · exact .inl rfl
  | some t =>
      rw [hs] at hdone
      dsimp only at hdone
      split_ifs at hdone <;>
        simp only [List.nil_append, List.prefix_cons_iff, List.prefix_nil] at hdone
      · rcases hdone with rfl | ⟨_, rfl, rfl⟩
        · exact .inl rfl
        · exact .inr rfl
      · rw [hdone]
        exact .inl rfl

/-- The tunnel's rules when a run that writes some rules ends: as they were, or those rules
sorted. -/
lemma ingress_ends {tunnel : TunnelRef} {desired : List IngressRule}
    (hsteps : (p.steps.filter fun step => step.area = .tunnel) =
      createSteps s ++ configSteps s tunnel desired) (ending : Ending) :
    (ending.ingress s p).getD [] = s.ingress.getD [] ∨
      (ending.ingress s p).getD [] = sortIngress desired := by
  cases ending with
  | applied =>
      right
      obtain ⟨t, ht, hrules⟩ := foldl_configSteps id s tunnel desired
      show ((applySteps id s p.steps).tunnel.map ObservedTunnel.ingress).getD [] = _
      rw [applySteps_tunnel, hsteps, ht]
      exact hrules
  | rolledBack => exact .inl rfl
  | partiallyApplied ran | cut ran =>
      obtain ⟨done, hdone, htunnel⟩ := applySteps_take (s := s) ran hsteps
      have hends := foldl_prefix hdone
      rw [← htunnel] at hends
      exact hends

/-- The tunnel's rules when a run that writes no rules ends. -/
lemma ingress_ends_kept
    (hsteps : (p.steps.filter fun step => step.area = .tunnel) = createSteps s)
    (ending : Ending) : (ending.ingress s p).getD [] = s.ingress.getD [] := by
  have hfold : ∀ done, done <+: createSteps s →
      ((done.foldl (stepTunnel id) s.tunnel).map ObservedTunnel.ingress).getD [] =
        s.ingress.getD [] := by
    intro done hdone
    unfold createSteps at hdone
    unfold Snapshot.ingress
    cases hs : s.tunnel with
    | none =>
        rw [hs] at hdone
        simp only [List.prefix_cons_iff, List.prefix_nil] at hdone
        rcases hdone with rfl | ⟨_, rfl, rfl⟩ <;> rfl
    | some t =>
        rw [hs] at hdone
        rw [List.prefix_nil.mp hdone]
        rfl
  cases ending with
  | applied =>
      have hends := hfold _ (List.prefix_refl _)
      rw [← hsteps, ← applySteps_tunnel] at hends
      exact hends
  | rolledBack => rfl
  | partiallyApplied ran | cut ran =>
      obtain ⟨done, hdone, htunnel⟩ := applySteps_take (s := s) ran hsteps
      have hends := hfold done hdone
      rw [← htunnel] at hends
      exact hends

/-- A plan whose run ends with some rules, and which need not be confirmed. -/
lemma plan_of_any (intent : Intent) (s : Snapshot) (rules : Option (List IngressRule))
    (ending : Ending) (h : (plan intent s).toOption.any (fun p =>
      !p.requiresConfirmation && decide (ending.ingress s p = rules)) = true) :
    ∃ p, plan intent s = .ok p ∧ p.requiresConfirmation = false ∧ ending.ingress s p = rules := by
  obtain ⟨p, hp, hchecks⟩ := (Option.any_eq_true _ _).mp h
  rw [Bool.and_eq_true, Bool.not_eq_true', decide_eq_true_iff] at hchecks
  exact ⟨p, toOption_eq_some.mp hp, hchecks⟩

/-- A plan that changes nothing at Cloudflare leaves the tunnel's rules. -/
lemma ingress_of_isEmpty (h : p.isEmpty = true) : Ending.applied.ingress s p = s.ingress := by
  have hnone : (p.steps.filter fun step => step.area = .tunnel) = [] := by
    refine List.filter_eq_nil_iff.mpr fun step hstep harea => ?_
    have hcheck := List.all_eq_true.mp h step hstep
    have hmutation : step.isMutation = true := Step.isMutation_iff.mpr (by
      rw [of_decide_eq_true harea]
      exact Area.noConfusion)
    rw [hmutation] at hcheck
    cases hcheck
  show (applySteps id s p.steps).tunnel.map ObservedTunnel.ingress = _
  rw [applySteps_tunnel, hnone]
  rfl

/-! ## Adding and removing a route -/

variable {route : RouteSpec} {hostname : Hostname} {path : Option PathRule}

/-- Adding a route leaves the rules of every other place, however it ends. -/
lemma addRoute_elsewhere (hplan : plan (.addRoute route) s = .ok p) (ending : Ending)
    (hname : place.1 ≠ none) (hplace : place ≠ route.toRule.key) :
    SameItems (rulesAt s.ingress place) (rulesAt (ending.ingress s p) place) := by
  obtain ⟨b, hb, honly⟩ := plan_only hplan
  unfold rulesAt
  rcases planAddRoute_only hb with ⟨-, hsteps⟩ | ⟨-, hsteps⟩
  · rw [ingress_ends_kept ((honly .tunnel (by simp)).trans hsteps) ending]
    exact SameItems.refl _
  · rcases ingress_ends ((honly .tunnel (by simp)).trans hsteps) ending with hsame | hsorted
    · rw [hsame]
      exact SameItems.refl _
    · rw [hsorted]
      refine SameItems.symm ((alike_sortIngress hname).trans ?_)
      rw [itemsAt_snoc_of_ne (Ne.symm hplace)]
      exact alike_routesOf hname

/-- Adding a route changes nothing at its place where a rule is there already. -/
lemma addRoute_kept (hplan : plan (.addRoute route) s = .ok p) (ending : Ending)
    (hrules : rulesAt s.ingress route.toRule.key ≠ []) :
    SameItems (rulesAt s.ingress route.toRule.key) (rulesAt (ending.ingress s p) route.toRule.key) := by
  obtain ⟨b, hb, honly⟩ := plan_only hplan
  rcases planAddRoute_only hb with ⟨-, hsteps⟩ | ⟨hfree, -⟩
  · unfold rulesAt
    rw [ingress_ends_kept ((honly .tunnel (by simp)).trans hsteps) ending]
    exact SameItems.refl _
  · refine absurd ((alike_routesOf (Option.some_ne_none _)).eq_nil.mp ?_) hrules
    refine List.eq_nil_iff_forall_not_mem.mpr fun r hr => ?_
    obtain ⟨hmem, hkey⟩ := mem_itemsAt.mp hr
    exact hfree r hmem (key_toRule.mpr hkey)

/-- After a route was added its place has a rule. -/
lemma addRoute_applied (hplan : plan (.addRoute route) s = .ok p) :
    rulesAt (Ending.applied.ingress s p) route.toRule.key ≠ [] := by
  by_cases hrules : rulesAt s.ingress route.toRule.key = []
  · obtain ⟨b, hb, honly⟩ := plan_only hplan
    rcases planAddRoute_only hb with ⟨⟨r, hmem, hsame⟩, -⟩ | ⟨-, hsteps⟩
    · have hnone := (alike_routesOf (Option.some_ne_none _)).eq_nil.mpr hrules
      have hthere : r ∈ itemsAt IngressRule.key (routesOf (s.ingress.getD [])) route.toRule.key :=
        mem_itemsAt.mpr ⟨hmem, key_toRule.mp hsame⟩
      rw [hnone] at hthere
      exact absurd hthere List.not_mem_nil
    · obtain ⟨t, ht, hrules'⟩ :=
        foldl_configSteps id s s.tunnelRef (s.routes ++ [route.toRule])
      have hingress : (Ending.applied.ingress s p).getD [] =
          sortIngress (s.routes ++ [route.toRule]) := by
        show ((applySteps id s p.steps).tunnel.map ObservedTunnel.ingress).getD [] = _
        rw [applySteps_tunnel, honly .tunnel (by simp), hsteps, ht]
        exact hrules'
      have hmem : route.toRule ∈ itemsAt IngressRule.key (s.routes ++ [route.toRule])
          route.toRule.key :=
        mem_itemsAt.mpr ⟨List.mem_append_right _ (List.mem_singleton_self _), rfl⟩
      unfold rulesAt
      rw [hingress]
      exact List.ne_nil_of_mem ((alike_sortIngress (Option.some_ne_none _)).2 _ hmem)
  · exact fun hnil => hrules ((addRoute_kept hplan .applied hrules).eq_nil.mpr hnil)

/-- After a route was removed its place has no rules. -/
lemma removeRoute_applied (hplan : plan (.removeRoute hostname path) s = .ok p) :
    rulesAt (Ending.applied.ingress s p) (some hostname.asStr, path.map PathRule.asStr) = [] := by
  obtain ⟨b, hb, honly⟩ := plan_only hplan
  obtain ⟨t, -, -, hsteps⟩ := planRemoveRoute_only hb
  obtain ⟨t', ht', hrules⟩ :=
    foldl_configSteps id s (.existing t.id) (routesWithout s hostname path)
  have hingress : (Ending.applied.ingress s p).getD [] =
      sortIngress (routesWithout s hostname path) := by
    show ((applySteps id s p.steps).tunnel.map ObservedTunnel.ingress).getD [] = _
    rw [applySteps_tunnel, honly .tunnel (by simp), hsteps, ht']
    exact hrules
  have hnone : itemsAt IngressRule.key (routesWithout s hostname path)
      (some hostname.asStr, path.map PathRule.asStr) = [] := by
    refine List.eq_nil_iff_forall_not_mem.mpr fun r hr => ?_
    obtain ⟨hmem, hkey⟩ := mem_itemsAt.mp hr
    have hother := (List.mem_filter.mp hmem).2
    exact of_decide_eq_true hother (sameRoute_iff.mpr hkey)
  unfold rulesAt
  rw [hingress]
  exact (alike_sortIngress (Option.some_ne_none _)).eq_nil.mpr hnone

/-- A removal is of a route that is there. -/
lemma removeRoute_there (hplan : plan (.removeRoute hostname path) s = .ok p) :
    rulesAt s.ingress (some hostname.asStr, path.map PathRule.asStr) ≠ [] := by
  obtain ⟨b, hb, -⟩ := plan_only hplan
  obtain ⟨t, ht, hroute, -⟩ := planRemoveRoute_only hb
  obtain ⟨r, hr, hsame⟩ := List.any_eq_true.mp hroute
  intro hnil
  have hnone := (alike_routesOf (Option.some_ne_none _)).eq_nil.mpr hnil
  have hthere : r ∈ itemsAt IngressRule.key (routesOf (s.ingress.getD []))
      (some hostname.asStr, path.map PathRule.asStr) :=
    mem_itemsAt.mpr ⟨hr, sameRoute_iff.mp (of_decide_eq_true hsame)⟩
  rw [hnone] at hthere
  exact absurd hthere List.not_mem_nil

/-- Removing a route leaves the rules of every other place, however it ends. -/
lemma removeRoute_elsewhere (hplan : plan (.removeRoute hostname path) s = .ok p)
    (ending : Ending) (hname : place.1 ≠ none)
    (hplace : place ≠ (some hostname.asStr, path.map PathRule.asStr)) :
    SameItems (rulesAt s.ingress place) (rulesAt (ending.ingress s p) place) := by
  obtain ⟨b, hb, honly⟩ := plan_only hplan
  obtain ⟨t, -, -, hsteps⟩ := planRemoveRoute_only hb
  unfold rulesAt
  rcases ingress_ends ((honly .tunnel (by simp)).trans hsteps) ending with hsame | hsorted
  · rw [hsame]
    exact SameItems.refl _
  · rw [hsorted]
    refine SameItems.symm ((alike_sortIngress hname).trans (SameItems.trans ?_ (alike_routesOf hname)))
    refine ⟨fun r hr => ?_, fun r hr => ?_⟩
    · obtain ⟨hmem, hkey⟩ := mem_itemsAt.mp hr
      exact mem_itemsAt.mpr ⟨List.mem_of_mem_filter hmem, hkey⟩
    · obtain ⟨hmem, hkey⟩ := mem_itemsAt.mp hr
      refine mem_itemsAt.mpr ⟨List.mem_filter.mpr ⟨hmem, ?_⟩, hkey⟩
      refine decide_eq_true fun hsame => hplace ?_
      rw [← hkey]
      exact sameRoute_iff.mp hsame

/-- Changing a route in its place leaves which places have rules, however it ends. -/
lemma updateRoute_places (hplan : plan (.updateRoute route.hostname route.path route) s = .ok p)
    (ending : Ending) (hname : place.1 ≠ none) :
    rulesAt s.ingress place = [] ↔ rulesAt (ending.ingress s p) place = [] := by
  obtain ⟨b, hb, honly⟩ := plan_only hplan
  obtain ⟨t, -, hsteps⟩ := planUpdateRoute_only hb
  unfold rulesAt
  rcases ingress_ends ((honly .tunnel (by simp)).trans hsteps) ending with hsame | hsorted
  · rw [hsame]
  · rw [hsorted, (alike_sortIngress hname).eq_nil, ← (alike_routesOf hname).eq_nil]
    -- the places of the rules are the same before and after
    have hkeys : (replaceRoute s.routes route.hostname route.path route).map IngressRule.key =
        s.routes.map IngressRule.key := by
      rw [map_key_replaceRoute]
      refine (List.map_congr_left fun k _ => ?_).trans (List.map_id _)
      show (if _ then _ else _) = id k
      split_ifs with hk
      · exact hk.symm
      · rfl
    have hnone : ∀ rules : List IngressRule, itemsAt IngressRule.key rules place = [] ↔
        place ∉ rules.map IngressRule.key := by
      intro rules
      rw [itemsAt, List.filter_eq_nil_iff, List.mem_map]
      simp
    rw [hnone, hnone, hkeys]
    rfl

/-! ## A route that isn't there -/

omit [External] in
lemma zoneId_error {e : PlanError} (h : s.zoneId hostname = .error e) : e.isGone = false := by
  unfold Snapshot.zoneId at h
  split at h
  · cases h
  · cases h
    rfl

omit [External] in
lemma checkQuotas_error {state : EdgeState} {changes : Changes} {quotas : List QuotaKind}
    {b : Builder} {e : PlanError} (h : checkQuotas state changes quotas b = .error e) :
    e.isGone = false := by
  induction quotas generalizing b with
  | nil => cases h
  | cons quota rest ih =>
      unfold checkQuotas at h
      dsimp only at h
      split_ifs at h
      · exact ih h
      · cases h
        rfl
      · exact ih h

/-- Taking a hostname's rules off the edge never fails for want of a route. -/
lemma protectEdge_error {b : Builder} {e : PlanError}
    (h : protectEdge s b hostname {} = .error e) : e.isGone = false := by
  rcases bind_eq_error.mp h with hzone | ⟨zoneId, -, h⟩
  · exact zoneId_error hzone
  · split at h
    · cases h
      rfl
    · rename_i state hstate
      rcases bind_eq_error.mp h with hchanges | ⟨changes, -, h⟩
      · -- no rate limit is wanted, so no group refuses the hostname
        simp only [protectChanges, rateLimit] at hchanges
        split_ifs at hchanges
      · rcases bind_eq_error.mp h with hquotas | ⟨b₁, -, h⟩
        · exact checkQuotas_error hquotas
        · cases h

lemma releaseHostname_error {b : Builder} {e : PlanError}
    (h : releaseHostname s b hostname = .error e) : e.isGone = false := by
  rcases bind_eq_error.mp h with hrelease | ⟨b₁, -, h⟩
  · unfold releaseWorkersAndRules at hrelease
    dsimp only at hrelease
    split_ifs at hrelease
    exact protectEdge_error hrelease
  · cases h

/-- A removal that finds no route was made where the tunnel has no rule for its place. -/
lemma removeRoute_gone {e : PlanError} (hplan : plan (.removeRoute hostname path) s = .error e)
    (hgone : e.isGone = true) :
    rulesAt s.ingress (some hostname.asStr, path.map PathRule.asStr) = [] := by
  have hbuild : planRemoveRoute s {} hostname path = .error e := map_eq_error.mp hplan
  have hnone : hasRoute s.routes hostname path = false →
      rulesAt s.ingress (some hostname.asStr, path.map PathRule.asStr) = [] := by
    intro hroute
    refine (alike_routesOf (Option.some_ne_none _)).eq_nil.mp ?_
    refine List.eq_nil_iff_forall_not_mem.mpr fun r hr => ?_
    obtain ⟨hmem, hkey⟩ := mem_itemsAt.mp hr
    have hnot := List.any_eq_false.mp hroute r hmem
    exact hnot (decide_eq_true (sameRoute_iff.mpr hkey))
  rcases bind_eq_error.mp hbuild with htunnel | ⟨t, -, h⟩
  · unfold Snapshot.theTunnel at htunnel
    split at htunnel
    · cases htunnel
    · rename_i hs
      unfold rulesAt Snapshot.ingress
      rw [hs]
      rfl
  · rcases bind_eq_error.mp h with hrefused | ⟨_, -, h⟩
    · exact hnone (refuseIf_eq_error.mp hrefused).1
    · exfalso
      dsimp only at h
      split_ifs at h
      · cases h
      · rw [releaseHostname_error h] at hgone
        cases hgone

end ends

end Teitunnel
