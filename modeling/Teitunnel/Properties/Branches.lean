import Teitunnel.Properties.Areas

/-!
# The branches of the planner, taken apart

What a successful plan of each intent is made of: which checks passed, and the builder after
each operation.  The results about plans start here and never unfold a planner themselves.
-/

namespace Teitunnel

open Except Builder

variable {s : Snapshot} {b b' : Builder}

/-- The tunnel a plan writes to. -/
def Snapshot.tunnelRef (s : Snapshot) : TunnelRef :=
  match s.tunnel with
  | some tunnel => .existing tunnel.id
  | none => .created

@[simp] lemma ensureTunnel_fst : (b.ensureTunnel s).1 = s.tunnelRef := by
  unfold ensureTunnel Snapshot.tunnelRef
  cases s.tunnel <;> rfl

lemma theTunnel_eq_ok {t : ObservedTunnel} : s.theTunnel = .ok t ↔ s.tunnel = some t := by
  unfold Snapshot.theTunnel
  cases s.tunnel <;> simp

lemma tunnelRef_of_some {t : ObservedTunnel} (h : s.tunnel = some t) :
    s.tunnelRef = .existing t.id := by
  rw [Snapshot.tunnelRef, h]

/-- Protecting a route: nothing to do without a login, else its login at its domain. -/
lemma protectRoute_ok {route : RouteSpec} {domain : Option String}
    (h : protectRoute s b route = .ok (domain, b')) :
    (route.access = none ∧ domain = none ∧ b' = b) ∨
    ∃ rule d, route.access = some rule ∧ routeDomain route = .ok d ∧ domain = some d ∧
      b.protect s d rule = .ok b' := by
  unfold protectRoute at h
  split at h
  · cases h
    exact .inl ⟨‹_›, rfl, rfl⟩
  · simp only [bind_eq_ok, pure_eq_ok, Prod.mk.injEq] at h
    obtain ⟨d, hd, b₁, hprotect, rfl, rfl⟩ := h
    exact .inr ⟨_, d, ‹_›, hd, rfl, hprotect⟩

/-- Adding a route: a rule in place is kept, else the config is written after the login. -/
lemma planAddRoute_ok {route : RouteSpec} (h : planAddRoute s b route = .ok b') :
    ∃ zoneId, s.zoneId route.hostname = .ok zoneId ∧
      s.notElsewhere route.hostname route.path = .ok () ∧
      ((∃ existing ∈ s.routes, SameRoute existing route.hostname route.path ∧
          SameService existing route ∧
          ∃ domain b₁ b₂, protectRoute s (b.ensureTunnel s).2 route = .ok (domain, b₁) ∧
            b₁.serve s route.hostname s.tunnelRef route.id = .ok b₂ ∧
            b' = b₂.verifyRoute route) ∨
        ((∀ r ∈ s.routes, ¬ SameRoute r route.hostname route.path) ∧
          ∃ domain b₁ b₂,
            protectRoute s ((b.remoteOriginWarning route).ensureTunnel s).2 route
              = .ok (domain, b₁) ∧
            (b₁.putConfig s s.tunnelRef (s.routes ++ [route.toRule])).serve s route.hostname
              s.tunnelRef route.id = .ok b₂ ∧
            b' = b₂.verifyRoute route)) := by
  simp only [planAddRoute, bind_eq_ok] at h
  obtain ⟨zoneId, hzone, _, hfree, h⟩ := h
  refine ⟨zoneId, hzone, hfree, ?_⟩
  split at h
  · rename_i existing hfind
    have hsame := List.find?_some hfind
    simp only [bind_eq_ok, refuseIf_eq_ok, pure_eq_ok, not_not, ensureTunnel_fst] at h
    obtain ⟨_, hservice, ⟨domain, b₁⟩, hprotect, b₂, hserve, rfl⟩ := h
    exact .inl ⟨existing, List.mem_of_find?_eq_some hfind, of_decide_eq_true hsame, hservice,
      domain, b₁, b₂, hprotect, hserve, rfl⟩
  · rename_i hfind
    simp only [bind_eq_ok, pure_eq_ok, ensureTunnel_fst] at h
    obtain ⟨⟨domain, b₁⟩, hprotect, b₂, hserve, rfl⟩ := h
    refine .inr ⟨fun r hr => ?_, domain, b₁, b₂, hprotect, hserve, rfl⟩
    simpa using List.find?_eq_none.mp hfind r hr

/-- Changing a route: the login, the config, DNS, then what the route leaves behind. -/
lemma planUpdateRoute_ok {hostname : Hostname} {path : Option PathRule} {route : RouteSpec}
    (h : planUpdateRoute s b hostname path route = .ok b') :
    ∃ t zoneId domain b₁ b₂, s.tunnel = some t ∧ hasRoute s.routes hostname path = true ∧
      s.zoneId route.hostname = .ok zoneId ∧ checkMove s hostname path route = .ok () ∧
      ¬ (hostname ≠ route.hostname ∧ hasRoute s.routes route.hostname route.path = true) ∧
      protectRoute s (b.remoteOriginWarning route) route = .ok (domain, b₁) ∧
      (b₁.putConfig s (.existing t.id) (replaceRoute s.routes hostname path route)).ensureDns s
        route.hostname (.existing t.id) route.id = .ok b₂ ∧
      b' = (dropOldLogin s (releaseOldName s b₂ hostname path route t.id) hostname path route
        domain).verifyRoute route := by
  simp only [planUpdateRoute, bind_eq_ok, refuseIf_eq_ok, pure_eq_ok, theTunnel_eq_ok,
    Bool.not_eq_false] at h
  obtain ⟨t, ht, _, hroute, zoneId, hzone, _, hmove, _, hfree, ⟨domain, b₁⟩, hprotect, b₂, hdns,
    rfl⟩ := h
  exact ⟨t, zoneId, domain, b₁, b₂, ht, hroute, hzone, hmove, hfree, hprotect, hdns, rfl⟩

/-- Removing a route: the config, DNS or the pool, the login, then what is left at a hostname
nothing uses any more. -/
lemma planRemoveRoute_ok [External] {hostname : Hostname} {path : Option PathRule}
    (h : planRemoveRoute s b hostname path = .ok b') :
    ∃ t, s.tunnel = some t ∧ hasRoute s.routes hostname path = true ∧
      ∃ stillUsed left, stillUsed = routesHostname (routesWithout s hostname path) hostname ∧
        left = leaveHostname s (removeRule s b t.id (routesWithout s hostname path)) hostname t.id
          stillUsed ∧
        if stillUsed ∨ left.1 then b' = unprotectRoute s left.2 hostname path
        else releaseHostname s (unprotectRoute s left.2 hostname path) hostname = .ok b' := by
  simp only [planRemoveRoute, bind_eq_ok, refuseIf_eq_ok, theTunnel_eq_ok,
    Bool.not_eq_false] at h
  obtain ⟨t, ht, _, hroute, h⟩ := h
  refine ⟨t, ht, hroute, _, _, rfl, rfl, ?_⟩
  split_ifs at h ⊢ with hused
  · exact (pure_eq_ok.mp h).symm
  · exact h

/-- Adding several routes: each is checked, then one config and DNS for each hostname. -/
lemma planImportRoutes_ok {routes : List RouteSpec} (h : planImportRoutes s b routes = .ok b') :
    ∃ desired b₁ b₂, importRules s routes s.routes b = .ok (desired, b₁) ∧
      ensureEachDns s s.tunnelRef (firstOfEach [] routes)
        ((b₁.ensureTunnel s).2.putConfig s s.tunnelRef desired) = .ok b₂ ∧
      b' = (firstOfEach [] routes).foldl verifyRoute b₂ := by
  simp only [planImportRoutes, bind_eq_ok, pure_eq_ok, ensureTunnel_fst] at h
  obtain ⟨⟨desired, b₁⟩, himport, b₂, hdns, rfl⟩ := h
  exact ⟨desired, b₁, b₂, himport, hdns, rfl⟩

/-- Deleting the tunnel: the routes, what served them, their logins and tokens, the private
routes, and the tunnel last. -/
lemma planRemoveTunnel_ok [External] (h : planRemoveTunnel s b = .ok b') :
    ∃ t b₁, s.tunnel = some t ∧
      releaseEach s (tunnelTarget t.id) (routedHostnames s.routes)
        ((routedHostnames s.routes).foldl (fun b hostname => b.releaseDns s hostname t.id)
          (if s.routes = [] then b else b.putConfig s (.existing t.id) [])) = .ok b₁ ∧
      b' = (((((((ownedDomains s).foldl (fun b domain => b.unprotect s domain) b₁).extend
          ((doomedTokens s (routedHostnames s.routes)).map .deleteServiceToken)).extend
          (((s.networks.map fun n => n.ofTunnel t.id).getD []).map .deleteNetworkRoute)).extend
          (((s.networks.map fun n => n.hostnamesOfTunnel t.id).getD []).map
            .deleteHostnameRoute)).push (.stopConnector t.id)).push (.deleteTunnel t.id)) := by
  simp only [planRemoveTunnel, bind_eq_ok, pure_eq_ok, theTunnel_eq_ok] at h
  obtain ⟨t, ht, b₁, hrelease, rfl⟩ := h
  exact ⟨t, b₁, ht, hrelease, rfl⟩

end Teitunnel
