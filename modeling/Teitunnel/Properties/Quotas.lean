import Teitunnel.Properties.Branches
import Teitunnel.Reference

/-!
# Quotas while a plan is applied

Rules are created before any is deleted, so a quota is used most right after the last creation
(`peak_le_iff`).  The planner only compares what is used in the end, so a plan that swaps one
rule for another overshoots a quota that is exactly full, and nothing else does
(`quota_kept_iff`).
-/

namespace Teitunnel

open Except

/-! ## Counting rules along a plan -/

/-- Rules counted towards `quota` after some steps: each creation in its phases adds one, each
removal takes one away. -/
def countAfter (state : EdgeState) (quota : QuotaKind) (steps : List Step) : ℤ :=
  state.used quota + steps.countP (Changes.createsIn quota) -
    steps.countP (Changes.deletesIn quota)

/-- The zone has no more rules than its plan allows. -/
def EdgeState.WithinLimits (state : EdgeState) : Prop :=
  ∀ quota : QuotaKind, state.used quota ≤ quota.limit state.plan

namespace Changes

/-- Rules added to `quota`'s phases. -/
def added (c : Changes) (quota : QuotaKind) : ℕ := c.creates.countP (createsIn quota)

/-- Rules removed from `quota`'s phases. -/
def removed (c : Changes) (quota : QuotaKind) : ℕ :=
  c.deletes.countP fun d => deletesIn quota d.2

lemma delta_eq (c : Changes) (quota : QuotaKind) :
    c.delta quota = (c.added quota : ℤ) - c.removed quota := rfl

end Changes

/-- A kind's phase counts towards its own quota only. -/
lemma phases_contains_phase (quota : QuotaKind) (kind : RuleKind) :
    quota.phases.contains kind.phase = decide (kind.quota = quota) := by
  cases quota <;> cases kind <;> decide

section peak

variable {state : EdgeState} {c : Changes} {quota : QuotaKind}

lemma Changes.Filed.countP_creates (h : c.Filed state) :
    c.steps.countP (Changes.createsIn quota) = c.added quota := by
  have hupdates : c.updates.countP (Changes.createsIn quota) = 0 := by
    refine List.countP_eq_zero.mpr fun step hstep => ?_
    obtain ⟨_, _, _, _, rfl⟩ := h.updates step hstep
    exact Bool.false_ne_true
  have hdeletes : (c.sortedDeletes.map Prod.snd).countP (Changes.createsIn quota) = 0 := by
    refine List.countP_eq_zero.mpr fun step hstep => ?_
    obtain ⟨d, hd, rfl⟩ := List.mem_map.mp hstep
    obtain ⟨_, _, _, heq⟩ := h.deletes d (Changes.Filed.mem_sortedDeletes.mp hd)
    rw [heq]
    exact Bool.false_ne_true
  rw [Changes.steps, List.countP_append, List.countP_append, hupdates, hdeletes]
  rfl

lemma Changes.Filed.countP_deletes_creates (h : c.Filed state) :
    c.creates.countP (Changes.deletesIn quota) = 0 := by
  refine List.countP_eq_zero.mpr fun step hstep => ?_
  obtain ⟨_, _, _, rfl⟩ := h.creates step hstep
  exact Bool.false_ne_true

/-- The count stays within `limit` all along exactly when it does right after the creations. -/
lemma peak_le_iff (h : c.Filed state) (limit : ℕ) :
    (∀ steps, steps <+: c.steps → countAfter state quota steps ≤ limit) ↔
      state.used quota + c.added quota ≤ limit := by
  constructor
  · intro hall
    have hpre : c.creates <+: c.steps := by
      rw [Changes.steps, List.append_assoc]
      exact List.prefix_append _ _
    have hpeak := hall c.creates hpre
    rw [countAfter, h.countP_deletes_creates, ← Changes.added] at hpeak
    omega
  · intro hpeak steps hpre
    have hle : steps.countP (Changes.createsIn quota) ≤ c.added quota := by
      rw [← h.countP_creates]
      exact hpre.sublist.countP_le
    unfold countAfter
    omega

end peak

/-! ## What a change of settings adds and removes -/

section counts

variable [External] {state : EdgeState} {hostname : Hostname} {protection : EdgeProtection}
  {c c' : Changes}

/-- The settings ask for a rule of this kind. -/
def EdgeProtection.wants (protection : EdgeProtection) : RuleKind → Bool
  | .block => protection.bots == .block || protection.aiCrawlers
  | .challenge => protection.bots == .challenge
  | .rateLimit => false
  | .requestHeaders => protection.requestHeaders != []
  | .responseHeaders => protection.responseHeaders != []
  | .bypassCache => protection.bypassCache

/-- The zone has an owned rule of this kind for the hostname. -/
def EdgeState.hasRule (state : EdgeState) (hostname : Hostname) (kind : RuleKind) : Bool :=
  (state.ownedRule kind.phase (marker hostname kind)).isSome

/-- The settings ask for a rule the hostname doesn't have. -/
def EdgeState.adds (state : EdgeState) (hostname : Hostname) (protection : EdgeProtection)
    (kind : RuleKind) : Bool :=
  protection.wants kind && !state.hasRule hostname kind

/-- The hostname has a rule the settings don't ask for. -/
def EdgeState.drops (state : EdgeState) (hostname : Hostname) (protection : EdgeProtection)
    (kind : RuleKind) : Bool :=
  !protection.wants kind && state.hasRule hostname kind

/-- A rule is made for exactly the kinds asked for. -/
lemma lookup_hostnameRules (hostname : Hostname) (protection : EdgeProtection)
    (kind : RuleKind) :
    ((hostnameRules hostname protection).lookup kind).isSome = protection.wants kind := by
  obtain ⟨bots, ai, limit, req, res, cache⟩ := protection
  cases kind <;> cases bots <;> cases ai <;> cases cache <;> cases req <;> cases res <;> rfl

omit [External] in
lemma added_create {kind : RuleKind} {hosts : List String} {rule : NewRule} (quota : QuotaKind) :
    (c.create state kind hosts rule).added quota =
      c.added quota + if kind.quota = quota then 1 else 0 := by
  show (c.creates ++ [_]).countP _ = _
  rw [List.countP_append, List.countP_singleton, ← Changes.added]
  simp only [Changes.createsIn, phases_contains_phase, decide_eq_true_eq]

omit [External] in
lemma removed_delete {kind : RuleKind} {hosts : List String} {position : ℕ}
    {observed : ObservedRule} (quota : QuotaKind) :
    (c.delete state kind hosts position observed).removed quota =
      c.removed quota + if kind.quota = quota then 1 else 0 := by
  show (c.deletes ++ [_]).countP _ = _
  rw [List.countP_append, List.countP_singleton, ← Changes.removed]
  simp only [Changes.deletesIn, phases_contains_phase, decide_eq_true_eq]

/-- One kind's change adds a rule or removes one, as the settings say. -/
lemma kindChange_counts (state : EdgeState) (hostname : Hostname) (protection : EdgeProtection)
    (c : Changes) (kind : RuleKind) (quota : QuotaKind) :
    let c' := kindChange state hostname (hostnameRules hostname protection) c kind
    c'.added quota = c.added quota +
        (if kind.quota = quota ∧ state.adds hostname protection kind = true then 1 else 0) ∧
      c'.removed quota = c.removed quota +
        (if kind.quota = quota ∧ state.drops hostname protection kind = true then 1 else 0) := by
  have hwants := lookup_hostnameRules hostname protection kind
  simp only [kindChange, EdgeState.adds, EdgeState.drops, EdgeState.hasRule, ← hwants]
  cases hrule : state.ownedRule kind.phase (marker hostname kind) with
  | none =>
      cases hdesired : (hostnameRules hostname protection).lookup kind with
      | none => simp
      | some rule =>
          refine ⟨(added_create quota).trans (by simp), ?_⟩
          simp [Changes.create, Changes.removed]
  | some found =>
      obtain ⟨observed, position⟩ := found
      cases hdesired : (hostnameRules hostname protection).lookup kind with
      | none =>
          refine ⟨?_, (removed_delete quota).trans (by simp)⟩
          simp [Changes.delete, Changes.added]
      | some rule =>
          dsimp only
          split_ifs <;> simp_all [Changes.update, Changes.added, Changes.removed]

/-- The hostname's own rules: one addition for each kind to add, one removal for each to drop. -/
lemma hostnameChanges_counts (state : EdgeState) (hostname : Hostname)
    (protection : EdgeProtection) (quota : QuotaKind) :
    (hostnameChanges state hostname protection).added quota =
        state.kinds.countP
          (fun kind => decide (kind.quota = quota) && state.adds hostname protection kind) ∧
      (hostnameChanges state hostname protection).removed quota =
        state.kinds.countP
          (fun kind => decide (kind.quota = quota) && state.drops hostname protection kind) := by
  have hfold : ∀ (kinds : List RuleKind) (c : Changes),
      let c' := kinds.foldl (kindChange state hostname (hostnameRules hostname protection)) c
      c'.added quota = c.added quota + kinds.countP
          (fun kind => decide (kind.quota = quota) && state.adds hostname protection kind) ∧
        c'.removed quota = c.removed quota + kinds.countP
          (fun kind => decide (kind.quota = quota) && state.drops hostname protection kind) := by
    intro kinds
    induction kinds with
    | nil => intro c; exact ⟨rfl, rfl⟩
    | cons kind rest ih =>
        intro c
        obtain ⟨hadd, hremove⟩ := ih (kindChange state hostname
          (hostnameRules hostname protection) c kind)
        obtain ⟨hadd', hremove'⟩ := kindChange_counts state hostname protection c kind quota
        refine ⟨?_, ?_⟩
        · rw [List.foldl_cons, hadd, hadd', List.countP_cons]
          simp only [Bool.and_eq_true, decide_eq_true_eq]
          omega
        · rw [List.foldl_cons, hremove, hremove', List.countP_cons]
          simp only [Bool.and_eq_true, decide_eq_true_eq]
          omega
  obtain ⟨hadd, hremove⟩ := hfold state.kinds {}
  exact ⟨hadd.trans (Nat.zero_add _), hremove.trans (Nat.zero_add _)⟩

end counts

/-! ## What a change of the rate limit adds -/

section rateLimit

variable {state : EdgeState} {host : String} {c c' : Changes}

/-- The hostname is alone in its shared limit and moves to one that no other rule has. -/
def MovesAlone (state : EdgeState) (host : String) (wanted : Option RateLimitSpec) : Prop :=
  ∃ group spec, state.groupOf host = some group ∧ wanted = some spec ∧ group.spec ≠ spec ∧
    (∀ h ∈ group.hosts, h = host) ∧
    ∀ other ∈ state.rateLimits, other.spec = spec → other.rule.id = group.rule.id

lemma erase_isEmpty_iff {hosts : SortedSet String} :
    (hosts.erase host).isEmpty = true ↔ ∀ h ∈ hosts, h = host := by
  rw [SortedSet.isEmpty_iff]
  simp only [SortedSet.mem_erase, not_and]
  constructor
  · intro h x hx
    by_contra hne
    exact h x hne hx
  · intro h x hne hx
    exact hne (h x hx)

/-- Leaving a shared limit creates nothing and touches no other quota. -/
lemma leaveGroup_counts (state : EdgeState) (host : String) (c : Changes)
    (current : Option RateLimitGroup) :
    (∀ quota, (leaveGroup state host c current).added quota = c.added quota) ∧
      ∀ quota, quota ≠ .rateLimit →
        (leaveGroup state host c current).removed quota = c.removed quota := by
  cases current with
  | none => exact ⟨fun _ => rfl, fun _ _ => rfl⟩
  | some group =>
      unfold leaveGroup
      dsimp only
      split
      · refine ⟨fun _ => rfl, fun quota hquota => ?_⟩
        have hkind : RuleKind.rateLimit.quota ≠ quota := Ne.symm hquota
        rw [removed_delete, if_neg hkind, Nat.add_zero]
      · exact ⟨fun _ => rfl, fun _ _ => rfl⟩

/-- Joining a limit that exists creates nothing; a new one takes a place that must be free, the
hostname's own counting as free when it leaves it empty. -/
lemma joinGroup_counts {spec : RateLimitSpec} {current : Option RateLimitGroup}
    (h : joinGroup state host spec current c = .ok c') :
    (∀ quota, quota ≠ .rateLimit → c'.added quota = c.added quota) ∧
      (∀ quota, c'.removed quota = c.removed quota) ∧
      ((c'.added .rateLimit = c.added .rateLimit ∧
          ∃ g ∈ state.rateLimits, g.spec = spec ∧ some g.rule.id ≠ current.map (·.rule.id)) ∨
        (c'.added .rateLimit = c.added .rateLimit + 1 ∧
          (∀ g ∈ state.rateLimits, g.spec = spec → some g.rule.id = current.map (·.rule.id)) ∧
          state.used .rateLimit - (if current.any fun g => (g.hosts.erase host).isEmpty then 1
            else 0) < QuotaKind.rateLimit.limit state.plan)) := by
  unfold joinGroup at h
  split at h
  · rename_i group hfind
    cases h
    have hgroup := List.find?_some hfind
    simp only [Bool.and_eq_true, decide_eq_true_eq] at hgroup
    exact ⟨fun _ _ => rfl, fun _ => rfl,
      .inl ⟨rfl, group, List.mem_of_find?_eq_some hfind, hgroup.1, hgroup.2⟩⟩
  · rename_i hfind
    by_cases hroom : state.used .rateLimit - (if current.any fun g => (g.hosts.erase host).isEmpty
        then 1 else 0) ≥ QuotaKind.rateLimit.limit state.plan
    · simp only [hroom, if_true] at h
      cases h
    · simp only [hroom, if_false, ok.injEq] at h
      subst h
      refine ⟨fun quota hquota => ?_, fun _ => rfl, .inr ⟨added_create .rateLimit, ?_, ?_⟩⟩
      · have hkind : RuleKind.rateLimit.quota ≠ quota := Ne.symm hquota
        rw [added_create, if_neg hkind, Nat.add_zero]
      · intro g hg hspec
        have hnone := List.find?_eq_none.mp hfind g hg
        simpa [hspec] using hnone
      · exact not_le.mp hroom

/-- The rate limit's changes count towards its own quota only. -/
lemma rateLimit_counts_other {hostname : Hostname} {wanted : Option RateLimitSpec}
    (h : rateLimit state hostname wanted c = .ok c') {quota : QuotaKind}
    (hquota : quota ≠ .rateLimit) :
    c'.added quota = c.added quota ∧ c'.removed quota = c.removed quota := by
  unfold rateLimit at h
  dsimp only at h
  obtain ⟨hadd, hremove⟩ := leaveGroup_counts state hostname.asStr c (state.groupOf hostname.asStr)
  split at h
  · cases h; exact ⟨rfl, rfl⟩
  · split at h
    · cases h; exact ⟨hadd quota, hremove quota hquota⟩
    · split at h
      · cases h
      · obtain ⟨hadd', hremove', -⟩ := joinGroup_counts h
        exact ⟨(hadd' quota hquota).trans (hadd quota),
          (hremove' quota).trans (hremove quota hquota)⟩

/-- A new rate limit rule fits unless the quota is full and the hostname moves alone. -/
lemma rateLimit_added_le_iff {hostname : Hostname} {wanted : Option RateLimitSpec}
    (h : rateLimit state hostname wanted c = .ok c') (hc : c.added .rateLimit = 0)
    (hused : state.used .rateLimit ≤ QuotaKind.rateLimit.limit state.plan) :
    state.used .rateLimit + c'.added .rateLimit ≤ QuotaKind.rateLimit.limit state.plan ↔
      ¬ (state.used .rateLimit = QuotaKind.rateLimit.limit state.plan ∧
        MovesAlone state hostname.asStr wanted) := by
  unfold rateLimit at h
  dsimp only at h
  obtain ⟨hadd, -⟩ := leaveGroup_counts state hostname.asStr c (state.groupOf hostname.asStr)
  split at h
  · -- the limit stays
    rename_i hsame
    cases h
    refine iff_of_true (by omega) ?_
    rintro ⟨-, group, spec, hgroup, hwanted, hne, -, -⟩
    rw [hgroup, hwanted, Option.map_some, Option.some.injEq] at hsame
    exact hne hsame
  · rename_i hdiff
    split at h
    · -- the hostname leaves every limit
      cases h
      refine iff_of_true (by rw [hadd, hc]; omega) ?_
      rintro ⟨-, group, spec, -, hwanted, -, -, -⟩
      cases hwanted
    · rename_i spec
      split at h
      · cases h
      · obtain ⟨-, -, hjoin⟩ := joinGroup_counts h
        rcases hjoin with ⟨hcount, g, hg, hspec, hother⟩ | ⟨hcount, hnone, hroom⟩
        · -- it joins a limit that exists
          refine iff_of_true (by rw [hcount, hadd, hc]; omega) ?_
          rintro ⟨-, group, spec', hgroup, hwanted, -, -, hall⟩
          cases hwanted
          rw [hgroup] at hother
          exact hother (congrArg some (hall g hg hspec))
        · -- it gets a rule of its own
          rw [hcount, hadd, hc]
          cases hgroup : state.groupOf hostname.asStr with
          | none =>
              rw [hgroup] at hroom
              simp only [Option.any_none, Bool.false_eq_true, if_false, Nat.sub_zero] at hroom
              refine iff_of_true (by omega) ?_
              rintro ⟨-, group, _, hsome, -⟩
              rw [hgroup] at hsome
              cases hsome
          | some group =>
              rw [hgroup] at hroom hnone hdiff
              have hne : group.spec ≠ spec := fun heq => hdiff (congrArg some heq)
              have hmoves : MovesAlone state hostname.asStr (some spec) ↔
                  ∀ h ∈ group.hosts, h = hostname.asStr := by
                constructor
                · rintro ⟨group', _, hsome, -, -, halone, -⟩
                  rw [hgroup] at hsome
                  cases hsome
                  exact halone
                · intro halone
                  refine ⟨group, spec, hgroup, rfl, hne, halone, fun other ho hspec => ?_⟩
                  exact Option.some.inj (hnone other ho hspec)
              rw [hmoves, ← erase_isEmpty_iff]
              simp only [Option.any_some] at hroom
              split_ifs at hroom with halone
              · simp only [halone, and_true]
                omega
              · simp only [halone, Bool.false_eq_true, and_false, not_false_eq_true, iff_true]
                omega

end rateLimit

/-! ## Exactly when a quota is overshot -/

section overshoot

variable [External] {s : Snapshot} {state : EdgeState} {hostname : Hostname}
  {protection : EdgeProtection} {c : Changes} {p : Plan}

/-- A rule of kind `a` is added while one of kind `b` goes. -/
def EdgeState.Swaps (state : EdgeState) (hostname : Hostname) (protection : EdgeProtection)
    (a b : RuleKind) : Prop :=
  state.adds hostname protection a = true ∧ state.drops hostname protection b = true

/-- Two kinds of rules that share a quota are swapped one for the other, either way. -/
def EdgeState.Exchanges (state : EdgeState) (hostname : Hostname) (protection : EdgeProtection)
    (a b : RuleKind) : Prop :=
  state.Swaps hostname protection a b ∨ state.Swaps hostname protection b a

/-- The change swaps a rule for another of a quota that is exactly full: block for challenge,
request for response headers, or the rate limit of a hostname that is alone in its rule. -/
def SwapsWhenFull (state : EdgeState) (hostname : Hostname) (protection : EdgeProtection) : Prop :=
  (state.used .custom = QuotaKind.custom.limit state.plan ∧
      state.Exchanges hostname protection .block .challenge) ∨
    (state.used .transform = QuotaKind.transform.limit state.plan ∧
      state.Exchanges hostname protection .requestHeaders .responseHeaders) ∨
    (state.used .rateLimit = QuotaKind.rateLimit.limit state.plan ∧
      MovesAlone state hostname.asStr protection.rateLimit)

omit [External] in
/-- A quota that the plan adds to was checked. -/
lemma touches_of_added (hc : c.Filed state) {quota : QuotaKind} (h : 0 < c.added quota) :
    c.touches quota = true := by
  obtain ⟨step, hstep, hcreates⟩ := List.countP_pos_iff.mp h
  obtain ⟨kind, hosts, rule, rfl⟩ := hc.creates step hstep
  have hkind : kind.quota = quota := by
    rw [Changes.createsIn, phases_contains_phase] at hcreates
    exact of_decide_eq_true hcreates
  rw [Changes.touches, List.any_eq_true]
  refine ⟨_, List.mem_append_left _ (List.mem_append_left _ hstep), ?_⟩
  simp [Changes.kindOf, hkind]

omit [External] in
/-- What the planner checked: a quota that grows stays within its limit in the end. -/
lemma checkQuotas_ok {quotas : List QuotaKind} {b b' : Builder}
    (h : checkQuotas state c quotas b = .ok b') {quota : QuotaKind} (hquota : quota ∈ quotas)
    (htouches : c.touches quota = true) (hgrows : c.delta quota > 0) :
    usedAfter state c quota ≤ quota.limit state.plan := by
  induction quotas generalizing b with
  | nil => exact absurd hquota List.not_mem_nil
  | cons q rest ih =>
      rw [checkQuotas] at h
      rcases List.mem_cons.mp hquota with rfl | hquota
      · rw [htouches] at h
        simp only [Bool.not_true, Bool.false_eq_true, if_false] at h
        split_ifs at h with hfull
        exact not_lt.mp fun hlt => hfull ⟨hgrows, hlt⟩
      · split at h
        · exact ih h hquota
        · simp only at h
          split_ifs at h
          exact ih h hquota

omit [External] in
/-- In the end no quota that grew is over its limit. -/
lemma added_le_of_checked (hc : c.Filed state) {b b' : Builder}
    (h : checkQuotas state c QuotaKind.all b = .ok b') (quota : QuotaKind)
    (hgrows : c.removed quota < c.added quota) :
    state.used quota + c.added quota ≤ quota.limit state.plan + c.removed quota := by
  have hmem : quota ∈ QuotaKind.all := by cases quota <;> decide
  have hdelta : c.delta quota > 0 := by
    rw [Changes.delta_eq]
    omega
  have hend := checkQuotas_ok h hmem (touches_of_added hc (by omega)) hdelta
  rw [usedAfter, Changes.delta_eq] at hend
  omega

omit [External] in
/-- The kinds compared, one by one. -/
lemma countP_kinds (f : RuleKind → Bool) :
    state.kinds.countP f = (if f .block then 1 else 0) + (if f .challenge then 1 else 0) +
      (if f .requestHeaders then 1 else 0) + (if f .responseHeaders then 1 else 0) +
      (if state.cacheReadable && f .bypassCache then 1 else 0) := by
  have hkinds : state.kinds = [.block, .challenge, .requestHeaders, .responseHeaders] ++
      if state.cacheReadable then [.bypassCache] else [] := by
    cases hcache : state.cacheReadable <;> simp [EdgeState.kinds, RuleKind.perHostname, hcache]
  rw [hkinds, List.countP_append]
  cases state.cacheReadable <;> simp [List.countP_cons] <;> omega

/-- A kind isn't both added and dropped. -/
lemma adds_drops (state : EdgeState) (hostname : Hostname) (protection : EdgeProtection)
    (kind : RuleKind) :
    ¬ (state.adds hostname protection kind = true ∧ state.drops hostname protection kind = true) := by
  unfold EdgeState.adds EdgeState.drops
  cases protection.wants kind <;> simp

/-- A quota of two kinds of rules: it stays within its limit unless it is full and one kind is
exchanged for the other. -/
lemma pair_le_iff {a b : RuleKind} {used added removed limit : ℕ}
    (hadd : added = (if state.adds hostname protection a then 1 else 0) +
      if state.adds hostname protection b then 1 else 0)
    (hremove : removed = (if state.drops hostname protection a then 1 else 0) +
      if state.drops hostname protection b then 1 else 0)
    (hchecked : removed < added → used + added ≤ limit + removed) (hused : used ≤ limit) :
    used + added ≤ limit ↔ ¬ (used = limit ∧ state.Exchanges hostname protection a b) := by
  have ha := adds_drops state hostname protection a
  have hb := adds_drops state hostname protection b
  unfold EdgeState.Exchanges EdgeState.Swaps
  cases hadda : state.adds hostname protection a <;>
    cases haddb : state.adds hostname protection b <;>
    cases hdropa : state.drops hostname protection a <;>
    cases hdropb : state.drops hostname protection b <;>
    simp_all <;> omega

/-- A quota of one kind of rules, compared when `p`: it stays within its limit. -/
lemma alone_le (state : EdgeState) (hostname : Hostname) (protection : EdgeProtection)
    (a : RuleKind) (p : Bool) {used added removed limit : ℕ}
    (hadd : added = if p && state.adds hostname protection a then 1 else 0)
    (hremove : removed = if p && state.drops hostname protection a then 1 else 0)
    (hchecked : removed < added → used + added ≤ limit + removed) (hused : used ≤ limit) :
    used + added ≤ limit := by
  have ha := adds_drops state hostname protection a
  cases p <;> cases hadds : state.adds hostname protection a <;>
    cases hdrops : state.drops hostname protection a <;> simp_all

/-- Each quota after the creations, against what the settings ask for. -/
lemma added_le_iff {b b' : Builder} (hchanges : protectChanges state hostname protection = .ok c)
    (hquotas : checkQuotas state c QuotaKind.all b = .ok b') (hused : state.WithinLimits) :
    (∀ quota, state.used quota + c.added quota ≤ quota.limit state.plan) ↔
      ¬ SwapsWhenFull state hostname protection := by
  have hchecked := added_le_of_checked (protectChanges_filed hchanges) hquotas
  have hcounts := fun quota => hostnameChanges_counts state hostname protection quota
  simp only [countP_kinds] at hcounts
  have hother : ∀ quota, quota ≠ .rateLimit →
      c.added quota = (hostnameChanges state hostname protection).added quota ∧
      c.removed quota = (hostnameChanges state hostname protection).removed quota :=
    fun quota hquota => rateLimit_counts_other hchanges hquota
  have hcustom : state.used .custom + c.added .custom ≤ QuotaKind.custom.limit state.plan ↔
      ¬ (state.used .custom = QuotaKind.custom.limit state.plan ∧
        state.Exchanges hostname protection .block .challenge) := by
    refine pair_le_iff ?_ ?_ (hchecked .custom) (hused .custom)
    · rw [(hother .custom (by decide)).1, (hcounts .custom).1]
      simp [RuleKind.quota]
    · rw [(hother .custom (by decide)).2, (hcounts .custom).2]
      simp [RuleKind.quota]
  have htransform : state.used .transform + c.added .transform ≤
        QuotaKind.transform.limit state.plan ↔
      ¬ (state.used .transform = QuotaKind.transform.limit state.plan ∧
        state.Exchanges hostname protection .requestHeaders .responseHeaders) := by
    refine pair_le_iff ?_ ?_ (hchecked .transform) (hused .transform)
    · rw [(hother .transform (by decide)).1, (hcounts .transform).1]
      simp [RuleKind.quota]
    · rw [(hother .transform (by decide)).2, (hcounts .transform).2]
      simp [RuleKind.quota]
  have hlimit : state.used .rateLimit + c.added .rateLimit ≤
        QuotaKind.rateLimit.limit state.plan ↔
      ¬ (state.used .rateLimit = QuotaKind.rateLimit.limit state.plan ∧
        MovesAlone state hostname.asStr protection.rateLimit) := by
    refine rateLimit_added_le_iff hchanges ?_ (hused .rateLimit)
    rw [(hcounts .rateLimit).1]
    simp [RuleKind.quota]
  have hcache : state.used .cache + c.added .cache ≤ QuotaKind.cache.limit state.plan := by
    refine alone_le state hostname protection .bypassCache state.cacheReadable ?_ ?_
      (hchecked .cache) (hused .cache)
    · rw [(hother .cache (by decide)).1, (hcounts .cache).1]
      simp [RuleKind.quota]
    · rw [(hother .cache (by decide)).2, (hcounts .cache).2]
      simp [RuleKind.quota]
  unfold SwapsWhenFull
  rw [not_or, not_or, ← hcustom, ← htransform, ← hlimit]
  constructor
  · intro h
    exact ⟨h .custom, h .transform, h .rateLimit⟩
  · rintro ⟨h1, h2, h3⟩ quota
    cases quota with
    | custom => exact h1
    | rateLimit => exact h3
    | transform => exact h2
    | cache => exact hcache

/-- The steps of a plan to protect a hostname: those of the changes it computes. -/
lemma plan_protect_ok (h : plan (.protectHostname hostname protection) s = .ok p) :
    ∃ zoneId state c b₁, s.zoneId hostname = .ok zoneId ∧ s.edgeIn zoneId = some state ∧
      protectChanges state hostname protection = .ok c ∧
      checkQuotas state c QuotaKind.all {} = .ok b₁ ∧ p.steps = c.steps := by
  simp only [plan, map_eq_ok] at h
  obtain ⟨b, hb, rfl⟩ := h
  obtain ⟨zoneId, state, c, b₁, hzone, hstate, hchanges, hquotas, rfl⟩ := protectEdge_ok hb
  refine ⟨zoneId, state, c, b₁, hzone, hstate, hchanges, hquotas, ?_⟩
  have hsteps : (b₁.extend c.steps).steps = c.steps := by
    rw [Builder.extend_steps, checkQuotas_steps hquotas]
    rfl
  show (if (b₁.extend c.steps).steps.any Step.isMutation then _ else []) = _
  rw [hsteps]
  split_ifs with hany
  · rfl
  · refine (List.eq_nil_iff_forall_not_mem.mpr fun step hstep => hany ?_).symm
    refine List.any_eq_true.mpr ⟨step, hstep, Step.isMutation_iff.mpr ?_⟩
    rw [(protectChanges_filed hchanges).area_steps step hstep]
    exact nofun

/-- A plan to protect a hostname keeps every quota after every prefix of its steps exactly when
it doesn't swap two rules of a full quota. -/
theorem quota_kept_iff (hplan : plan (.protectHostname hostname protection) s = .ok p)
    {zoneId : String} (hzone : s.zoneId hostname = .ok zoneId)
    (hstate : s.edgeIn zoneId = some state) (hused : state.WithinLimits) :
    (∀ steps, steps <+: p.steps → ∀ quota : QuotaKind,
        countAfter state quota steps ≤ quota.limit state.plan) ↔
      ¬ SwapsWhenFull state hostname protection := by
  obtain ⟨zoneId', state', c, b₁, hzone', hstate', hchanges, hquotas, hsteps⟩ :=
    plan_protect_ok hplan
  rw [hzone] at hzone'
  cases hzone'
  rw [hstate] at hstate'
  cases hstate'
  rw [hsteps, ← added_le_iff hchanges hquotas hused]
  constructor
  · intro h quota
    exact (peak_le_iff (protectChanges_filed hchanges) _).mp fun steps hpre => h steps hpre quota
  · intro h steps hpre quota
    exact (peak_le_iff (protectChanges_filed hchanges) _).mpr (h quota) steps hpre

end overshoot

/-! ### Switching bots from block to challenge in a full zone -/

section fullZone

local instance quotaReference : External := reference

/-- Someone else's rule. -/
def foreignRule (id : String) : ObservedRule where
  id := id
  rule :=
    { action := "block", expression := "(ip.src eq 192.0.2.1)", description := "office",
      enabled := true, actionParameters := none, ratelimit := none }
  owned := false

/-- `app.example.com`'s own rule that blocks bots. -/
def blockRule : ObservedRule where
  id := "own"
  rule :=
    { action := "block", expression := hostExpression appHostname ++ " and " ++ BOTS_EXPRESSION,
      description := "teitunnel:9cd1a22e5495:block", enabled := true, actionParameters := none,
      ratelimit := none }
  owned := true

/-- A Free zone whose five custom rules are used: four by others, one by `app.example.com`. -/
def fullZone : EdgeState where
  zoneId := "zone"
  zone := "example.com"
  plan := .free
  rulesets :=
    [⟨PHASE_CUSTOM, some "rs", [foreignRule "1", foreignRule "2", foreignRule "3",
      foreignRule "4", blockRule]⟩]
  cacheReadable := true

def fullAccount : Snapshot := { newAccount with edge := [fullZone] }

/-- Switching bots to challenge adds the new rule while the old one still counts. -/
lemma fullAccount_plan :
    ∃ p, plan (.protectHostname appHostname { bots := .challenge }) fullAccount = .ok p ∧
      countAfter fullZone .custom (p.steps.take 1) = 6 := by
  have hrun : ((plan (.protectHostname appHostname { bots := .challenge }) fullAccount).toOption.any
      fun p => countAfter fullZone .custom (p.steps.take 1) = 6) = true := by
    decide +kernel
  obtain ⟨p, hp, hcount⟩ := Option.any_eq_true _ _ |>.mp hrun
  exact ⟨p, toOption_eq_some.mp hp, of_decide_eq_true hcount⟩

lemma fullZone_withinLimits : fullZone.WithinLimits := by
  intro quota
  cases quota <;> decide +kernel

/-- The condition at this input: exactly the overshoot. -/
theorem fullAccount_quota_kept_iff :
    ∃ p, plan (.protectHostname appHostname { bots := .challenge }) fullAccount = .ok p ∧
      ((∀ steps, steps <+: p.steps → ∀ quota : QuotaKind,
          countAfter fullZone quota steps ≤ quota.limit fullZone.plan) ↔
        ¬ SwapsWhenFull fullZone appHostname { bots := .challenge }) := by
  obtain ⟨p, hp, -⟩ := fullAccount_plan
  exact ⟨p, hp, quota_kept_iff hp (show fullAccount.zoneId appHostname = .ok "zone" by decide +kernel)
    (by decide +kernel)
    fullZone_withinLimits⟩

/-- Without the condition a plan can need more rules on the way than the zone allows. -/
theorem full_quota_overshot :
    ¬ ∀ s hostname protection p zoneId state,
      plan (.protectHostname hostname protection) s = .ok p →
      s.zoneId hostname = .ok zoneId → s.edgeIn zoneId = some state → state.WithinLimits →
      ∀ steps, steps <+: p.steps → ∀ quota : QuotaKind,
        countAfter state quota steps ≤ quota.limit state.plan := by
  intro h
  obtain ⟨p, hp, hcount⟩ := fullAccount_plan
  have hle := h fullAccount appHostname { bots := .challenge } p "zone" fullZone hp
    (by decide +kernel) (by decide +kernel) fullZone_withinLimits (p.steps.take 1)
    (List.take_prefix 1 p.steps) .custom
  rw [hcount] at hle
  exact absurd hle (by decide)

end fullZone

end Teitunnel
