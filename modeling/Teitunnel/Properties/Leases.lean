import Teitunnel.Lib.Lists
import Teitunnel.Lib.Runs
import Teitunnel.Sharing.Lease

/-!
# One process serves the routes

A claim that was answered with yes keeps the others out for as long as it lasts, when no release
deletes a lease that was claimed after it read it.
-/

namespace Teitunnel.Sharing

open Runs

/-- What takes the lease from `owner`: its own release, its end, or a claim with force. -/
def LeaseEvent.Ends (owner : String) : LeaseEvent → Prop
  | .claimed _ force _ => force = true
  | .released other => other = owner
  | .deleted .. => False
  | .exited other => other = owner

/-- Between two claims of different processes, the second without force and within the time of
the first, something took the lease from the first. -/
def Exclusive (log : List LeaseEvent) : Prop :=
  ∀ pre mid post owner other force time later,
    log = pre ++ .claimed owner force time :: (mid ++ .claimed other false later :: post) →
      other ≠ owner → later < time + HOST_LEASE_MS → ∃ event ∈ mid, event.Ends owner

/-- A release deletes no lease but its own. -/
def OwnReleases (log : List LeaseEvent) : Prop :=
  ∀ owner holder until', .deleted owner (some (holder, until')) ∈ log → holder = owner

namespace Leases

/-- A release deletes the lease it read: nobody claimed it in between. -/
def Undisturbed (s : Leases) : Step → Prop
  | .delete i => ∀ owner claims, s.releasing[i]? = some (owner, claims) → claims = s.claims
  | _ => True

/-- What holds while nobody's release deletes a lease claimed since. -/
structure Orderly (s : Leases) : Prop where
  times : ∀ owner force time, .claimed owner force time ∈ s.log → time ≤ s.machine.now
  held : ∀ pre mid owner force time, s.log = pre ++ .claimed owner force time :: mid →
    (∀ event ∈ mid, ¬ event.Ends owner) → s.machine.now < time + HOST_LEASE_MS →
      s.machine.isAlive owner = true ∧
        ∃ until', s.machine.lease = some (owner, until') ∧ time + HOST_LEASE_MS ≤ until'
  counted : ∀ owner claims, (owner, claims) ∈ s.releasing → claims ≤ s.claims
  own : ∀ owner holder until', (owner, s.claims) ∈ s.releasing →
    s.machine.lease = some (holder, until') → holder = owner
  asked : ∀ owner, (owner, s.claims) ∈ s.releasing → ∀ pre mid holder force time,
    s.log = pre ++ .claimed holder force time :: mid → .released owner ∈ mid
  exclusive : Exclusive s.log
  releases : OwnReleases s.log

variable {s t : Leases} {owner : String}

/-! ## The log -/

lemma exclusive_snoc {log : List LeaseEvent} {event : LeaseEvent} (h : Exclusive log)
    (hlast : ∀ other later, event = .claimed other false later →
      ∀ pre mid owner force time, log = pre ++ .claimed owner force time :: mid → other ≠ owner →
        later < time + HOST_LEASE_MS → ∃ event ∈ mid, event.Ends owner) :
    Exclusive (log ++ [event]) := by
  intro pre mid post owner other force time later hlog hne htime
  have hlog' : log ++ [event] =
      (pre ++ .claimed owner force time :: mid) ++ .claimed other false later :: post := by
    simpa using hlog
  rcases List.split_snoc hlog' with ⟨-, hevent, hsplit⟩ | ⟨post', -, hsplit⟩
  · exact hlast other later hevent pre mid owner force time hsplit hne htime
  · exact h pre mid post' owner other force time later (by simpa using hsplit) hne htime

lemma ownReleases_snoc {log : List LeaseEvent} {event : LeaseEvent} (h : OwnReleases log)
    (hlast : ∀ owner holder until', event = .deleted owner (some (holder, until')) →
      holder = owner) : OwnReleases (log ++ [event]) := by
  intro owner holder until' hmem
  rcases List.mem_append.mp hmem with hlog | hevent
  · exact h owner holder until' hlog
  · exact hlast owner holder until' (List.mem_singleton.mp hevent).symm

/-! ## Claims -/

/-- A claim by another process, without force, of a lease that is held is refused. -/
lemma claimHost_held {m : Machine} {other : String} {until' : Timestamp}
    (hlease : m.lease = some (owner, until')) (halive : m.isAlive owner = true)
    (hlive : m.now < until') (hne : other ≠ owner) : m.claimHost other false = (m, false) := by
  rw [Machine.claimHost, hlease]
  simp [halive, hlive, Ne.symm hne]

/-- A claim is refused, or takes the lease. -/
lemma claimHost_cases (m : Machine) (owner : String) (force : Bool) :
    m.claimHost owner force = (m, false) ∨
      m.claimHost owner force = ({ m with lease := some (owner, m.now + HOST_LEASE_MS) }, true) := by
  rw [Machine.claimHost]
  split_ifs
  · exact .inl rfl
  · exact .inr rfl

/-- What an event adds to the log, when it is no claim and the lease is left alone. -/
lemma Orderly.record (h : Orderly s) {event : LeaseEvent}
    (hclaim : ∀ owner force time, event ≠ .claimed owner force time)
    (hdelete : ∀ owner lease, event ≠ .deleted owner lease) :
    Orderly { s with log := s.log ++ [event] } where
  times owner force time hmem := by
    rcases List.mem_append.mp hmem with hlog | hevent
    · exact h.times owner force time hlog
    · exact absurd (List.mem_singleton.mp hevent).symm (hclaim owner force time)
  held pre mid owner force time hlog hends htime := by
    rcases List.split_snoc hlog with ⟨-, hevent, -⟩ | ⟨mid', rfl, hsplit⟩
    · exact absurd hevent (hclaim owner force time)
    · exact h.held pre mid' owner force time hsplit
        (fun event hmem => hends event (List.mem_append_left _ hmem)) htime
  counted := h.counted
  own := h.own
  asked owner hmem pre mid holder force time hlog := by
    rcases List.split_snoc hlog with ⟨-, hevent, -⟩ | ⟨mid', rfl, hsplit⟩
    · exact absurd hevent (hclaim holder force time)
    · exact List.mem_append_left _ (h.asked owner hmem pre mid' holder force time hsplit)
  exclusive := exclusive_snoc h.exclusive fun other later hevent => absurd hevent (hclaim _ _ _)
  releases := ownReleases_snoc h.releases fun owner holder until' hevent =>
    absurd hevent (hdelete _ _)

lemma Orderly.claim (h : Orderly s) (halive : s.machine.isAlive owner = true) (force : Bool) :
    Orderly (s.claim owner force) := by
  rcases claimHost_cases s.machine owner force with hrefused | htaken
  · rw [Leases.claim, hrefused]
    exact h
  rw [Leases.claim, htaken]
  refine ⟨?_, ?_, ?_, ?_, ?_, ?_, ?_⟩
  · intro other force' time hmem
    rcases List.mem_append.mp hmem with hlog | hevent
    · exact h.times other force' time hlog
    · have heq := List.mem_singleton.mp hevent
      rw [LeaseEvent.claimed.injEq] at heq
      exact heq.2.2.le
  · intro pre mid other force' time hlog hends htime
    rcases List.split_snoc hlog with ⟨-, hevent, -⟩ | ⟨mid', rfl, hsplit⟩
    · rw [LeaseEvent.claimed.injEq] at hevent
      obtain ⟨rfl, -, rfl⟩ := hevent
      exact ⟨halive, _, rfl, le_rfl⟩
    · -- an earlier claim that still holds is of the same process, or this one is with force
      obtain ⟨halive', until', hlease, huntil⟩ := h.held pre mid' other force' time hsplit
        (fun event hmem => hends event (List.mem_append_left _ hmem)) htime
      have hforce : force = false := by
        have hnot := hends _ (List.mem_append_right mid' (List.mem_singleton.mpr rfl))
        simpa [LeaseEvent.Ends] using hnot
      by_cases hsame : owner = other
      · obtain rfl := hsame
        have htimes := h.times owner force' time (by rw [hsplit]; simp)
        exact ⟨halive', _, rfl, by linarith⟩
      · have hnow : s.machine.now < time + HOST_LEASE_MS := htime
        rw [hforce, claimHost_held hlease halive' (by linarith) hsame] at htaken
        simp at htaken
  · intro other claims hmem
    exact (h.counted other claims hmem).trans (Nat.le_succ _)
  · intro other holder until' hmem
    exact absurd (h.counted other _ hmem) (Nat.not_succ_le_self _)
  · intro other hmem
    exact absurd (h.counted other _ hmem) (Nat.not_succ_le_self _)
  · refine exclusive_snoc h.exclusive ?_
    intro other later hevent pre mid holder force' time hsplit hne htime
    rw [LeaseEvent.claimed.injEq] at hevent
    obtain ⟨rfl, rfl, rfl⟩ := hevent
    by_contra hnone
    simp only [not_exists, not_and] at hnone
    obtain ⟨halive', until', hlease, huntil⟩ := h.held pre mid holder force' time hsplit hnone htime
    rw [claimHost_held hlease halive' (by linarith) hne] at htaken
    simp at htaken
  · exact ownReleases_snoc h.releases fun _ _ _ hevent => by cases hevent

/-! ## Releases -/

lemma host_eq {m : Machine} (h : m.host = some owner) :
    ∃ until', m.lease = some (owner, until') := by
  rw [Machine.host] at h
  cases hlease : m.lease with
  | none => simp [hlease] at h
  | some lease =>
      obtain ⟨holder, until'⟩ := lease
      simp only [hlease, Option.bind_eq_bind, Option.bind_some, Option.bind_eq_some_iff] at h
      obtain ⟨-, -, hholder⟩ := h
      obtain rfl := Option.some.inj hholder
      exact ⟨until', rfl⟩

lemma Orderly.release (h : Orderly s) : Orderly (s.release owner) := by
  have hrecord : Orderly { s with log := s.log ++ [.released owner] } :=
    h.record (by simp) (by simp)
  rw [Leases.release]
  dsimp only
  split_ifs with hhost
  · obtain ⟨until', hlease⟩ := host_eq hhost
    refine { hrecord with counted := ?_, own := ?_, asked := ?_ }
    · intro other claims hmem
      rcases List.mem_append.mp hmem with hold | hnew
      · exact h.counted other claims hold
      · have heq := List.mem_singleton.mp hnew
        rw [Prod.mk.injEq] at heq
        exact heq.2.le
    · intro other holder end' hmem hheld
      rcases List.mem_append.mp hmem with hold | hnew
      · exact h.own other holder end' hold hheld
      · have heq := List.mem_singleton.mp hnew
        rw [Prod.mk.injEq] at heq
        have hsame : some (owner, until') = some (holder, end') := hlease.symm.trans hheld
        rw [Option.some.injEq, Prod.mk.injEq] at hsame
        rw [heq.1, hsame.1]
    · intro other hmem pre mid holder force time hlog
      rcases List.mem_append.mp hmem with hold | hnew
      · exact hrecord.asked other hold pre mid holder force time hlog
      · have heq := List.mem_singleton.mp hnew
        rw [Prod.mk.injEq] at heq
        rcases List.split_snoc hlog with ⟨-, hevent, -⟩ | ⟨mid', rfl, -⟩
        · cases hevent
        · rw [heq.1]
          exact List.mem_append_right _ List.mem_cons_self
  · exact hrecord

lemma Orderly.delete (h : Orderly s) {i claims : ℕ} (hi : s.releasing[i]? = some (owner, claims))
    (hsame : claims = s.claims) : Orderly (s.delete i owner) := by
  subst hsame
  have hmem : (owner, s.claims) ∈ s.releasing := List.mem_of_getElem? hi
  have hrest : ∀ entry, entry ∈ s.releasing.eraseIdx i → entry ∈ s.releasing :=
    fun entry hentry => List.mem_of_mem_eraseIdx hentry
  refine ⟨?_, ?_, ?_, ?_, ?_, ?_, ?_⟩
  · intro other force time hlog
    rcases List.mem_append.mp hlog with hlog | hevent
    · exact h.times other force time hlog
    · cases List.mem_singleton.mp hevent
  · intro pre mid other force time hlog hends htime
    rcases List.split_snoc hlog with ⟨-, hevent, -⟩ | ⟨mid', rfl, hsplit⟩
    · cases hevent
    · -- the holder itself asked for the release since its claim
      have hends' : ∀ event ∈ mid', ¬ event.Ends other :=
        fun event hmem => hends event (List.mem_append_left _ hmem)
      obtain ⟨-, until', hlease, -⟩ := h.held pre mid' other force time hsplit hends' htime
      have hother := h.own owner other until' hmem hlease
      have hasked := h.asked owner hmem pre mid' other force time hsplit
      exact absurd hother.symm (hends' _ hasked)
  · exact fun other claims hentry => h.counted other claims (hrest _ hentry)
  · intro other holder until' _ hlease
    cases hlease
  · intro other hentry pre mid holder force time hlog
    rcases List.split_snoc hlog with ⟨-, hevent, -⟩ | ⟨mid', rfl, hsplit⟩
    · cases hevent
    · exact List.mem_append_left _ (h.asked other (hrest _ hentry) pre mid' holder force time hsplit)
  · exact exclusive_snoc h.exclusive fun _ _ hevent => by cases hevent
  · refine ownReleases_snoc h.releases ?_
    intro other holder until' hevent
    rw [LeaseEvent.deleted.injEq] at hevent
    obtain ⟨rfl, hlease⟩ := hevent
    exact h.own owner holder until' hmem hlease

/-! ## Runs -/

lemma isAlive_of_filter {m : Machine} {other : String} (h : m.isAlive owner = true)
    (hne : owner ≠ other) :
    ({ m with running := m.running.filter (· ≠ other) } : Machine).isAlive owner = true := by
  simp only [Machine.isAlive, Bool.or_eq_true, beq_iff_eq, List.contains_iff_mem] at h ⊢
  refine h.imp_right fun hmem => ?_
  exact List.mem_filter.mpr ⟨hmem, by simpa using hne⟩

lemma Orderly.exit (h : Orderly s) : Orderly { s with
    machine := { s.machine with running := s.machine.running.filter (· ≠ owner) }
    releasing := s.releasing.filter fun entry => entry.1 ≠ owner
    log := s.log ++ [.exited owner] } := by
  have hrecord : Orderly { s with log := s.log ++ [.exited owner] } :=
    h.record (by simp) (by simp)
  refine { hrecord with held := ?_, counted := ?_, own := ?_, asked := ?_ }
  · intro pre mid other force time hlog hends htime
    obtain ⟨halive, hlease⟩ := hrecord.held pre mid other force time hlog hends htime
    rcases List.split_snoc hlog with ⟨-, hevent, -⟩ | ⟨mid', rfl, -⟩
    · cases hevent
    · have hne : owner ≠ other := hends _ (List.mem_append_right mid' List.mem_cons_self)
      exact ⟨isAlive_of_filter halive (Ne.symm hne), hlease⟩
  · exact fun other claims hmem => h.counted other claims (List.mem_of_mem_filter hmem)
  · exact fun other holder until' hmem => h.own other holder until' (List.mem_of_mem_filter hmem)
  · exact fun other hmem => hrecord.asked other (List.mem_of_mem_filter hmem)

/-- Every step keeps order, when releases delete the lease they read. -/
lemma Orderly.step (h : Orderly s) {a : Step} (hcond : Undisturbed s a)
    (ht : s.step a = some t) : Orderly t := by
  cases a with
  | pass ms =>
      cases ht
      refine { h with times := ?_, held := ?_ }
      · intro other force time hmem
        have htime := h.times other force time hmem
        show time ≤ s.machine.now + ms
        linarith
      · intro pre mid other force time hlog hends htime
        have hnow : s.machine.now + ms < time + HOST_LEASE_MS := htime
        exact h.held pre mid other force time hlog hends (by linarith)
  | start other =>
      cases ht
      refine { h with held := ?_ }
      intro pre mid holder force time hlog hends htime
      obtain ⟨halive, hlease⟩ := h.held pre mid holder force time hlog hends htime
      refine ⟨?_, hlease⟩
      simp only [Machine.isAlive, Bool.or_eq_true, beq_iff_eq, List.contains_iff_mem] at halive ⊢
      exact halive.imp_right fun hmem => List.mem_cons_of_mem _ hmem
  | exit other =>
      cases ht
      exact h.exit
  | claim other force =>
      rw [Leases.step] at ht
      split_ifs at ht with halive
      cases ht
      exact h.claim halive force
  | release other =>
      rw [Leases.step] at ht
      split_ifs at ht
      cases ht
      exact h.release
  | delete i =>
      rw [Leases.step, Option.map_eq_some_iff] at ht
      obtain ⟨⟨other, claims⟩, hi, rfl⟩ := ht
      exact h.delete hi (hcond other claims hi)

lemma orderly_start (m : Machine) : Orderly { machine := m } where
  times _ _ _ hmem := by cases hmem
  held pre _ _ _ _ hlog := by cases pre <;> cases hlog
  counted _ _ hmem := by cases hmem
  own _ _ _ hmem := by cases hmem
  asked _ hmem := by cases hmem
  exclusive pre _ _ _ _ _ _ _ hlog := by cases pre <;> cases hlog
  releases _ _ _ hmem := by cases hmem

/-- However claims and releases interleave, one process holds the lease for as long as its claim
lasts, and no release deletes another's, when releases delete the lease they read. -/
theorem lease_kept {m : Machine} {steps : List Step}
    (hrun : run step { machine := m } steps = some s)
    (hundisturbed : Meets step Undisturbed { machine := m } steps) :
    Exclusive s.log ∧ OwnReleases s.log := by
  have h : Orderly s := run_invariant (I := fun _ s => Orderly s) (orderly_start m)
    (fun _ _ _ _ _ h hP ht => h.step hP ht) hrun hundisturbed
  exact ⟨h.exclusive, h.releases⟩

/-- `up` and `serve` run, and nobody holds the lease. -/
def idle : Machine where
  now := 0
  lease := none
  running := ["up", "serve", "other"]
  shares := []
  taps := []
  schedules := []
  paused := fun _ => none
  loops := []

/-- `up` gives its lease up, and `serve` takes it. -/
theorem lease_kept_handedOver :
    ∃ s, run step { machine := idle }
        [.claim "up" false, .release "up", .delete 0, .claim "serve" false] = some s ∧
      Exclusive s.log ∧ OwnReleases s.log := by
  obtain ⟨s, hrun⟩ : ∃ s, run step { machine := idle }
      [.claim "up" false, .release "up", .delete 0, .claim "serve" false] = some s := ⟨_, rfl⟩
  refine ⟨s, hrun, lease_kept hrun ?_⟩
  refine meets_cons rfl trivial (meets_cons rfl trivial (meets_cons rfl ?_
    (meets_cons rfl trivial trivial)))
  rintro other claims hi
  have hone : some (("up", 1) : String × ℕ) = some (other, claims) := hi
  rw [Option.some.injEq, Prod.mk.injEq] at hone
  exact hone.2.symm

/-- The app takes the lease between the two calls of `up`'s release, which deletes it: `serve`
gets it at once. -/
theorem lease_stolen :
    ∃ steps s, run step { machine := idle } steps = some s ∧
      ¬ Exclusive s.log ∧ ¬ OwnReleases s.log := by
  refine ⟨[.claim "up" false, .release "up", .claim "app" true, .delete 0, .claim "serve" false],
    _, rfl, ?_, ?_⟩
  · intro h
    obtain ⟨event, hmem, hends⟩ := h
      [.claimed "up" false 0, .released "up"] [.deleted "up" (some ("app", HOST_LEASE_MS))] []
      "app" "serve" true 0 0 rfl (by decide) (by decide)
    rw [List.mem_singleton] at hmem
    rw [hmem] at hends
    exact hends
  · intro h
    have hsame := h "up" "app" HOST_LEASE_MS (by
      show _ ∈ [LeaseEvent.claimed "up" false 0, .released "up", .claimed "app" true 0,
        .deleted "up" (some ("app", HOST_LEASE_MS)), .claimed "serve" false 0]
      simp)
    exact absurd hsame (by decide)

end Leases

end Teitunnel.Sharing
