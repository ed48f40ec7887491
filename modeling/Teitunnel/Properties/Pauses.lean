import Teitunnel.Sharing.Pause
import Teitunnel.Lib.Fallible
import Teitunnel.Lib.Runs

/-!
# Outside its hours a route stays paused

A tick resumes a route for two reasons: a schedule of it is on, or the loop remembers one that
was off and no longer serves it.  The second also happens when the lease moved to another
process: `Served` rules it out, and then a paused route stays paused (`pauses_kept`).
-/

namespace Teitunnel.Sharing

open Runs

section calendar

variable [Calendar]

/-- The route a schedule is for. -/
def routeOf (key : Key) : Key :=
  rowKey key.1 key.2

/-! ## What a tick reports -/

/-- What a tick knows on its way, after the schedules `past`. -/
structure Looked (last : Last) (now : Timestamp) (past : List RouteSchedule) (looking : Looking) :
    Prop where
  on : ∀ turn ∈ looking.turns, turn.on = true →
    ∃ entry ∈ past, entry.key = turn.key ∧ entry.schedule.isOn now = .ok true
  last : ∀ entry ∈ looking.last, entry.1 ∈ looking.seen ∨ entry ∈ last
  seen : ∀ entry ∈ past, ∀ on, entry.schedule.isOn now = .ok on → entry.key ∈ looking.seen

lemma looked_all (last : Last) (now : Timestamp) (schedules : List RouteSchedule) :
    Looked last now schedules (schedules.foldl (Looking.look now) { last }) := by
  induction schedules using List.reverseRecOn with
  | nil =>
      refine ⟨?_, ?_, ?_⟩
      · intro turn hturn
        cases hturn
      · intro entry hentry
        exact .inr hentry
      · intro entry hentry
        cases hentry
  | append_singleton past entry ih =>
      rw [List.foldl_append, List.foldl_cons, List.foldl_nil]
      set looking := past.foldl (Looking.look now) { last }
      cases hon : entry.schedule.isOn now with
      | error e =>
          simp only [Looking.look, hon]
          refine ⟨fun turn hturn hturnOn => ?_, ih.last, fun other hother on ho => ?_⟩
          · obtain ⟨other, hother, hrest⟩ := ih.on turn hturn hturnOn
            exact ⟨other, List.mem_append_left _ hother, hrest⟩
          · rcases List.mem_append.mp hother with hother | hother
            · exact ih.seen other hother on ho
            · rw [List.mem_singleton.mp hother, hon] at ho
              cases ho
      | ok on =>
          simp only [Looking.look, hon]
          refine ⟨fun turn hturn hturnOn => ?_, fun other hother => ?_, fun other hother on' ho => ?_⟩
          · have hold : turn ∈ looking.turns ∨ turn = ⟨entry.accountId, entry.hostname, on⟩ := by
              split_ifs at hturn
              · exact .inl hturn
              · simpa using hturn
            rcases hold with hold | rfl
            · obtain ⟨other, hother, hrest⟩ := ih.on turn hold hturnOn
              exact ⟨other, List.mem_append_left _ hother, hrest⟩
            · have hturnOn' : on = true := hturnOn
              rw [hturnOn'] at hon
              exact ⟨entry, by simp, rfl, hon⟩
          · rcases List.mem_cons.mp hother with rfl | hother
            · exact .inl (by simp)
            · refine (ih.last other (List.mem_of_mem_filter hother)).imp_left fun hseen => ?_
              exact List.mem_append_left _ hseen
          · rcases List.mem_append.mp hother with hother | hother
            · exact List.mem_append_left _ (ih.seen other hother on' ho)
            · rw [List.mem_singleton.mp hother]
              simp

/-- A tick reports on for a schedule that is on, or for one it remembers as off and cannot see. -/
lemma on_of_tick {last : Last} {schedules : List RouteSchedule} {now : Timestamp} {turn : Turn}
    (hturn : turn ∈ (tick last schedules now).2) (hon : turn.on = true) :
    (∃ entry ∈ schedules, entry.key = turn.key ∧ entry.schedule.isOn now = .ok true) ∨
      ((turn.key, false) ∈ last ∧
        ∀ entry ∈ schedules, entry.key = turn.key → ∀ on, entry.schedule.isOn now ≠ .ok on) := by
  have h := looked_all last now schedules
  simp only [tick] at hturn
  set looking := schedules.foldl (Looking.look now) { last }
  rcases List.mem_append.mp hturn with hturn | hturn
  · exact .inl (h.on turn hturn hon)
  · right
    obtain ⟨⟨key, on⟩, hentry, rfl⟩ := List.mem_map.mp hturn
    simp only [List.mem_filter, List.contains_eq_mem, Bool.not_eq_eq_eq_not, Bool.not_true,
      decide_eq_false_iff_not] at hentry
    obtain ⟨⟨hmem, hunseen⟩, rfl⟩ := hentry
    refine ⟨(h.last _ hmem).resolve_left hunseen, fun entry hentry hkey on ho => hunseen ?_⟩
    have hseen := h.seen entry hentry on ho
    rw [hkey] at hseen
    exact hseen

/-! ## Turns -/

namespace Machine

variable {m m' : Machine} {k : Key}

omit [Calendar] in
/-- A request takes no row away. -/
lemma request_keeps {account hostname : String} {bySchedule : Bool}
    (h : m.request account hostname bySchedule = .ok m') :
    (m'.paused (rowKey account hostname)).isSome ∧ ∀ k, (m.paused k).isSome → (m'.paused k).isSome := by
  have hsave : ∀ route, ((m.save account (normal hostname) route).paused
      (rowKey account hostname)).isSome ∧
      ∀ k, (m.paused k).isSome → ((m.save account (normal hostname) route).paused k).isSome := by
    intro route
    refine ⟨by simp [save, rowKey], fun k hk => ?_⟩
    simp only [save, Function.update_apply]
    split_ifs
    · rfl
    · exact hk
  simp only [request] at h
  cases hrow : m.paused (account, normal hostname) with
  | some existing =>
      rw [hrow] at h
      dsimp only at h
      split_ifs at h
      · cases h
        exact hsave _
      · cases h
        exact ⟨by simp [rowKey, hrow], fun k hk => hk⟩
  | none =>
      rw [hrow] at h
      cases howner : m.ownerFor account (normal hostname) with
      | error e => simp [howner, bind, Except.bind] at h
      | ok owner =>
          simp only [howner, bind, Except.bind, Except.ok.injEq] at h
          rw [← h]
          exact hsave _

omit [Calendar] in
/-- A turn takes a row away only when it is on, and for its own route. -/
lemma carryOut_keeps {turn : Turn} (hturn : turn.on = true → routeOf turn.key ≠ k)
    (hk : (m.paused k).isSome) : ((m.carryOut turn).1.paused k).isSome := by
  simp only [carryOut]
  split_ifs with hon
  · cases hrow : m.find turn.accountId turn.hostname with
    | none => exact hk
    | some paused =>
        dsimp only
        split_ifs
        · simp only [requestResume, forget, Function.update_apply]
          split_ifs with heq
          · exact absurd heq.symm (hturn hon)
          · exact hk
        · exact hk
  · cases hrequest : m.request turn.accountId turn.hostname true with
    | error e => exact hk
    | ok m' => exact (request_keeps hrequest).2 k hk

omit [Calendar] in
/-- A pause by hand is left alone. -/
lemma carryOut_byHand {turn : Turn} {paused : PausedRoute} (hk : m.paused k = some paused)
    (hhand : paused.bySchedule = false) : (m.carryOut turn).1.paused k = some paused := by
  simp only [carryOut]
  split_ifs with hon
  · cases hrow : m.find turn.accountId turn.hostname with
    | none => exact hk
    | some other =>
        dsimp only
        split_ifs with hby
        · simp only [requestResume, forget, Function.update_apply]
          split_ifs with heq
          · rw [heq] at hk
            rw [find, hk] at hrow
            rw [Option.some.inj hrow, hby] at hhand
            cases hhand
          · exact hk
        · exact hk
  · simp only [request]
    cases hrow : m.paused (turn.accountId, normal turn.hostname) with
    | some existing => simpa using hk
    | none =>
        cases howner : m.ownerFor turn.accountId (normal turn.hostname) with
        | error e => simpa [bind, Except.bind] using hk
        | ok owner =>
            simp only [bind, Except.bind, save, Function.update_apply]
            split_ifs with heq
            · rw [heq, hrow] at hk
              cases hk
            · exact hk

omit [Calendar] in
lemma carryOutAll_keeps {turns : List Turn}
    (hturns : ∀ turn ∈ turns, turn.on = true → routeOf turn.key ≠ k) (hk : (m.paused k).isSome) :
    ((m.carryOutAll turns).1.paused k).isSome := by
  induction turns generalizing m with
  | nil => exact hk
  | cons turn rest ih =>
      have hfirst := carryOut_keeps (hturns turn List.mem_cons_self) hk
      exact ih (fun turn hturn => hturns turn (List.mem_cons_of_mem _ hturn)) hfirst

omit [Calendar] in
lemma carryOutAll_byHand {turns : List Turn} {paused : PausedRoute} (hk : m.paused k = some paused)
    (hhand : paused.bySchedule = false) : (m.carryOutAll turns).1.paused k = some paused := by
  induction turns generalizing m with
  | nil => exact hk
  | cons turn rest ih => exact ih (carryOut_byHand hk hhand)

omit [Calendar] in
/-- A pause that was asked for and not refused is there after the tick. -/
lemma carryOutAll_asked {turns : List Turn} {turn : Turn}
    (hturns : ∀ turn ∈ turns, turn.on = true → routeOf turn.key ≠ k)
    (hasked : (turn, none) ∈ (m.carryOutAll turns).2) (hoff : turn.on = false)
    (hroute : routeOf turn.key = k) : ((m.carryOutAll turns).1.paused k).isSome := by
  induction turns generalizing m with
  | nil => cases hasked
  | cons first rest ih =>
      have hrest : ∀ turn ∈ rest, turn.on = true → routeOf turn.key ≠ k :=
        fun turn hturn => hturns turn (List.mem_cons_of_mem _ hturn)
      rcases List.mem_cons.mp hasked with heq | hasked
      · obtain rfl : turn = first := congrArg Prod.fst heq
        have hnone : none = (m.carryOut turn).2 := congrArg Prod.snd heq
        have hrow : ((m.carryOut turn).1.paused k).isSome := by
          cases hrequest : m.request turn.accountId turn.hostname true with
          | error e => simp [carryOut, hoff, hrequest] at hnone
          | ok m' =>
              simp only [carryOut, hoff, hrequest, Bool.false_eq_true, if_false]
              rw [← hroute]
              exact (request_keeps hrequest).1
        show ((carryOutAll (m.carryOut turn).1 rest).1.paused k).isSome
        exact carryOutAll_keeps hrest hrow
      · exact ih hrest hasked

/-- Some schedule of the route is on now. -/
def IsOn (m : Machine) (k : Key) : Prop :=
  ∃ entry ∈ m.schedules, routeOf entry.key = k ∧ entry.schedule.isOn m.now = .ok true

/-- A loop that remembers a schedule of the route as off serves it, and can read it, when it
ticks. -/
def Served (k : Key) (m : Machine) : Action → Prop
  | .tick i => ∀ l, m.loops[i]? = some l → ∀ key, routeOf key = k → (key, false) ∈ l.last →
      ∃ entry ∈ m.mine l, entry.key = key ∧ ∃ on, entry.schedule.isOn m.now = .ok on
  | _ => True

/-- The route's schedules are off, and no person resumes it. -/
def StaysOff (k : Key) (m : Machine) (a : Action) : Prop :=
  ¬ m.IsOn k ∧ ∀ account hostname, a = .resumeByHand account hostname → rowKey account hostname ≠ k

/-- While the schedule is off, a tick of a loop that serves what it remembers reports nothing on
for the route. -/
lemma turns_of_served {l : Loop} {i : ℕ} (hl : m.loops[i]? = some l)
    (hserved : Served k m (.tick i)) (hoff : ¬ m.IsOn k) :
    ∀ turn ∈ (tick l.last (m.mine l) m.now).2, turn.on = true → routeOf turn.key ≠ k := by
  intro turn hturn hon hroute
  rcases on_of_tick hturn hon with ⟨entry, hentry, hkey, hnow⟩ | ⟨hlast, hunread⟩
  · have hmem : entry ∈ m.schedules := (List.mem_filter.mp hentry).1
    exact hoff ⟨entry, hmem, by rw [hkey]; exact hroute, hnow⟩
  · obtain ⟨entry, hentry, hkey, on, hnow⟩ := hserved l hl turn.key hroute hlast
    exact hunread entry hentry hkey on hnow

lemma step_tick {i : ℕ} (h : m.step (.tick i) = some m') :
    ∃ l, m.loops[i]? = some l ∧ m'.paused =
      (m.carryOutAll (tick l.last (m.mine l) m.now).2).1.paused := by
  simp only [step, Option.bind_eq_bind, Option.bind_eq_some_iff] at h
  obtain ⟨l, hl, h⟩ := h
  refine ⟨l, hl, ?_⟩
  rw [← Option.some.inj h]
  rfl

/-- What is paused stays paused in a step that doesn't find the schedule on. -/
lemma row_step {a : Action} (hserved : Served k m a) (hoff : StaysOff k m a)
    (h : m.step a = some m') (hk : (m.paused k).isSome) : (m'.paused k).isSome := by
  cases a with
  | tick i =>
      obtain ⟨l, hl, hpaused⟩ := step_tick h
      rw [hpaused]
      exact carryOutAll_keeps (turns_of_served hl hserved hoff.1) hk
  | pauseByHand account hostname =>
      simp only [step] at h
      exact (request_keeps (Except.toOption_eq_some.mp h)).2 k hk
  | resumeByHand account hostname =>
      cases h
      simp only [requestResume, forget, Function.update_apply]
      split_ifs with heq
      · exact absurd heq.symm (hoff.2 account hostname rfl)
      · exact hk
  | claim i =>
      simp only [step, Option.bind_eq_bind, Option.bind_eq_some_iff] at h
      obtain ⟨l, -, -, -, h⟩ := h
      rw [← Option.some.inj h]
      simp only [claimHost]
      split_ifs <;> exact hk
  | release i =>
      simp only [step, Option.bind_eq_bind, Option.bind_eq_some_iff] at h
      obtain ⟨l, -, h⟩ := h
      rw [← Option.some.inj h]
      simp only [releaseHost]
      split_ifs <;> exact hk
  | setSchedule account hostname schedule =>
      cases h
      exact hk
  | _ =>
      cases h
      exact hk

/-- In a run in which the loops serve what they remember, a pause that the schedule asked for
stays until the schedule is on or a person resumes the route; and in every run a pause by hand
stays through every tick. -/
theorem pauses_kept {m₀ : Machine} {actions : List Action} (k : Key)
    (hrun : run step m₀ actions = some m) (hserved : Meets step (Served k) m₀ actions) :
    (∀ past i rest m₁ l turn, actions = past ++ .tick i :: rest →
      run step m₀ past = some m₁ → m₁.loops[i]? = some l →
      (turn, none) ∈ (m₁.runTick l).2.2 → turn.on = false → routeOf turn.key = k →
      Meets step (StaysOff k) m₁ (.tick i :: rest) → (m.paused k).isSome) ∧
    (∀ past i rest m₁ m₂ paused, actions = past ++ .tick i :: rest →
      run step m₀ past = some m₁ → m₁.step (.tick i) = some m₂ →
      m₁.paused k = some paused → paused.bySchedule = false → m₂.paused k = some paused) := by
  constructor
  · intro past i rest m₁ l turn hactions hpast hl hasked hoff hroute hstays
    subst hactions
    obtain ⟨u, hu, hrest⟩ := run_append.mp hrun
    obtain rfl : m₁ = u := Option.some.inj (hpast.symm.trans hu)
    have hserved' := (meets_append hserved).2 m₁ hpast
    obtain ⟨m₂, htick, hrun'⟩ := run_cons.mp hrest
    obtain ⟨l', hl', hpaused⟩ := step_tick htick
    obtain rfl : l = l' := Option.some.inj (hl.symm.trans hl')
    -- the row is there after the tick that asked for it
    have hrow : (m₂.paused k).isSome := by
      rw [hpaused]
      exact carryOutAll_asked (turns_of_served hl hserved'.1 hstays.1.1) hasked hoff hroute
    exact run_invariant (P := fun s a => Served k s a ∧ StaysOff k s a)
      (I := fun _ t => (t.paused k).isSome = true) hrow
      (fun _ _ _ _ _ hk hmeets hstep => row_step hmeets.1 hmeets.2 hstep hk) hrun'
      (meets_and (hserved'.2 m₂ htick) (hstays.2 m₂ htick))
  · intro past i rest m₁ m₂ paused _ _ htick hk hhand
    obtain ⟨l, -, hpaused⟩ := step_tick htick
    rw [hpaused]
    exact carryOutAll_byHand hk hhand

end Machine

end calendar

/-! ## A lease that moves -/

/-- Every zone is UTC. -/
local instance utc : Calendar where
  Zone := Unit
  get zone := if zone = "UTC" then some () else none
  system := ()
  date _ now := now / 86400000
  instant _ date minutes := some (date * 86400000 + minutes * 60000)

/-- On during office hours. -/
def officeHours : RouteSchedule where
  accountId := "acc"
  hostname := "app.example.com"
  schedule := ⟨[.mon, .tue, .wed, .thu, .fri], "09:00", "17:00", some "UTC"⟩

/-- Thursday night; nothing runs yet. -/
def night : Machine where
  now := 0
  lease := none
  running := []
  shares := []
  taps := []
  schedules := [officeHours]
  paused _ := none
  loops := []

namespace Machine

/-- `serve` starts, takes the lease and pauses the route for the night. -/
def overnight : List Action :=
  [.start .routeHost "cli-1", .claim 0, .tick 0, .pass 1000]

theorem pauses_kept_overnight :
    ∃ m, run step night overnight = some m ∧
      (∀ past i rest m₁ l turn, overnight = past ++ .tick i :: rest →
        run step night past = some m₁ → m₁.loops[i]? = some l →
        (turn, none) ∈ (m₁.runTick l).2.2 → turn.on = false →
        routeOf turn.key = routeOf officeHours.key →
        Meets step (StaysOff (routeOf officeHours.key)) m₁ (.tick i :: rest) →
        (m.paused (routeOf officeHours.key)).isSome) ∧
      (∀ past i rest m₁ m₂ paused, overnight = past ++ .tick i :: rest →
        run step night past = some m₁ → m₁.step (.tick i) = some m₂ →
        m₁.paused (routeOf officeHours.key) = some paused → paused.bySchedule = false →
        m₂.paused (routeOf officeHours.key) = some paused) := by
  refine ⟨_, rfl, pauses_kept (routeOf officeHours.key) rfl ?_⟩
  refine meets_cons rfl trivial (meets_cons rfl trivial (meets_cons rfl ?_
    (meets_cons rfl trivial trivial)))
  intro l hl key _ hmem
  rw [← Option.some.inj hl] at hmem
  cases hmem

instance (m : Machine) (k : Key) : Decidable (m.IsOn k) :=
  inferInstanceAs (Decidable (∃ entry ∈ m.schedules, _))

/-- The app takes the lease: `serve` forgets the schedule it no longer serves, and resumes the
route in the middle of the night. -/
theorem pauses_lost :
    ∃ past i rest m₁ l turn m, run step night past = some m₁ ∧ m₁.loops[i]? = some l ∧
      (turn, none) ∈ (m₁.runTick l).2.2 ∧ turn.on = false ∧
      routeOf turn.key = routeOf officeHours.key ∧
      run step m₁ (.tick i :: rest) = some m ∧
      Meets step (StaysOff (routeOf officeHours.key)) m₁ (.tick i :: rest) ∧
      m.paused (routeOf officeHours.key) = none := by
  refine ⟨[.start .routeHost "cli-1", .claim 0], 0,
    [.start .app APP_OWNER, .claim 1, .tick 1, .claim 0, .tick 0], _, _,
    ⟨"acc", "app.example.com", false⟩, _, rfl, rfl, by decide +kernel, rfl, rfl, rfl, ?_,
    by decide +kernel⟩
  refine meets_cons rfl ⟨by decide +kernel, nofun⟩ (meets_cons rfl ⟨by decide +kernel, nofun⟩
    (meets_cons rfl ⟨by decide +kernel, nofun⟩ (meets_cons rfl ⟨by decide +kernel, nofun⟩
      (meets_cons rfl ⟨by decide +kernel, nofun⟩ (meets_cons rfl ⟨by decide +kernel, nofun⟩
        trivial)))))

end Machine

end Teitunnel.Sharing
