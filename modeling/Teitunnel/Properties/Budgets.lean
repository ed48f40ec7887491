import Teitunnel.Requests
import Teitunnel.Lib.Lists
import Teitunnel.Lib.Runs

/-!
# Request budgets

The requests that go out are spaced by the request budget, whatever is answered.  The places in
the GraphQL budget are spaced too, and queries that go out when they took their place, each once,
are bounded by them.
-/

namespace Teitunnel.CfApi

open Runs Sliding

/-- The request goes out next, when its turn has come. -/
def Stage.throttles : Stage → Bool
  | .throttle | .asleep _ => true
  | _ => false

/-- A query goes out when it took its place in the GraphQL budget, and isn't sent again. -/
def Client.Direct (s : Client) : Step → Prop
  | .proceed i => ∀ call ∈ s.calls[i]?, call.graphql = true → call.stage.throttles = true →
      .took i s.now ∈ s.log
  | .answer i answer => ∀ call ∈ s.calls[i]?, call.graphql = true → call.retries answer = false
  | _ => True

instance (s : Client) (a : Step) : Decidable (s.Direct a) := by
  cases a with
  | proceed i => exact inferInstanceAs (Decidable (∀ call ∈ s.calls[i]?, _))
  | answer i answer => exact inferInstanceAs (Decidable (∀ call ∈ s.calls[i]?, _))
  | advance now => exact instDecidableTrue
  | send retry => exact instDecidableTrue
  | postGraphql => exact instDecidableTrue
  | drop i => exact instDecidableTrue

/-! ## Calls -/

namespace Client

variable {s t : Client} {i j : ℕ} {call call' : Call} {change : Call → Call} {stage : Stage}

lemma update_cases (h : (s.update i change).calls[j]? = some call') :
    (j = i ∧ ∃ call, s.calls[i]? = some call ∧ call' = change call) ∨
      (j ≠ i ∧ s.calls[j]? = some call') :=
  List.getElem?_modify_eq_some h

/-- What a step does. -/
lemma step_cases {a : Step} (h : s.step a = some t) :
    (∃ now, s.now ≤ now ∧ t = { s with now }) ∨
    (∃ call, t = { s with calls := s.calls ++ [call] } ∧
      (call.graphql = false ∧ call.stage = .throttle ∨
        call.graphql = true ∧ call.stage = .budget)) ∨
    ∃ i call, s.calls[i]? = some call ∧
      ((a = .proceed i ∧ s.proceed i call = some t) ∨
        (∃ answer, a = .answer i answer ∧ s.answer i call answer = some t) ∨
          (a = .drop i ∧ t = s.drop i call)) := by
  cases a with
  | advance now =>
      rw [step] at h
      split_ifs at h with hnow
      exact .inl ⟨now, hnow, (Option.some.inj h).symm⟩
  | send retry => exact .inr (.inl ⟨_, (Option.some.inj h).symm, .inl ⟨rfl, rfl⟩⟩)
  | postGraphql => exact .inr (.inl ⟨_, (Option.some.inj h).symm, .inr ⟨rfl, rfl⟩⟩)
  | proceed i =>
      obtain ⟨call, hcall, h⟩ := Option.bind_eq_some_iff.mp h
      exact .inr (.inr ⟨i, call, hcall, .inl ⟨rfl, h⟩⟩)
  | answer i answer =>
      obtain ⟨call, hcall, h⟩ := Option.bind_eq_some_iff.mp h
      exact .inr (.inr ⟨i, call, hcall, .inr (.inl ⟨answer, rfl, h⟩)⟩)
  | drop i =>
      obtain ⟨call, hcall, h⟩ := Option.map_eq_some_iff.mp h
      exact .inr (.inr ⟨i, call, hcall, .inr (.inr ⟨rfl, h.symm⟩)⟩)

/-- The client with its budget queues as they are when a call has looked at them. -/
def looked (s : Client) : Client := { s with sent := trim RATE_WINDOW s.now s.sent }

/-- How a call goes on. -/
lemma proceed_cases (h : s.proceed i call = some t) :
    (call.stage = .budget ∧
      ((∃ queue, queue = trim RATE_WINDOW s.now s.graphqlSent ∧
          t = { s with graphqlSent := queue }.goto i .done) ∨
        ∃ queue, queue = trim RATE_WINDOW s.now s.graphqlSent ∧ queue.length < GRAPHQL_LIMIT ∧
          t = ({ s with graphqlSent := queue ++ [s.now] }.note (.took i s.now)).goto i .throttle)) ∨
    (call.stage = .throttle ∧ s.locked = false ∧
      ((∃ oldest rest, s.looked.sent = oldest :: rest ∧
          t = { s.looked with locked := true }.goto i
            (.asleep (s.now + (RATE_WINDOW - (s.now - oldest))))) ∨
        (s.looked.sent.length < RATE_LIMIT ∧ t = s.looked.push i call))) ∨
    (∃ wake, call.stage = .asleep wake ∧ wake ≤ s.now ∧
      t = { s with sent := s.sent.tail, locked := false }.push i call) ∨
    (∃ wake, call.stage = .backoff wake ∧ t = s.goto i .throttle) := by
  rw [proceed] at h
  cases hstage : call.stage with
  | budget =>
      rw [hstage] at h
      refine .inl ⟨rfl, ?_⟩
      obtain rfl := Option.some.inj h
      rw [takeGraphqlBudget]
      dsimp only
      split_ifs with hfull
      · exact .inl ⟨_, rfl, rfl⟩
      · exact .inr ⟨_, rfl, Nat.lt_of_not_le hfull, rfl⟩
  | throttle =>
      rw [hstage] at h
      dsimp only at h
      split_ifs at h with hlocked
      refine .inr (.inl ⟨rfl, Bool.eq_false_iff.mpr hlocked, ?_⟩)
      obtain rfl := Option.some.inj h
      rw [throttle]
      dsimp only
      cases hqueue : trim RATE_WINDOW s.now s.sent with
      | nil =>
          refine .inr ⟨?_, ?_⟩
          · rw [looked, hqueue]
            exact Nat.zero_lt_succ 1099
          · rw [looked, hqueue]
            rfl
      | cons oldest rest =>
          rw [List.head?_cons]
          dsimp only
          split_ifs with hfull
          · refine .inl ⟨oldest, rest, hqueue, ?_⟩
            rw [looked, hqueue]
          · refine .inr ⟨?_, ?_⟩
            · rw [looked, hqueue]
              exact Nat.lt_of_not_le hfull
            · rw [looked, hqueue]
  | asleep wake =>
      rw [hstage] at h
      dsimp only at h
      split_ifs at h with hwake
      exact .inr (.inr (.inl ⟨wake, rfl, Nat.le_of_not_lt hwake, (Option.some.inj h).symm⟩))
  | backoff wake =>
      rw [hstage] at h
      dsimp only at h
      split_ifs at h with hwake
      exact .inr (.inr (.inr ⟨wake, rfl, (Option.some.inj h).symm⟩))
  | sent =>
      rw [hstage] at h
      cases h
  | done =>
      rw [hstage] at h
      cases h

/-- What an answer does. -/
lemma answer_cases {a : Answer} (h : s.answer i call a = some t) :
    call.stage = .sent ∧
      ((call.retries a = true ∧ ∃ wake : Call → ℕ, t = (s.note (.answered i a)).update i fun call =>
          { call with attempt := call.attempt + 1, stage := .backoff (wake call) }) ∨
        (call.retries a = false ∧ t = (s.note (.answered i a)).goto i .done)) := by
  rw [answer] at h
  split_ifs at h with hstage hretries
  · exact ⟨hstage, .inl ⟨hretries, fun call => s.now + call.delay a, (Option.some.inj h).symm⟩⟩
  · exact ⟨hstage, .inr ⟨Bool.eq_false_iff.mpr hretries, (Option.some.inj h).symm⟩⟩

end Client

/-! ## The log -/

section

variable (log : List Event) (i : ℕ) (graphql : Bool) (time : ℕ) (a : Answer)

@[simp] lemma sentTimes_sent :
    sentTimes (log ++ [.sent i graphql time]) = sentTimes log ++ [time] := by
  rw [sentTimes, List.filterMap_append]
  rfl

@[simp] lemma sentTimes_took : sentTimes (log ++ [.took i time]) = sentTimes log := by
  rw [sentTimes, List.filterMap_append]
  exact List.append_nil _

@[simp] lemma sentTimes_answered : sentTimes (log ++ [.answered i a]) = sentTimes log := by
  rw [sentTimes, List.filterMap_append]
  exact List.append_nil _

@[simp] lemma places_sent : places (log ++ [.sent i graphql time]) = places log := by
  rw [places, List.filterMap_append]
  exact List.append_nil _

@[simp] lemma places_took : places (log ++ [.took i time]) = places log ++ [(i, time)] := by
  rw [places, List.filterMap_append]
  rfl

@[simp] lemma places_answered : places (log ++ [.answered i a]) = places log := by
  rw [places, List.filterMap_append]
  exact List.append_nil _

@[simp] lemma queries_sent : queries (log ++ [.sent i true time]) = queries log ++ [(i, time)] := by
  rw [queries, List.filterMap_append]
  rfl

@[simp] lemma queries_request : queries (log ++ [.sent i false time]) = queries log := by
  rw [queries, List.filterMap_append]
  exact List.append_nil _

@[simp] lemma queries_took : queries (log ++ [.took i time]) = queries log := by
  rw [queries, List.filterMap_append]
  exact List.append_nil _

@[simp] lemma queries_answered : queries (log ++ [.answered i a]) = queries log := by
  rw [queries, List.filterMap_append]
  exact List.append_nil _

end

/-! ## The queues of the budgets -/

namespace Client

variable {s t : Client} {i j : ℕ} {call call' : Call} {change : Call → Call} {stage : Stage}

/-- The queues hold the latest times, and who holds the lock waits for the oldest to leave. -/
structure Orderly (s : Client) : Prop where
  rate : Kept RATE_LIMIT RATE_WINDOW s.now (sentTimes s.log) s.sent
  graphql : Kept GRAPHQL_LIMIT RATE_WINDOW s.now ((places s.log).map Prod.snd) s.graphqlSent
  asleep : ∀ (i : ℕ) (call : Call) (wake : ℕ), s.calls[i]? = some call → call.stage = .asleep wake →
    s.locked = true ∧ ∃ oldest rest, s.sent = oldest :: rest ∧ oldest + RATE_WINDOW ≤ wake
  alone : ∀ (i j : ℕ) (call call' : Call) (wake wake' : ℕ), s.calls[i]? = some call →
    s.calls[j]? = some call' →
    call.stage = .asleep wake → call'.stage = .asleep wake' → i = j

lemma orderly_start : Orderly {} where
  rate := kept_nil
  graphql := kept_nil
  asleep i call wake hcall := by cases hcall
  alone i j call call' wake wake' hcall := by cases hcall

/-- A call that doesn't hold the lock afterwards. -/
lemma Orderly.update (h : Orderly s) (hchange : ∀ call wake, (change call).stage ≠ .asleep wake) :
    Orderly (s.update i change) where
  rate := h.rate
  graphql := h.graphql
  asleep j call' wake hcall' hwake := by
    rcases update_cases hcall' with ⟨-, call, -, rfl⟩ | ⟨-, hcall'⟩
    · exact absurd hwake (hchange call wake)
    · exact h.asleep j call' wake hcall' hwake
  alone j k call call' wake wake' hcall hcall' hwake hwake' := by
    rcases update_cases hcall with ⟨-, call, -, rfl⟩ | ⟨-, hcall⟩
    · exact absurd hwake (hchange call wake)
    rcases update_cases hcall' with ⟨-, call', -, rfl⟩ | ⟨-, hcall'⟩
    · exact absurd hwake' (hchange call' wake')
    · exact h.alone j k call call' wake wake' hcall hcall' hwake hwake'

lemma Orderly.goto (h : Orderly s) (hstage : ∀ wake, stage ≠ .asleep wake) :
    Orderly (s.goto i stage) :=
  h.update fun _ => hstage

lemma Orderly.note (h : Orderly s) (i : ℕ) (a : Answer) : Orderly (s.note (.answered i a)) where
  rate := by
    rw [Client.note, sentTimes_answered]
    exact h.rate
  graphql := by
    rw [Client.note, places_answered]
    exact h.graphql
  asleep := h.asleep
  alone := h.alone

/-- A request goes out while the budget has room and no other call holds the lock. -/
lemma orderly_push (hrate : Kept RATE_LIMIT RATE_WINDOW s.now (sentTimes s.log) s.sent)
    (hroom : s.sent.length < RATE_LIMIT)
    (hgraphql : Kept GRAPHQL_LIMIT RATE_WINDOW s.now ((places s.log).map Prod.snd) s.graphqlSent)
    (hothers : ∀ (j : ℕ) (call : Call) (wake : ℕ), s.calls[j]? = some call →
      call.stage = .asleep wake → j = i) :
    Orderly (s.push i call) where
  rate := by
    have hpush := hrate.push hroom
    rw [← sentTimes_sent _ i call.graphql] at hpush
    exact hpush
  graphql := by
    rw [← places_sent _ i call.graphql s.now] at hgraphql
    exact hgraphql
  asleep j call' wake hcall' hwake := by
    rcases update_cases hcall' with ⟨-, call, -, rfl⟩ | ⟨hne, hcall'⟩
    · cases hwake
    · exact absurd (hothers j call' wake hcall' hwake) hne
  alone j k call call' wake wake' hcall hcall' hwake hwake' := by
    rcases update_cases hcall with ⟨-, call, -, rfl⟩ | ⟨hne, hcall⟩
    · cases hwake
    · exact absurd (hothers j call wake hcall hwake) hne

/-- Nobody holds a lock that is free. -/
lemma Orderly.free (h : Orderly s) (hlocked : s.locked = false) {wake : ℕ}
    (hcall : s.calls[j]? = some call) : call.stage ≠ .asleep wake := by
  intro hwake
  rw [(h.asleep j call wake hcall hwake).1] at hlocked
  cases hlocked

lemma Orderly.proceed (h : Orderly s) (hcall : s.calls[i]? = some call)
    (hstep : s.proceed i call = some t) : Orderly t := by
  rcases proceed_cases hstep with ⟨-, ⟨queue, rfl, rfl⟩ | ⟨queue, rfl, hroom, rfl⟩⟩ |
    ⟨-, hlocked, ⟨oldest, rest, hqueue, rfl⟩ | ⟨hroom, rfl⟩⟩ | ⟨wake, hstage, hwake, rfl⟩ |
      ⟨wake, -, rfl⟩
  · exact Orderly.goto ⟨h.rate, h.graphql.trim, h.asleep, h.alone⟩ fun wake => by simp
  · refine Orderly.goto ⟨?_, ?_, h.asleep, h.alone⟩ fun wake => by simp
    · rw [Client.note, sentTimes_took]
      exact h.rate
    · rw [Client.note, places_took, List.map_append]
      exact h.graphql.trim.push hroom
  · have hrate : Kept RATE_LIMIT RATE_WINDOW s.now (sentTimes s.log) (oldest :: rest) := by
      rw [← hqueue]
      exact h.rate.trim
    have hpast := hrate.mem List.mem_cons_self
    exact {
      rate := h.rate.trim
      graphql := h.graphql
      asleep := fun j call' wake hcall' hwake => by
        rcases update_cases hcall' with ⟨-, call, -, rfl⟩ | ⟨-, hcall'⟩
        · refine ⟨rfl, oldest, rest, hqueue, ?_⟩
          rw [← Stage.asleep.inj hwake]
          omega
        · exact absurd hwake (h.free hlocked hcall')
      alone := fun j k call call' wake wake' hcall hcall' hwake hwake' => by
        rcases update_cases hcall with ⟨rfl, -⟩ | ⟨-, hcall⟩
        · rcases update_cases hcall' with ⟨rfl, -⟩ | ⟨-, hcall'⟩
          · rfl
          · exact absurd hwake' (h.free hlocked hcall')
        · exact absurd hwake (h.free hlocked hcall) }
  · exact orderly_push h.rate.trim hroom h.graphql fun j call wake hcall hwake =>
      absurd hwake (h.free hlocked hcall)
  · obtain ⟨-, oldest, rest, hqueue, hover⟩ := h.asleep i call wake hcall hstage
    have hrate := h.rate
    rw [hqueue] at hrate
    have hdrop := hrate.drop (hover.trans hwake)
    refine orderly_push ?_ ?_ h.graphql fun j call' wake' hcall' hwake' =>
      h.alone j i call' call wake' wake hcall' hcall hwake' hstage
    · rw [hqueue]
      exact hdrop
    · rw [hqueue]
      exact hrate.room
  · exact h.goto fun wake => by simp

lemma Orderly.drop (h : Orderly s) (hcall : s.calls[i]? = some call) : Orderly (s.drop i call) := by
  rw [Client.drop]
  split
  · rename_i wake hstage
    have hothers : ∀ (j : ℕ) (call' : Call) (wake' : ℕ),
        ({ s with locked := false }.goto i .done).calls[j]? = some call' →
          call'.stage ≠ .asleep wake' := by
      intro j call' wake' hcall' hwake'
      rcases update_cases hcall' with ⟨-, call, -, rfl⟩ | ⟨hne, hcall'⟩
      · cases hwake'
      · exact hne (h.alone j i call' call wake' wake hcall' hcall hwake' hstage)
    exact ⟨h.rate, h.graphql,
      fun j call' wake' hcall' hwake' => absurd hwake' (hothers j call' wake' hcall'),
      fun j k call' call'' wake' wake'' hcall' _ hwake' =>
        absurd hwake' (hothers j call' wake' hcall')⟩
  · exact h.goto fun wake => by simp

lemma Orderly.step {a : Step} (h : Orderly s) (hstep : s.step a = some t) : Orderly t := by
  rcases step_cases hstep with ⟨now, hnow, rfl⟩ | ⟨call, rfl, hnew⟩ | ⟨i, call, hcall, hcases⟩
  · exact ⟨h.rate.later hnow, h.graphql.later hnow, h.asleep, h.alone⟩
  · have hold : ∀ (j : ℕ) (call' : Call) (wake : ℕ), (s.calls ++ [call])[j]? = some call' →
        call'.stage = .asleep wake →
        s.calls[j]? = some call' := by
      intro j call' wake hcall' hwake
      rcases List.getElem?_snoc_eq_some hcall' with ⟨-, rfl⟩ | ⟨-, hcall'⟩
      · rcases hnew with ⟨-, hstage⟩ | ⟨-, hstage⟩
        · cases hstage.symm.trans hwake
        · cases hstage.symm.trans hwake
      · exact hcall'
    exact ⟨h.rate, h.graphql, fun j call' wake hcall' hwake =>
      h.asleep j call' wake (hold j call' wake hcall' hwake) hwake,
      fun j k call' call'' wake wake' hcall' hcall'' hwake hwake' =>
        h.alone j k call' call'' wake wake' (hold _ _ _ hcall' hwake) (hold _ _ _ hcall'' hwake')
          hwake hwake'⟩
  · rcases hcases with ⟨-, hproceed⟩ | ⟨answer, -, hanswer⟩ | ⟨-, rfl⟩
    · exact h.proceed hcall hproceed
    · rcases (answer_cases hanswer).2 with ⟨-, wake, rfl⟩ | ⟨-, rfl⟩
      · exact (h.note i answer).update fun call wake => by simp
      · exact (h.note i answer).goto fun wake => by simp
    · exact h.drop hcall

/-! ## Attempts of a create -/

end Client

/-- So many attempts of the call wait for an answer, and the others were answered 429. -/
def Tallied (i waiting : ℕ) (log : List Event) : Prop :=
  (answers i log).length + waiting = sends i log ∧
    ∀ a ∈ answers i log, ∃ retryAfter, a = .status 429 retryAfter

/-- Each time a request of the call went out, its attempts before had been answered 429. -/
def Again (i : ℕ) (log : List Event) : Prop :=
  ∀ before graphql time after, log = before ++ .sent i graphql time :: after → Tallied i 0 before

/-- How many attempts wait for an answer at a stage. -/
def Follows (i : ℕ) (log : List Event) : Stage → Prop
  | .sent => Tallied i 1 log
  | .done => True
  | _ => Tallied i 0 log

section

variable {i waiting : ℕ} {log events : List Event} {e : Event}

lemma tallied_of_none (h : ∀ e ∈ log, e.call ≠ i) : Tallied i 0 log := by
  have hanswers : answers i log = [] := by
    rw [answers, List.filterMap_eq_nil_iff]
    intro e he
    cases e with
    | answered j a => exact if_neg (h _ he)
    | took => rfl
    | sent => rfl
  have hsends : sends i log = 0 := by
    rw [sends, List.countP_eq_zero]
    intro e he
    cases e with
    | sent j graphql time => exact fun hj => h _ he (of_decide_eq_true hj)
    | took => exact Bool.false_ne_true
    | answered => exact Bool.false_ne_true
  refine ⟨by rw [hanswers, hsends]; rfl, fun a ha => ?_⟩
  rw [hanswers] at ha
  cases ha

/-- The events of other calls change nothing. -/
lemma Tallied.append (h : Tallied i waiting log) (hevents : ∀ e ∈ events, e.call ≠ i) :
    Tallied i waiting (log ++ events) := by
  obtain ⟨hlength, hanswers⟩ := tallied_of_none hevents
  have hnone : answers i events = [] := by
    rw [answers, List.filterMap_eq_nil_iff]
    intro e he
    cases e with
    | answered j a => exact if_neg (hevents _ he)
    | took => rfl
    | sent => rfl
  rw [hnone] at hlength
  have hboth : answers i (log ++ events) = answers i log := by
    rw [answers, List.filterMap_append]
    exact (congrArg _ hnone).trans (List.append_nil _)
  refine ⟨?_, hboth ▸ h.2⟩
  rw [hboth, sends, List.countP_append]
  exact h.1.trans (congrArg (sends i log + ·) hlength)

lemma Tallied.took (h : Tallied i waiting log) (time : ℕ) :
    Tallied i waiting (log ++ [.took i time]) := by
  have hanswers : answers i (log ++ [.took i time]) = answers i log := by
    rw [answers, List.filterMap_append]
    exact List.append_nil _
  have hsends : sends i (log ++ [.took i time]) = sends i log := by
    rw [sends, List.countP_append]
    rfl
  exact ⟨by rw [hanswers, hsends, h.1], hanswers ▸ h.2⟩

lemma Tallied.sent (h : Tallied i 0 log) (graphql : Bool) (time : ℕ) :
    Tallied i 1 (log ++ [.sent i graphql time]) := by
  have hanswers : answers i (log ++ [.sent i graphql time]) = answers i log := by
    rw [answers, List.filterMap_append]
    exact List.append_nil _
  have hsends : sends i (log ++ [.sent i graphql time]) = sends i log + 1 := by
    rw [sends, List.countP_append, List.countP_singleton]
    simp only [decide_true, if_true]
    rfl
  exact ⟨by rw [hanswers, hsends, ← h.1], hanswers ▸ h.2⟩

lemma Tallied.answered (h : Tallied i 1 log) {a : Answer}
    (ha : ∃ retryAfter, a = .status 429 retryAfter) : Tallied i 0 (log ++ [.answered i a]) := by
  have hanswers : answers i (log ++ [.answered i a]) = answers i log ++ [a] := by
    rw [answers, List.filterMap_append]
    simp only [List.filterMap_cons, List.filterMap_nil, if_true]
    rfl
  have hsends : sends i (log ++ [.answered i a]) = sends i log := by
    rw [sends, List.countP_append]
    rfl
  refine ⟨by rw [hanswers, hsends, ← h.1, List.length_append]; rfl, fun b hb => ?_⟩
  rw [hanswers] at hb
  rcases List.mem_append.mp hb with hb | hb
  · exact h.2 b hb
  · rw [List.mem_singleton.mp hb]
    exact ha

lemma again_of_none (h : ∀ e ∈ log, e.call ≠ i) : Again i log := by
  intro before graphql time after heq
  exact absurd rfl (h (.sent i graphql time) (by rw [heq]; simp))

lemma Again.snoc (h : Again i log)
    (he : ∀ graphql time, e = .sent i graphql time → Tallied i 0 log) :
    Again i (log ++ [e]) := by
  intro before graphql time after heq
  rcases List.split_snoc heq with ⟨-, hlast, rfl⟩ | ⟨after', -, hlog⟩
  · exact he graphql time hlast
  · exact h before graphql time after' hlog

lemma Again.append (h : Again i log) (hevents : ∀ e ∈ events, e.call ≠ i) :
    Again i (log ++ events) := by
  induction events using List.reverseRecOn with
  | nil => rwa [List.append_nil]
  | append_singleton events e ih =>
      rw [← List.append_assoc]
      have hfront := ih fun e' he' => hevents e' (List.mem_append_left _ he')
      have hother := hevents e (List.mem_append_right _ (List.mem_singleton_self e))
      exact hfront.snoc fun graphql time heq => absurd (by rw [heq]; rfl) hother

lemma Follows.append {stage : Stage} (h : Follows i log stage)
    (hevents : ∀ e ∈ events, e.call ≠ i) :
    Follows i (log ++ events) stage := by
  cases stage with
  | sent => exact Tallied.append h hevents
  | done => trivial
  | budget => exact Tallied.append h hevents
  | throttle => exact Tallied.append h hevents
  | asleep => exact Tallied.append h hevents
  | backoff => exact Tallied.append h hevents

/-- A create is sent again only after the answer that it wasn't processed. -/
lemma Call.retries_once {call : Call} (honce : call.retry = .once) {a : Answer}
    (h : call.retries a = true) : ∃ retryAfter, a = .status 429 retryAfter := by
  cases a with
  | status code retryAfter =>
      rw [retries, honce] at h
      refine ⟨retryAfter, ?_⟩
      simp at h
      rw [h.1]
  | networkError =>
      rw [retries, honce] at h
      simp at h

end

namespace Client

variable {s t : Client} {i j : ℕ} {call call' : Call} {change : Call → Call} {stage : Stage}

/-- What the log says of each create. -/
structure Repeats (s : Client) : Prop where
  known : ∀ e ∈ s.log, e.call < s.calls.length
  once : ∀ i call, s.calls[i]? = some call → call.retry = .once →
    Again i s.log ∧ Follows i s.log call.stage

/-- A call goes on, and what happens to it is noted. -/
lemma Repeats.changed (h : Repeats s) {events : List Event} (hi : i < s.calls.length)
    (hevents : ∀ e ∈ events, e.call = i) (hlog : t.log = s.log ++ events)
    (hcalls : t.calls = s.calls.modify i change) (hretry : ∀ call, (change call).retry = call.retry)
    (honce : ∀ call, s.calls[i]? = some call → call.retry = .once →
      Again i (s.log ++ events) ∧ Follows i (s.log ++ events) (change call).stage) :
    Repeats t where
  known e he := by
    rw [hcalls, List.length_modify]
    rw [hlog] at he
    rcases List.mem_append.mp he with he | he
    · exact h.known e he
    · rw [hevents e he]
      exact hi
  once j call' hcall' hjonce := by
    rw [hcalls] at hcall'
    rw [hlog]
    rcases List.getElem?_modify_eq_some hcall' with ⟨rfl, call, hcall, rfl⟩ | ⟨hne, hcall'⟩
    · exact honce call hcall (hretry call ▸ hjonce)
    · obtain ⟨hagain, hfollows⟩ := h.once j call' hcall' hjonce
      have hothers : ∀ e ∈ events, e.call ≠ j := fun e he => by
        rw [hevents e he]
        exact hne.symm
      exact ⟨hagain.append hothers, hfollows.append hothers⟩

/-- A call goes on without a request or an answer. -/
lemma Repeats.goto (h : Repeats s) (hcall : s.calls[i]? = some call)
    (hfollows : Follows i s.log call.stage → Follows i s.log stage) : Repeats (s.goto i stage) := by
  refine @Repeats.changed s (s.goto i stage) i (fun call => { call with stage }) h []
    (List.getElem?_eq_some_iff.mp hcall).1 (fun e he => by cases he)
    (List.append_nil _).symm rfl (fun _ => rfl) fun call' hcall' honce => ?_
  obtain rfl := Option.some.inj (hcall.symm.trans hcall')
  obtain ⟨hagain, hbefore⟩ := h.once i call hcall honce
  rw [List.append_nil]
  exact ⟨hagain, hfollows hbefore⟩

lemma Repeats.push (h : Repeats s) (hcall : s.calls[i]? = some call)
    (hready : call.retry = .once → Tallied i 0 s.log) : Repeats (s.push i call) := by
  refine @Repeats.changed s (s.push i call) i (fun call => { call with stage := .sent }) h
    [.sent i call.graphql s.now] (List.getElem?_eq_some_iff.mp hcall).1
    (fun e he => by rw [List.mem_singleton.mp he]; rfl) rfl rfl (fun _ => rfl)
    fun call' hcall' honce => ?_
  obtain rfl := Option.some.inj (hcall.symm.trans hcall')
  have htallied := hready honce
  exact ⟨(h.once i call hcall honce).1.snoc fun _ _ _ => htallied, htallied.sent _ _⟩

lemma Repeats.proceed (h : Repeats s) (hcall : s.calls[i]? = some call)
    (hstep : s.proceed i call = some t) : Repeats t := by
  rcases proceed_cases hstep with ⟨hstage, ⟨queue, rfl, rfl⟩ | ⟨queue, rfl, hroom, rfl⟩⟩ |
    ⟨hstage, hlocked, ⟨oldest, rest, hqueue, rfl⟩ | ⟨hroom, rfl⟩⟩ | ⟨wake, hstage, hwake, rfl⟩ |
      ⟨wake, hstage, rfl⟩
  · exact @Repeats.goto { s with graphqlSent := _ } i call .done ⟨h.known, h.once⟩ hcall
      fun _ => trivial
  · refine @Repeats.changed s _ i (fun call => { call with stage := .throttle }) h
      [.took i s.now] (List.getElem?_eq_some_iff.mp hcall).1
      (fun e he => by rw [List.mem_singleton.mp he]; rfl) rfl rfl (fun _ => rfl)
      fun call' hcall' honce => ?_
    obtain rfl := Option.some.inj (hcall.symm.trans hcall')
    obtain ⟨hagain, hfollows⟩ := h.once i call hcall honce
    rw [hstage] at hfollows
    exact ⟨hagain.snoc (fun _ _ heq => nomatch heq), Tallied.took hfollows s.now⟩
  · exact @Repeats.goto { s.looked with locked := true } i call _ ⟨h.known, h.once⟩ hcall
      fun hfollows => by rw [hstage] at hfollows; exact hfollows
  · exact @Repeats.push s.looked i call ⟨h.known, h.once⟩ hcall fun honce => by
      have hfollows := (h.once i call hcall honce).2
      rw [hstage] at hfollows
      exact hfollows
  · exact @Repeats.push { s with sent := s.sent.tail, locked := false } i call
      ⟨h.known, h.once⟩ hcall fun honce => by
        have hfollows := (h.once i call hcall honce).2
        rw [hstage] at hfollows
        exact hfollows
  · exact h.goto hcall fun hfollows => by rw [hstage] at hfollows; exact hfollows

lemma Repeats.answer (h : Repeats s) (hcall : s.calls[i]? = some call) {a : Answer}
    (hstep : s.answer i call a = some t) : Repeats t := by
  have hi := (List.getElem?_eq_some_iff.mp hcall).1
  have hevents : ∀ e ∈ [Event.answered i a], e.call = i := fun e he => by
    rw [List.mem_singleton.mp he]
    rfl
  obtain ⟨hstage, ⟨hretries, wake, rfl⟩ | ⟨-, rfl⟩⟩ := answer_cases hstep
  · refine h.changed hi hevents rfl rfl (fun _ => rfl) fun call' hcall' honce => ?_
    obtain rfl := Option.some.inj (hcall.symm.trans hcall')
    obtain ⟨hagain, hfollows⟩ := h.once i call hcall honce
    rw [hstage] at hfollows
    exact ⟨hagain.snoc (fun _ _ heq => nomatch heq),
      Tallied.answered hfollows (call.retries_once honce hretries)⟩
  · refine h.changed hi hevents rfl rfl (fun _ => rfl) fun call' hcall' honce => ?_
    exact ⟨(h.once i call' hcall' honce).1.snoc (fun _ _ heq => nomatch heq), trivial⟩

lemma Repeats.step {a : Step} (h : Repeats s) (hstep : s.step a = some t) : Repeats t := by
  rcases step_cases hstep with ⟨now, -, rfl⟩ | ⟨call, rfl, hnew⟩ | ⟨i, call, hcall, hcases⟩
  · exact ⟨h.known, h.once⟩
  · refine ⟨fun e he => ?_, fun i call' hcall' honce => ?_⟩
    · rw [List.length_append]
      exact Nat.lt_add_right _ (h.known e he)
    · rcases List.getElem?_snoc_eq_some hcall' with ⟨rfl, rfl⟩ | ⟨-, hcall'⟩
      · have hnone : ∀ e ∈ s.log, e.call ≠ s.calls.length := fun e he => (h.known e he).ne
        refine ⟨again_of_none hnone, ?_⟩
        rcases hnew with ⟨-, hstage⟩ | ⟨-, hstage⟩
        · rw [hstage]
          exact tallied_of_none hnone
        · rw [hstage]
          exact tallied_of_none hnone
      · exact h.once i call' hcall' honce
  · rcases hcases with ⟨-, hproceed⟩ | ⟨answer, -, hanswer⟩ | ⟨-, rfl⟩
    · exact h.proceed hcall hproceed
    · exact h.answer hcall hanswer
    · rw [Client.drop]
      split
      · exact @Repeats.goto { s with locked := false } i call .done ⟨h.known, h.once⟩ hcall
          fun _ => trivial
      · exact h.goto hcall fun _ => trivial

/-! ## Queries that go out when they took their place -/

/-- A query that waits to go out hasn't gone out yet, and those that have took their place. -/
structure Paired (s : Client) : Prop where
  known : ∀ q ∈ queries s.log, q.1 < s.calls.length
  fresh : ∀ (i : ℕ) (call : Call), s.calls[i]? = some call → call.graphql = true →
    call.stage ≠ .sent → call.stage ≠ .done → ∀ q ∈ queries s.log, q.1 ≠ i
  once : ((queries s.log).map Prod.fst).Nodup
  placed : queries s.log ⊆ places s.log

/-- A call goes on without a request. -/
lemma Paired.update (h : Paired s) (hcall : s.calls[i]? = some call)
    (hgraphql : ∀ call, (change call).graphql = call.graphql)
    (hstage : call.graphql = true →
      call.stage ≠ .sent ∧ call.stage ≠ .done ∨ (change call).stage = .done) :
    Paired (s.update i change) where
  known q hq := by
    rw [Client.update, List.length_modify]
    exact h.known q hq
  fresh j call' hcall' hquery hsent hdone := by
    rcases update_cases hcall' with ⟨rfl, call₀, hcall₀, rfl⟩ | ⟨-, hcall'⟩
    · obtain rfl := Option.some.inj (hcall.symm.trans hcall₀)
      rw [hgraphql] at hquery
      rcases hstage hquery with ⟨hsent', hdone'⟩ | hdone'
      · exact h.fresh j call hcall hquery hsent' hdone'
      · exact absurd hdone' hdone
    · exact h.fresh j call' hcall' hquery hsent hdone
  once := h.once
  placed := h.placed

/-- A query goes out that took its place now. -/
lemma Paired.push (h : Paired s) (hcall : s.calls[i]? = some call) (hsent : call.stage ≠ .sent)
    (hdone : call.stage ≠ .done) (hplaced : call.graphql = true → .took i s.now ∈ s.log) :
    Paired (s.push i call) := by
  have hi := (List.getElem?_eq_some_iff.mp hcall).1
  have hlength : (s.push i call).calls.length = s.calls.length := List.length_modify _ _ _
  have hothers : ∀ (j : ℕ) (call' : Call), (s.push i call).calls[j]? = some call' →
      call'.stage ≠ .sent → j ≠ i ∧ s.calls[j]? = some call' := by
    intro j call' hcall' hstage
    rcases update_cases hcall' with ⟨-, call₀, -, rfl⟩ | hcall'
    · exact absurd rfl hstage
    · exact hcall'
  cases hquery : call.graphql with
  | false =>
      have hlog : (s.push i call).log = s.log ++ [.sent i false s.now] := by
        rw [← hquery]
        rfl
      have hqueries : queries (s.push i call).log = queries s.log := by
        rw [hlog, queries_request]
      have hplaces : places (s.push i call).log = places s.log := by
        rw [hlog, places_sent]
      refine ⟨?_, ?_, ?_, ?_⟩
      · rw [hqueries, hlength]
        exact h.known
      · rw [hqueries]
        intro j call' hcall' hquery' hsent' hdone'
        exact h.fresh j call' (hothers j call' hcall' hsent').2 hquery' hsent' hdone'
      · rw [hqueries]
        exact h.once
      · rw [hqueries, hplaces]
        exact h.placed
  | true =>
      have hlog : (s.push i call).log = s.log ++ [.sent i true s.now] := by
        rw [← hquery]
        rfl
      have hqueries : queries (s.push i call).log = queries s.log ++ [(i, s.now)] := by
        rw [hlog, queries_sent]
      have hplaces : places (s.push i call).log = places s.log := by
        rw [hlog, places_sent]
      have hnew := h.fresh i call hcall hquery hsent hdone
      refine ⟨?_, ?_, ?_, ?_⟩
      · rw [hqueries, hlength]
        intro q hq
        rcases List.mem_append.mp hq with hq | hq
        · exact h.known q hq
        · rw [List.mem_singleton.mp hq]
          exact hi
      · rw [hqueries]
        intro j call' hcall' hquery' hsent' hdone' q hq
        obtain ⟨hne, hcall'⟩ := hothers j call' hcall' hsent'
        rcases List.mem_append.mp hq with hq | hq
        · exact h.fresh j call' hcall' hquery' hsent' hdone' q hq
        · rw [List.mem_singleton.mp hq]
          exact hne.symm
      · rw [hqueries, List.map_append]
        refine List.nodup_append.mpr ⟨h.once, List.nodup_singleton _, fun k hk l hl => ?_⟩
        obtain ⟨q, hq, rfl⟩ := List.mem_map.mp hk
        rw [List.mem_singleton.mp hl]
        exact hnew q hq
      · rw [hqueries, hplaces]
        intro q hq
        rcases List.mem_append.mp hq with hq | hq
        · exact h.placed hq
        · rw [List.mem_singleton.mp hq]
          exact List.mem_filterMap.mpr ⟨_, hplaced hquery, rfl⟩

lemma Paired.proceed (h : Paired s) (hcall : s.calls[i]? = some call)
    (hdirect : s.Direct (.proceed i)) (hstep : s.proceed i call = some t) : Paired t := by
  rcases proceed_cases hstep with ⟨hstage, ⟨queue, rfl, rfl⟩ | ⟨queue, rfl, hroom, rfl⟩⟩ |
    ⟨hstage, hlocked, ⟨oldest, rest, hqueue, rfl⟩ | ⟨hroom, rfl⟩⟩ | ⟨wake, hstage, hwake, rfl⟩ |
      ⟨wake, hstage, rfl⟩
  · exact @Paired.update { s with graphqlSent := _ } i call _ ⟨h.known, h.fresh, h.once, h.placed⟩
      hcall (fun _ => rfl) fun _ => .inr rfl
  · have hnoted : Paired
        ({ s with graphqlSent := trim RATE_WINDOW s.now s.graphqlSent ++ [s.now] }.note
          (.took i s.now)) := by
      refine ⟨?_, ?_, ?_, ?_⟩
      · rw [Client.note, queries_took]
        exact h.known
      · rw [Client.note, queries_took]
        exact h.fresh
      · rw [Client.note, queries_took]
        exact h.once
      · rw [Client.note, queries_took, places_took]
        exact fun q hq => List.mem_append_left _ (h.placed hq)
    refine hnoted.update hcall (fun _ => rfl) fun _ => .inl ?_
    rw [hstage]
    exact ⟨by simp, by simp⟩
  · refine @Paired.update { s.looked with locked := true } i call _
      ⟨h.known, h.fresh, h.once, h.placed⟩ hcall (fun _ => rfl) fun _ => .inl ?_
    rw [hstage]
    exact ⟨by simp, by simp⟩
  · refine @Paired.push s.looked i call ⟨h.known, h.fresh, h.once, h.placed⟩ hcall ?_ ?_
      fun hquery => hdirect call hcall hquery (by rw [hstage]; rfl)
    · rw [hstage]
      simp
    · rw [hstage]
      simp
  · refine @Paired.push { s with sent := s.sent.tail, locked := false } i call
      ⟨h.known, h.fresh, h.once, h.placed⟩ hcall ?_ ?_
      fun hquery => hdirect call hcall hquery (by rw [hstage]; rfl)
    · rw [hstage]
      simp
    · rw [hstage]
      simp
  · refine h.update hcall (fun _ => rfl) fun _ => .inl ?_
    rw [hstage]
    exact ⟨by simp, by simp⟩

lemma Paired.answer (h : Paired s) (hcall : s.calls[i]? = some call) {a : Answer}
    (hdirect : s.Direct (.answer i a)) (hstep : s.answer i call a = some t) : Paired t := by
  have hnoted : Paired (s.note (.answered i a)) := by
    refine ⟨?_, ?_, ?_, ?_⟩
    · rw [Client.note, queries_answered]
      exact h.known
    · rw [Client.note, queries_answered]
      exact h.fresh
    · rw [Client.note, queries_answered]
      exact h.once
    · rw [Client.note, queries_answered, places_answered]
      exact h.placed
  obtain ⟨hstage, ⟨hretries, wake, rfl⟩ | ⟨-, rfl⟩⟩ := answer_cases hstep
  · refine hnoted.update hcall (fun _ => rfl) fun hquery => ?_
    rw [hdirect call hcall hquery] at hretries
    cases hretries
  · exact hnoted.update hcall (fun _ => rfl) fun _ => .inr rfl

lemma Paired.step {a : Step} (h : Paired s) (hdirect : s.Direct a) (hstep : s.step a = some t) :
    Paired t := by
  rcases step_cases hstep with ⟨now, -, rfl⟩ | ⟨call, rfl, hnew⟩ | ⟨i, call, hcall, hcases⟩
  · exact ⟨h.known, h.fresh, h.once, h.placed⟩
  · refine ⟨fun q hq => ?_, fun i call' hcall' hquery hsent hdone => ?_, h.once, h.placed⟩
    · rw [List.length_append]
      exact Nat.lt_add_right _ (h.known q hq)
    · rcases List.getElem?_snoc_eq_some hcall' with ⟨rfl, -⟩ | ⟨-, hcall'⟩
      · exact fun q hq => (h.known q hq).ne
      · exact h.fresh i call' hcall' hquery hsent hdone
  · rcases hcases with ⟨rfl, hproceed⟩ | ⟨answer, rfl, hanswer⟩ | ⟨-, rfl⟩
    · exact h.proceed hcall hdirect hproceed
    · exact h.answer hcall hdirect hanswer
    · rw [Client.drop]
      split
      · exact @Paired.update { s with locked := false } i call _
          ⟨h.known, h.fresh, h.once, h.placed⟩ hcall (fun _ => rfl) fun _ => .inr rfl
      · exact h.update hcall (fun _ => rfl) fun _ => .inr rfl

end Client

/-! ## Runs -/

/-- A client with one more call at time 0, when nobody waits. -/
def Client.busy (s : Client) (sent graphqlSent : List ℕ) (call : Call) (log : List Event) :
    Client where
  sent
  graphqlSent
  calls := s.calls ++ [call]
  log

/-- At time 0 nothing is out of the window. -/
lemma trim_zero (queue : List ℕ) : trim RATE_WINDOW 0 queue = queue := by
  cases queue with
  | nil => rfl
  | cons t queue =>
      rw [trim, List.dropWhile_cons_of_neg]
      rw [Nat.zero_sub, decide_eq_true_eq]
      decide

section

variable {s : Client} {sent graphqlSent : List ℕ} {call : Call} {log : List Event}

lemma busy_call : (s.busy sent graphqlSent call log).calls[s.calls.length]? = some call :=
  List.getElem?_concat_length

lemma modify_last {l : List Call} {change : Call → Call} :
    (l ++ [call]).modify l.length change = l ++ [change call] := by
  induction l with
  | nil => rfl
  | cons a l ih =>
      rw [List.cons_append, List.length_cons, List.modify_succ_cons, ih]
      rfl

lemma busy_budget (hstage : call.stage = .budget) (hroom : graphqlSent.length < GRAPHQL_LIMIT) :
    (s.busy sent graphqlSent call log).step (.proceed s.calls.length) =
      some (s.busy sent (graphqlSent ++ [0]) { call with stage := .throttle }
        (log ++ [.took s.calls.length 0])) := by
  have htrim : trim RATE_WINDOW (s.busy sent graphqlSent call log).now
      (s.busy sent graphqlSent call log).graphqlSent = graphqlSent := trim_zero graphqlSent
  rw [Client.step, busy_call, Option.bind_some, Client.proceed, hstage]
  dsimp only
  rw [Client.takeGraphqlBudget, htrim]
  dsimp only
  rw [if_neg (Nat.not_le_of_lt hroom), Client.goto, Client.update, Client.note, Client.busy,
    Client.busy]
  rw [modify_last]

lemma busy_throttle (hstage : call.stage = .throttle) (hroom : sent.length < RATE_LIMIT) :
    (s.busy sent graphqlSent call log).step (.proceed s.calls.length) =
      some (s.busy (sent ++ [0]) graphqlSent { call with stage := .sent }
        (log ++ [.sent s.calls.length call.graphql 0])) := by
  have htrim : trim RATE_WINDOW (s.busy sent graphqlSent call log).now
      (s.busy sent graphqlSent call log).sent = sent := trim_zero sent
  have hthrottle : (s.busy sent graphqlSent call log).throttle s.calls.length call =
      (s.busy sent graphqlSent call log).push s.calls.length call := by
    rw [Client.throttle, htrim]
    dsimp only
    cases sent with
    | nil => rfl
    | cons t sent =>
        rw [List.head?_cons]
        dsimp only
        rw [if_neg (Nat.not_le_of_lt hroom)]
        rfl
  rw [Client.step, busy_call, Option.bind_some, Client.proceed, hstage]
  dsimp only
  rw [if_neg (by exact Bool.false_ne_true), hthrottle, Client.push, Client.goto, Client.update,
    Client.note, Client.busy, Client.busy]
  rw [modify_last]

lemma busy_backoff (hstage : call.stage = .backoff 0) :
    (s.busy sent graphqlSent call log).step (.proceed s.calls.length) =
      some (s.busy sent graphqlSent { call with stage := .throttle } log) := by
  rw [Client.step, busy_call, Option.bind_some, Client.proceed, hstage]
  dsimp only
  rw [if_neg (Nat.not_lt_zero _), Client.goto, Client.update, Client.busy, Client.busy]
  rw [modify_last]

/-- The answer to try again at once. -/
lemma busy_retry (hstage : call.stage = .sent) (hattempt : call.attempt < MAX_RETRIES) :
    (s.busy sent graphqlSent call log).step
        (.answer s.calls.length (.status 429 (some "0"))) =
      some (s.busy sent graphqlSent
        { call with attempt := call.attempt + 1, stage := .backoff 0 }
        (log ++ [.answered s.calls.length (.status 429 (some "0"))])) := by
  have hretries : call.retries (.status 429 (some "0")) = true := by
    rw [Call.retries]
    simp [hattempt]
  have hdelay : call.delay (.status 429 (some "0")) = 0 := by
    have hafter : (Answer.status 429 (some "0")).retryAfter = some 0 := by decide +kernel
    rw [Call.delay, hafter]
    simp
  rw [Client.step, busy_call, Option.bind_some, Client.answer, if_pos hstage]
  dsimp only
  rw [if_pos hretries, Client.update, Client.note, Client.busy, Client.busy]
  dsimp only
  rw [modify_last, hdelay]

lemma busy_done (hstage : call.stage = .sent) (hretries : call.retries (.status 200 none) = false) :
    (s.busy sent graphqlSent call log).step (.answer s.calls.length (.status 200 none)) =
      some (s.busy sent graphqlSent { call with stage := .done }
        (log ++ [.answered s.calls.length (.status 200 none)])) := by
  rw [Client.step, busy_call, Option.bind_some, Client.answer, if_pos hstage]
  dsimp only
  rw [if_neg (by rw [hretries]; exact Bool.false_ne_true), Client.goto, Client.update, Client.note,
    Client.busy, Client.busy]
  dsimp only
  rw [modify_last]

end

/-- A query that is told three times to try again at once. -/
def retriedQuery (i : ℕ) : List Step :=
  [.postGraphql, .proceed i, .proceed i, .answer i (.status 429 (some "0")), .proceed i, .proceed i,
    .answer i (.status 429 (some "0")), .proceed i, .proceed i,
    .answer i (.status 429 (some "0")), .proceed i, .proceed i, .answer i (.status 200 none)]

/-- At time 0 so many queries are over, and each went out four times. -/
structure Retried (n : ℕ) (s : Client) : Prop where
  now : s.now = 0
  free : s.locked = false
  calls : s.calls.length = n
  sent : s.sent.length = 4 * n
  graphql : s.graphqlSent.length = n
  times : (queries s.log).map Prod.snd = List.replicate (4 * n) 0

lemma Retried.next {n : ℕ} {s : Client} (h : Retried n s) (hn : n < 63) :
    ∃ t, run Client.step s (retriedQuery n) = some t ∧ Retried (n + 1) t := by
  obtain rfl := h.calls
  have hstart : s.step .postGraphql =
      some (s.busy s.sent s.graphqlSent ⟨.idempotent, true, 0, .budget⟩ s.log) := by
    rw [Client.step, Client.busy, h.now, h.free]
  have hgraphql : s.graphqlSent.length < GRAPHQL_LIMIT := by
    rw [h.graphql]
    exact hn.trans (by decide)
  have hroom {sent : List ℕ} (hsent : sent.length < 4 * s.calls.length + 4) :
      sent.length < RATE_LIMIT := by
    have hlimit : (252 : ℕ) ≤ RATE_LIMIT := by decide
    omega
  rw [retriedQuery]
  refine ⟨_, run_cons.mpr ⟨_, hstart, run_cons.mpr ⟨_, busy_budget rfl hgraphql, run_cons.mpr ⟨_,
    busy_throttle rfl (hroom ?_), run_cons.mpr ⟨_, busy_retry rfl (by decide), run_cons.mpr ⟨_,
    busy_backoff rfl, run_cons.mpr ⟨_, busy_throttle rfl (hroom ?_), run_cons.mpr ⟨_,
    busy_retry rfl (by decide), run_cons.mpr ⟨_, busy_backoff rfl, run_cons.mpr ⟨_,
    busy_throttle rfl (hroom ?_), run_cons.mpr ⟨_, busy_retry rfl (by decide), run_cons.mpr ⟨_,
    busy_backoff rfl, run_cons.mpr ⟨_, busy_throttle rfl (hroom ?_), run_cons.mpr ⟨_,
    busy_done rfl (by decide), rfl⟩⟩⟩⟩⟩⟩⟩⟩⟩⟩⟩⟩⟩, rfl, rfl, ?_, ?_, ?_, ?_⟩
  · rw [h.sent]
    omega
  · simp only [List.length_append, List.length_singleton, h.sent]
    omega
  · simp only [List.length_append, List.length_singleton, h.sent]
    omega
  · simp only [List.length_append, List.length_singleton, h.sent]
    omega
  · exact List.length_append
  · simp only [Client.busy, List.length_append, List.length_singleton, h.sent]
    omega
  · simp only [Client.busy, List.length_append, List.length_singleton, h.graphql]
  · simp only [Client.busy, queries_answered, queries_sent, queries_took, List.map_append, h.times,
      List.map_cons, List.map_nil]
    rw [Nat.mul_add, List.replicate_add, List.append_assoc, List.append_assoc, List.append_assoc]
    rfl

end Teitunnel.CfApi
