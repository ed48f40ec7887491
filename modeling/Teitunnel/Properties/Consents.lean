import Teitunnel.Lib.Lists
import Teitunnel.Lib.Runs
import Teitunnel.Control.Server

/-!
# Nothing changes without a hello and a consent

Whatever a client sends, the host is told to make a change only after a hello with the right
token, for a client that the person allows or has just let through, one question at a time.  A
blank line before the hello starts the wait for it anew, so that the hello may come late.
-/

namespace Teitunnel.Control

open Runs Text

/-- The person was asked for exactly this change of the `k`-th request, and allowed it. -/
def Confirmed (log : List Event) (k : ℕ) (client : ClientInfo) (action : Action) : Prop :=
  ∃ pre post decision, log = pre ++ .answered k decision :: post ∧ decision ≠ .deny ∧
    .asked k client action (!action.alwaysAsk) ∈ pre

/-- A hello with the right token. -/
def Greeted (server : Server) (log : List Event) (client : ClientInfo) : Prop :=
  ∃ token time, .hello token client time ∈ log ∧ server.matches token = true

/-- A hello with the right token in time. -/
def Prompt (server : Server) (log : List Event) : Prop :=
  ∃ token client time, .hello token client time ∈ log ∧ server.matches token = true ∧
    time ≤ server.limits.helloTimeout

/-- What must have happened when the host is told to make a change. -/
def Allowed (server : Server) (log : List Event) (k : ℕ) (client : ClientInfo)
    (action : Action) : Prop :=
  Greeted server log client ∧
    (∃ request, .accepted k request ∈ log ∧
      Session.dispatch server.codec request.method request.params = .ok (.gating action)) ∧
      ((action.alwaysAsk = false ∧ .allowed k client ∈ log) ∨ Confirmed log k client action)

/-- Every change was allowed. -/
def Consented (server : Server) (log : List Event) : Prop :=
  ∀ pre post k client action, log = pre ++ .ran k client action :: post →
    Allowed server pre k client action

/-- A request is taken on, or answered with a result. -/
def Event.serves : Event → Prop
  | .accepted .. => True
  | .sent _ error => error = none
  | .ran .. => True
  | _ => False

/-- Nothing is served without a hello in time. -/
def Timely (server : Server) (log : List Event) : Prop :=
  ∀ pre post event, log = pre ++ event :: post → event.serves →
    Prompt server (pre ++ [event])

lemma Confirmed.append {log : List Event} {k : ℕ} {client : ClientInfo} {action : Action}
    (h : Confirmed log k client action) (more : List Event) :
    Confirmed (log ++ more) k client action := by
  obtain ⟨pre, post, decision, hlog, hdecision, hasked⟩ := h
  exact ⟨pre, post ++ more, decision, by rw [hlog]; simp, hdecision, hasked⟩

lemma Prompt.mono {server : Server} {log log' : List Event} (h : Prompt server log)
    (hsub : log ⊆ log') : Prompt server log' := by
  obtain ⟨token, client, time, hmem, hrest⟩ := h
  exact ⟨token, client, time, hsub hmem, hrest⟩

namespace Session

/-- At most one question is open. -/
def OneQuestion (s : Session) : Prop :=
  ∀ (k k' : ℕ) (task task' : Task), s.tasks[k]? = some task → s.tasks[k']? = some task' →
    task.stage.asks = true → task'.stage.asks = true → k = k'

/-- The line that a step completes. -/
def completes (server : Server) (s : Session) : Step → Option String
  | .read _ _ =>
      match readAvailable server.limits.maxMessage s.line s.available with
      | .frame (.line bytes) _ => some (server.codec.text bytes)
      | _ => none
  | .eof _ _ =>
      match readEnd s.line with
      | some (.line bytes) => some (server.codec.text bytes)
      | _ => none
  | _ => none

/-- A line that follows a blank one, before the hello, comes in the time for the hello. -/
def Careful (server : Server) (s : Session) (action : Step) : Prop :=
  s.client = none → s.since ≠ 0 → ∀ line, completes server s action = some line →
    trim line ≠ "" → s.now ≤ server.limits.helloTimeout

/-! ## What is kept -/

/-- The change that a task is at the gate with. -/
def atGate : Stage → Option Action
  | .gating action => some action
  | .locking action => some action
  | .asking action => some action
  | .approving action => some action
  | _ => none

/-- What a task at a stage has behind it. -/
structure Behind (server : Server) (s : Session) (k : ℕ) (task : Task) : Prop where
  client : s.client = some task.client
  accepted : .accepted k task.request ∈ s.log
  gate : ∀ action, atGate task.stage = some action →
    dispatch server.codec task.request.method task.request.params = .ok (.gating action)
  asked : ∀ action, task.stage = .asking action →
    .asked k task.client action (!action.alwaysAsk) ∈ s.log
  confirmed : ∀ action, task.stage = .approving action →
    Confirmed s.log k task.client action

structure Orderly (server : Server) (s : Session) : Prop where
  hello : ∀ client, s.client = some client → ∃ token time, .hello token client time ∈ s.log ∧
    server.matches token = true ∧ time ≤ server.limits.helloTimeout
  tasks : ∀ (k : ℕ) (task : Task), s.tasks[k]? = some task → Behind server s k task
  holds : ∀ (k : ℕ) (task : Task), s.tasks[k]? = some task → task.stage.holds = true →
    s.confirming.head? = some k
  consented : Consented server s.log
  timely : Timely server s.log

variable {server : Server} {s t : Session} {k : ℕ} {task : Task} {stage : Stage}
  {client : ClientInfo} {action : Action}

/-! ## The log -/

lemma Orderly.prompt (h : Orderly server s) (hclient : s.client = some client) :
    Prompt server s.log := by
  obtain ⟨token, time, hmem, hmatches, htime⟩ := h.hello client hclient
  exact ⟨token, client, time, hmem, hmatches, htime⟩

lemma Behind.more (h : Behind server s k task) (event : Event) :
    Behind server (s.note event) k task where
  client := h.client
  accepted := List.mem_append_left _ h.accepted
  gate := h.gate
  asked action hstage := List.mem_append_left _ (h.asked action hstage)
  confirmed action hstage := (h.confirmed action hstage).append [event]

/-- Something more happened. -/
lemma Orderly.note (h : Orderly server s) (event : Event)
    (hran : ∀ k client action, event = .ran k client action → Allowed server s.log k client action)
    (hserves : event.serves → Prompt server s.log) : Orderly server (s.note event) where
  hello client hclient := by
    obtain ⟨token, time, hmem, hrest⟩ := h.hello client hclient
    exact ⟨token, time, List.mem_append_left _ hmem, hrest⟩
  tasks k task hk := (h.tasks k task hk).more event
  holds := h.holds
  consented pre post k client action hlog := by
    rcases List.split_snoc hlog with ⟨rfl, hevent, hsplit⟩ | ⟨post', rfl, hsplit⟩
    · rw [← hsplit]
      exact hran k client action hevent
    · exact h.consented pre post' k client action hsplit
  timely pre post event' hlog hserved := by
    rcases List.split_snoc hlog with ⟨rfl, hevent, hsplit⟩ | ⟨post', rfl, hsplit⟩
    · subst hevent
      rw [← hsplit]
      exact (hserves hserved).mono (List.subset_append_left _ _)
    · exact h.timely pre post' event' hsplit hserved

lemma Orderly.send (h : Orderly server s) (id : Json) (error : Option RpcError)
    (hclient : error = none → ∃ client, s.client = some client) :
    Orderly server (s.send id error) := by
  refine h.note (.sent id error) (fun k client action heq => by cases heq) fun hserved => ?_
  obtain ⟨client, hclient⟩ := hclient hserved
  exact h.prompt hclient

/-! ## Tasks -/

/-- A task moves on. -/
lemma Orderly.goto (h : Orderly server s) (hk : s.tasks[k]? = some task)
    (hbehind : Behind server s k { task with stage })
    (hholds : stage.holds = true → s.confirming.head? = some k) :
    Orderly server (s.goto k stage) where
  hello := h.hello
  tasks k' task' hk' := by
    rcases List.getElem?_modify_eq_some hk' with ⟨rfl, old, hold, rfl⟩ | ⟨-, hold⟩
    · obtain rfl := Option.some.inj (hk.symm.trans hold)
      exact { hbehind with }
    · exact { h.tasks k' task' hold with }
  holds k' task' hk' hholds' := by
    rcases List.getElem?_modify_eq_some hk' with ⟨rfl, old, hold, rfl⟩ | ⟨-, hold⟩
    · exact hholds hholds'
    · exact h.holds k' task' hold hholds'
  consented := h.consented
  timely := h.timely

/-- A stage away from the gate has nothing more to show. -/
lemma Behind.away (h : Behind server s k task) (hgate : atGate stage = none) :
    Behind server s k { task with stage } where
  client := h.client
  accepted := h.accepted
  gate action heq := by rw [hgate] at heq; cases heq
  asked action heq := by
    have hstage : stage = .asking action := heq
    rw [hstage] at hgate
    cases hgate
  confirmed action heq := by
    have hstage : stage = .approving action := heq
    rw [hstage] at hgate
    cases hgate

/-- A place in the queue for the lock is given up by a task that doesn't hold it. -/
lemma Orderly.release (h : Orderly server s)
    (hholds : ∀ task : Task, s.tasks[k]? = some task → task.stage.holds = false) :
    Orderly server (s.release k) where
  hello := h.hello
  tasks k' task' hk' := { h.tasks k' task' hk' with }
  holds k' task' hk' hholds' := by
    have hhead := h.holds k' task' hk' hholds'
    have hne : k' ≠ k := by
      rintro rfl
      rw [hholds task' hk'] at hholds'
      cases hholds'
    show (s.confirming.erase k).head? = some k'
    cases hqueue : s.confirming with
    | nil =>
        rw [hqueue] at hhead
        cases hhead
    | cons first rest =>
        rw [hqueue] at hhead
        obtain rfl := Option.some.inj hhead
        rw [List.erase_cons_tail (by simpa using hne)]
        rfl
  consented := h.consented
  timely := h.timely

lemma Orderly.close (h : Orderly server s) : Orderly server s.close where
  hello := h.hello
  tasks k task hk := by
    rw [Session.close, List.getElem?_map, Option.map_eq_some_iff] at hk
    obtain ⟨old, hold, rfl⟩ := hk
    have haway : Behind server s k { old with stage := .done } := (h.tasks k old hold).away rfl
    exact { haway with }
  holds k task hk hholds := by
    rw [Session.close, List.getElem?_map, Option.map_eq_some_iff] at hk
    obtain ⟨old, hold, rfl⟩ := hk
    cases hholds
  consented := h.consented
  timely := h.timely

/-- A task is answered; it doesn't hold the lock, or has just given it up. -/
lemma Orderly.finish (h : Orderly server s) (hk : s.tasks[k]? = some task)
    (error : Option RpcError) : Orderly server (s.finish k task error) := by
  have hbehind := h.tasks k task hk
  have hsent := h.send task.id error fun _ => ⟨task.client, hbehind.client⟩
  exact hsent.goto hk ((hbehind.more _).away rfl) fun hholds => by cases hholds

lemma getElem?_goto_self (hk : s.tasks[k]? = some task) :
    (s.goto k stage).tasks[k]? = some { task with stage } := by
  rw [goto, List.getElem?_modify_eq, hk]
  rfl

/-- A task that was moved on from where it held the lock may give it up. -/
lemma Orderly.release_moved (h : Orderly server (s.goto k stage))
    (hk : s.tasks[k]? = some task) (hholds : stage.holds = false) :
    Orderly server ((s.release k).goto k stage) := by
  refine h.release fun task' hk' => ?_
  rw [getElem?_goto_self hk] at hk'
  obtain rfl := Option.some.inj hk'
  exact hholds

lemma Orderly.release_finish (h : Orderly server s) (hk : s.tasks[k]? = some task)
    (error : Option RpcError) : Orderly server ((s.release k).finish k task error) :=
  (show Orderly server ((s.send task.id error).goto k .done) from h.finish hk error).release_moved
    (s := s.send task.id error) hk rfl

/-- The gate lets a change through that was allowed. -/
lemma Orderly.runAction (h : Orderly server s) (hk : s.tasks[k]? = some task)
    (hgate : atGate task.stage = some action)
    (hallowed : (action.alwaysAsk = false ∧ .allowed k task.client ∈ s.log) ∨
      Confirmed s.log k task.client action) : Orderly server (s.runAction k task action) := by
  have hbehind := h.tasks k task hk
  obtain ⟨token, time, hhello, hmatches, -⟩ := h.hello task.client hbehind.client
  have hran := h.note (.ran k task.client action)
    (by
      intro k' client action' heq
      rw [Event.ran.injEq] at heq
      obtain ⟨rfl, rfl, rfl⟩ := heq
      exact ⟨⟨token, time, hhello, hmatches⟩,
        ⟨task.request, hbehind.accepted, hbehind.gate action hgate⟩, hallowed⟩)
    fun _ => h.prompt hbehind.client
  exact hran.goto hk ((hbehind.more _).away rfl) fun hholds => by cases hholds

lemma Orderly.release_runAction (h : Orderly server s) (hk : s.tasks[k]? = some task)
    (hgate : atGate task.stage = some action) (hallowed : Confirmed s.log k task.client action) :
    Orderly server ((s.release k).runAction k task action) :=
  (show Orderly server ((s.note (.ran k task.client action)).goto k .calling) from
    h.runAction hk hgate (.inr hallowed)).release_moved
      (s := s.note (.ran k task.client action)) hk rfl

/-! ## The moves of a task -/

/-- What the dispatch of a request finds is at the beginning of the gate, or not at it. -/
lemma dispatch_stage {codec : Codec} {name : String} {raw : Option Json}
    (h : dispatch codec name raw = .ok stage) :
    stage.holds = false ∧ (∀ action, stage ≠ .asking action) ∧ (∀ action, stage ≠ .approving action) ∧
      ∀ action, atGate stage = some action → stage = .gating action := by
  have hmap : ∀ {α : Type} (decode : Json → Except String α) (f : α → Action),
      (params decode raw).map (fun request => Stage.gating (f request)) = .ok stage →
        ∃ action, stage = .gating action := by
    intro α decode f heq
    cases hparams : params decode raw with
    | error e => rw [hparams] at heq; cases heq
    | ok request =>
        rw [hparams] at heq
        exact ⟨f request, (Except.ok.inj heq).symm⟩
  have hgating : (∃ action, stage = .gating action) →
      stage.holds = false ∧ (∀ action, stage ≠ .asking action) ∧
        (∀ action, stage ≠ .approving action) ∧
          ∀ action, atGate stage = some action → stage = .gating action := by
    rintro ⟨action, rfl⟩
    exact ⟨rfl, by simp, by simp, fun action' heq => by rw [Option.some.inj heq]⟩
  rw [dispatch] at h
  split_ifs at h
  · exact hgating (hmap codec.startShare .startShare h)
  · exact hgating (hmap codec.stopShare .stopShare h)
  · exact hgating (hmap codec.pauseShare .pauseShare h)
  · exact hgating (hmap codec.pauseShare .resumeShare h)
  · cases hparams : params codec.agentApproval raw with
    | error e => rw [hparams] at h; cases h
    | ok request =>
        rw [hparams] at h
        simp only [bind, Except.bind] at h
        split_ifs at h
        obtain rfl := Except.ok.inj h
        exact ⟨rfl, by simp, by simp, fun action heq => by cases heq⟩
  · cases hparams : params codec.oauthApproval raw with
    | error e => rw [hparams] at h; cases h
    | ok request =>
        rw [hparams] at h
        simp only [bind, Except.bind] at h
        split_ifs at h
        obtain rfl := Except.ok.inj h
        exact ⟨rfl, by simp, by simp, fun action heq => by cases heq⟩
  · exact hgating (hmap codec.apply .apply h)
  · split at h
    · obtain rfl := Except.ok.inj h
      exact ⟨rfl, by simp, by simp, fun action heq => by cases heq⟩
    · cases h

lemma Behind.gated (h : Behind server s k task) (hgate : atGate task.stage = some action)
    (hstage : stage = .gating action ∨ stage = .locking action) :
    Behind server s k { task with stage } := by
  have hnone : ∀ action', stage ≠ .asking action' ∧ stage ≠ .approving action' := by
    rcases hstage with rfl | rfl <;> simp
  have hdispatch := h.gate action hgate
  refine ⟨h.client, h.accepted, fun action' heq => ?_, fun action' heq => ?_, fun action' heq => ?_⟩
  · have heq' : action' = action := by
      rcases hstage with rfl | rfl <;> exact (Option.some.inj heq).symm
    rw [heq']
    exact hdispatch
  · exact absurd heq (hnone action').1
  · exact absurd heq (hnone action').2

/-- The lock is taken when nobody has it. -/
lemma Orderly.hold (h : Orderly server s) (hfree : s.confirming = []) :
    Orderly server { s with confirming := [k] } where
  hello := h.hello
  tasks k' task hk' := { h.tasks k' task hk' with }
  holds k' task hk' hholds := by
    have hhead := h.holds k' task hk' hholds
    rw [hfree] at hhead
    cases hhead
  consented := h.consented
  timely := h.timely

lemma Orderly.begin (h : Orderly server s) (hk : s.tasks[k]? = some task)
    (hmove : s.move server k task .begin = some t) : Orderly server t := by
  simp only [Session.move] at hmove
  split at hmove
  · split at hmove
    · rename_i error _
      obtain rfl := Option.some.inj hmove
      exact h.finish hk (some error)
    · rename_i stage hdispatch
      obtain rfl := Option.some.inj hmove
      have hbehind := h.tasks k task hk
      obtain ⟨hholds, hasking, happroving, hgate⟩ := dispatch_stage hdispatch
      refine h.goto hk ⟨hbehind.client, hbehind.accepted, ?_, ?_, ?_⟩ ?_
      · intro action heq
        rw [← hgate action heq]
        exact hdispatch
      · exact fun action heq => absurd heq (hasking action)
      · exact fun action heq => absurd heq (happroving action)
      · intro htrue
        rw [hholds] at htrue
        cases htrue
  · cases hmove

lemma Orderly.check (h : Orderly server s) (hk : s.tasks[k]? = some task)
    (hmove : s.move server k task .check = some t) : Orderly server t := by
  have hbehind := h.tasks k task hk
  simp only [Session.move] at hmove
  split at hmove
  · rename_i action hstage
    have hgate : atGate task.stage = some action := by rw [hstage]; rfl
    split_ifs at hmove with hallowed
    · obtain rfl := Option.some.inj hmove
      have hask : action.alwaysAsk = false := by
        have hboth := (Bool.and_eq_true _ _).mp hallowed
        simpa using hboth.1
      have hnoted := h.note (.allowed k task.client)
        (fun k client action heq => by cases heq) fun hserved => hserved.elim
      exact hnoted.runAction hk hgate
        (.inl ⟨hask, List.mem_append_right _ List.mem_cons_self⟩)
    · obtain rfl := Option.some.inj hmove
      exact h.goto hk (hbehind.gated hgate (.inr rfl)) fun hholds => by cases hholds
  · cases hmove

lemma Orderly.lock (h : Orderly server s) (hk : s.tasks[k]? = some task)
    (hmove : s.move server k task .lock = some t) : Orderly server t := by
  have hbehind := h.tasks k task hk
  simp only [Session.move] at hmove
  split at hmove
  · rename_i action hstage
    have hgate : atGate task.stage = some action := by rw [hstage]; rfl
    split_ifs at hmove with hfree
    · obtain rfl := Option.some.inj hmove
      have hnoted := (h.hold (k := k) hfree).note
        (.asked k task.client action !action.alwaysAsk)
        (fun k client action heq => by cases heq) fun hserved => hserved.elim
      refine hnoted.goto hk ⟨hbehind.client, List.mem_append_left _ hbehind.accepted, ?_, ?_, ?_⟩
        fun _ => rfl
      · intro action' heq
        obtain rfl := Option.some.inj heq
        exact hbehind.gate action hgate
      · intro action' heq
        have heq' : Stage.asking action = .asking action' := heq
        rw [Stage.asking.injEq] at heq'
        subst heq'
        exact List.mem_append_right _ List.mem_cons_self
      · intro action' heq
        cases heq
    · obtain rfl := Option.some.inj hmove
      exact h.finish hk _
  · split_ifs at hmove with hfree
    · obtain rfl := Option.some.inj hmove
      have hheld := h.hold (k := k) hfree
      exact hheld.goto hk ((hheld.tasks k task hk).away rfl) fun _ => rfl
    · obtain rfl := Option.some.inj hmove
      exact h.finish hk _
  · obtain rfl := Option.some.inj hmove
    have hqueued : Orderly server { s with confirming := s.confirming ++ [k] } := by
      refine ⟨h.hello, fun k' task' hk' => { h.tasks k' task' hk' with }, fun k' task' hk' hholds => ?_,
        h.consented, h.timely⟩
      have hhead := h.holds k' task' hk' hholds
      show (s.confirming ++ [k]).head? = some k'
      rw [List.head?_append, hhead]
      rfl
    exact hqueued.goto hk ((hqueued.tasks k task hk).away rfl) fun hholds => by cases hholds
  · split_ifs at hmove with hhead
    obtain rfl := Option.some.inj hmove
    exact h.goto hk (hbehind.away rfl) fun _ => hhead
  · cases hmove

lemma Orderly.answer (h : Orderly server s) (hk : s.tasks[k]? = some task) {decision : Decision}
    (hmove : s.move server k task (.answer decision) = some t) : Orderly server t := by
  have hbehind := h.tasks k task hk
  simp only [Session.move] at hmove
  split at hmove
  · rename_i action hstage
    have hgate : atGate task.stage = some action := by rw [hstage]; rfl
    have hnoted := h.note (.answered k decision) (fun k client action heq => by cases heq)
      fun hserved => hserved.elim
    have hconfirmed : decision ≠ .deny →
        Confirmed (s.note (.answered k decision)).log k task.client action := fun hdecision =>
      ⟨s.log, [], decision, rfl, hdecision, hbehind.asked action hstage⟩
    cases decision with
    | once =>
        obtain rfl := Option.some.inj hmove
        exact hnoted.release_runAction hk hgate (hconfirmed (by simp))
    | always =>
        obtain rfl := Option.some.inj hmove
        have hholds := h.holds k task hk (by rw [hstage]; rfl)
        refine hnoted.goto hk ⟨hbehind.client, List.mem_append_left _ hbehind.accepted, ?_, ?_, ?_⟩
          fun _ => hholds
        · intro action' heq
          obtain rfl := Option.some.inj heq
          exact hbehind.gate action hgate
        · intro action' heq
          cases heq
        · intro action' heq
          have heq' : Stage.approving action = .approving action' := heq
          rw [Stage.approving.injEq] at heq'
          subst heq'
          exact hconfirmed (by simp)
    | deny =>
        obtain rfl := Option.some.inj hmove
        exact hnoted.release_finish hk _
  · cases hmove

lemma Orderly.move (h : Orderly server s) (hk : s.tasks[k]? = some task) {move : Move}
    (hmove : s.move server k task move = some t) : Orderly server t := by
  cases move with
  | begin => exact h.begin hk hmove
  | check => exact h.check hk hmove
  | lock => exact h.lock hk hmove
  | answer decision => exact h.answer hk hmove
  | remember =>
      simp only [Session.move] at hmove
      split at hmove
      · rename_i action hstage
        obtain rfl := Option.some.inj hmove
        have hremembered : Orderly server
            { s with approved := task.client.name :: s.approved } :=
          ⟨h.hello, fun k task hk => { h.tasks k task hk with }, h.holds, h.consented, h.timely⟩
        exact hremembered.release_runAction hk (by rw [hstage]; rfl)
          ((h.tasks k task hk).confirmed action hstage)
      · cases hmove
  | decide approved =>
      simp only [Session.move] at hmove
      split at hmove
      · exact Option.some.inj hmove ▸ h.release_finish hk none
      · exact Option.some.inj hmove ▸ h.release_finish hk none
      · cases hmove
  | finish error =>
      simp only [Session.move] at hmove
      split at hmove
      · exact Option.some.inj hmove ▸ h.finish hk error
      · cases hmove
  | expire =>
      simp only [Session.move] at hmove
      split_ifs at hmove
      exact Option.some.inj hmove ▸ h.release_finish hk _

/-! ## The connection -/

/-- Bytes and time leave what is kept alone. -/
lemma Orderly.quiet (h : Orderly server s) (now since : ℕ) (line available : List UInt8)
    (approved : List String) (agent : Bool) :
    Orderly server { s with now, since, line, available, approved, agent } :=
  ⟨h.hello, fun k task hk => { h.tasks k task hk with }, h.holds, h.consented, h.timely⟩

lemma Orderly.goOn (h : Orderly server s) : Orderly server s.goOn :=
  h.quiet s.now s.now s.line s.available s.approved s.agent

lemma Orderly.refuse (h : Orderly server s) (id : Json) (error : RpcError) :
    Orderly server (s.refuse id error) := by
  have hsent := h.send id (some error) fun heq => by cases heq
  rw [Session.refuse]
  split_ifs
  · exact hsent.goOn
  · exact hsent.close

/-- A hello is refused and the connection closed, or it has the right token. -/
lemma hello_cases (server : Server) (s : Session) (request : Request) :
    (∃ id error, hello server s request = (s.send id (some error)).close) ∨
      ∃ id, ∃ params : HelloParams, server.matches params.token = true ∧
        hello server s request = (({ s with
          client := some params.client
          log := s.log ++ [.hello params.token params.client s.now] } : Session).send id
            none).goOn := by
  rw [hello]
  split_ifs
  · exact .inl ⟨_, _, rfl⟩
  split
  · exact .inl ⟨_, _, rfl⟩
  · rename_i params _
    split_ifs with htoken
    · exact .inl ⟨_, _, rfl⟩
    · exact .inl ⟨_, _, rfl⟩
    · exact .inl ⟨_, _, rfl⟩
    · exact .inr ⟨_, params, by simpa using htoken, rfl⟩

lemma Orderly.greet (h : Orderly server s) (hclient : s.client = none)
    (htime : s.now ≤ server.limits.helloTimeout) (request : Request) :
    Orderly server (s.hello server request) := by
  rcases hello_cases server s request with ⟨id, error, heq⟩ | ⟨id, params, hmatches, heq⟩
  · rw [heq]
    exact (h.send id _ fun hnone => by cases hnone).close
  · rw [heq]
    have hnoted := h.note (.hello params.token params.client s.now)
      (fun k client action heq => by cases heq) fun hserved => hserved.elim
    have hgreeted : Orderly server { s with
        client := some params.client
        log := s.log ++ [.hello params.token params.client s.now] } := by
      refine ⟨?_, ?_, ?_, hnoted.consented, hnoted.timely⟩
      · intro client hsome
        obtain rfl := Option.some.inj hsome
        exact ⟨params.token, s.now, List.mem_append_right _ List.mem_cons_self, hmatches, htime⟩
      · intro k task hk
        have hnone := (h.tasks k task hk).client
        rw [hclient] at hnone
        cases hnone
      · exact h.holds
    exact (hgreeted.send id _ fun _ => ⟨params.client, rfl⟩).goOn

/-- A request is answered at once, with a result or an error, or it gets a task. -/
lemma handleRequest_cases (server : Server) (s : Session) (client : ClientInfo)
    (request : Request) (requests mutations : Bool) :
    handleRequest server s client request requests mutations = s ∨
      (∃ agent id error, handleRequest server s client request requests mutations =
        ({ s with agent } : Session).send id error) ∨
      ∃ id deadline, handleRequest server s client request requests mutations = { s with
        tasks := s.tasks ++ [{ id, request, client, deadline }]
        log := s.log ++ [.accepted s.tasks.length request] } := by
  rw [handleRequest]
  split
  · exact .inl rfl
  rename_i id _
  split_ifs
  · exact .inr (.inl ⟨s.agent, _, _, rfl⟩)
  · exact .inr (.inl ⟨s.agent, _, _, rfl⟩)
  · rw [register]
    split
    · exact .inr (.inl ⟨s.agent, _, _, rfl⟩)
    · split_ifs
      · exact .inr (.inl ⟨true, _, _, rfl⟩)
      · exact .inr (.inl ⟨s.agent, _, _, rfl⟩)
  · rw [subscribe]
    split
    · exact .inr (.inl ⟨s.agent, _, _, rfl⟩)
    · exact .inr (.inl ⟨s.agent, _, _, rfl⟩)
    · split
      · exact .inr (.inl ⟨s.agent, _, _, rfl⟩)
      · exact .inr (.inl ⟨s.agent, _, _, rfl⟩)
  · exact .inr (.inl ⟨s.agent, _, _, rfl⟩)
  · exact .inr (.inr ⟨_, _, rfl⟩)
  · exact .inr (.inr ⟨_, _, rfl⟩)

lemma Orderly.handleRequest (h : Orderly server s) (hclient : s.client = some client)
    (request : Request) (requests mutations : Bool) :
    Orderly server (handleRequest server s client request requests mutations) := by
  rcases handleRequest_cases server s client request requests mutations with
    heq | ⟨agent, id, error, heq⟩ | ⟨id, deadline, heq⟩
  · rw [heq]
    exact h
  · rw [heq]
    exact (h.quiet s.now s.since s.line s.available s.approved agent).send id _
      fun _ => ⟨client, hclient⟩
  · rw [heq]
    have hnoted := h.note (.accepted s.tasks.length request)
      (fun k client action heq => by cases heq) fun _ => h.prompt hclient
    refine ⟨hnoted.hello, fun k task hk => ?_, fun k task hk hholds => ?_, hnoted.consented,
      hnoted.timely⟩
    · rcases List.getElem?_snoc_eq_some hk with ⟨rfl, rfl⟩ | ⟨-, hold⟩
      · refine ⟨hclient, List.mem_append_right _ List.mem_cons_self, fun action heq => ?_,
          fun action heq => ?_, fun action heq => ?_⟩
        · cases heq
        · cases heq
        · cases heq
      · exact { hnoted.tasks k task hold with }
    · rcases List.getElem?_snoc_eq_some hk with ⟨-, rfl⟩ | ⟨-, hold⟩
      · cases hholds
      · exact h.holds k task hold hholds

/-- A frame is handled; one that isn't blank, before the hello, in the time for the hello. -/
lemma Orderly.handleFrame (h : Orderly server s) {frame : Frame} (requests mutations : Bool)
    (htime : ∀ bytes, frame = .line bytes → trim (server.codec.text bytes) ≠ "" →
      s.client = none → s.now ≤ server.limits.helloTimeout) :
    Orderly server (handleFrame server s frame requests mutations) := by
  cases frame with
  | tooLarge => exact (h.send .null _ fun heq => by cases heq).close
  | line bytes =>
      simp only [Session.handleFrame]
      split_ifs with hblank
      · exact h.goOn
      simp only [handleLine]
      split
      · exact h.refuse _ _
      · split
        · exact h.refuse _ _
        · split
          · rename_i hclient
            exact h.greet hclient (htime bytes rfl hblank hclient) _
          · rename_i client hclient
            exact (h.handleRequest hclient _ _ _).goOn

/-- The time for the hello runs from connecting, or from the last blank line. -/
lemma reading_time (hreading : reading server s = true) (hclient : s.client = none) :
    s.now ≤ s.since + server.limits.helloTimeout := by
  rw [reading, hclient] at hreading
  simpa using ((Bool.and_eq_true _ _).mp hreading).2

lemma Careful.time {action : Step} (h : Careful server s action)
    (hreading : reading server s = true) {line : String}
    (hline : completes server s action = some line) (hblank : trim line ≠ "")
    (hclient : s.client = none) : s.now ≤ server.limits.helloTimeout := by
  by_cases hsince : s.since = 0
  · have htime := reading_time hreading hclient
    rw [hsince] at htime
    omega
  · exact h hclient hsince line hline hblank

lemma Orderly.step {action : Step} (h : Orderly server s) (hcareful : Careful server s action)
    (hstep : s.step server action = some t) : Orderly server t := by
  cases action with
  | pass ms =>
      obtain rfl := Option.some.inj hstep
      exact h.quiet (s.now + ms) s.since s.line s.available s.approved s.agent
  | receive bytes =>
      simp only [Session.step] at hstep
      split_ifs at hstep
      obtain rfl := Option.some.inj hstep
      exact h.quiet s.now s.since s.line bytes s.approved s.agent
  | read requests mutations =>
      simp only [Session.step] at hstep
      split_ifs at hstep with hready
      have hreading := ((Bool.and_eq_true _ _).mp hready).1
      split at hstep
      · obtain rfl := Option.some.inj hstep
        exact h.quiet s.now s.since _ [] s.approved s.agent
      · rename_i frame rest hframe
        obtain rfl := Option.some.inj hstep
        refine (h.quiet s.now s.since [] rest s.approved s.agent).handleFrame requests mutations ?_
        rintro bytes rfl hblank hclient
        exact hcareful.time hreading (by rw [completes, hframe]) hblank hclient
  | eof requests mutations =>
      simp only [Session.step] at hstep
      split_ifs at hstep with hready
      have hreading := ((Bool.and_eq_true _ _).mp hready).1
      split at hstep
      · exact Option.some.inj hstep ▸ h.close
      · rename_i frame hframe
        obtain rfl := Option.some.inj hstep
        refine (h.quiet s.now s.since [] s.available s.approved s.agent).handleFrame requests
          mutations ?_
        rintro bytes rfl hblank hclient
        exact hcareful.time hreading (by rw [completes, hframe]) hblank hclient
  | broken =>
      simp only [Session.step] at hstep
      split_ifs at hstep
      exact Option.some.inj hstep ▸ h.close
  | timeUp =>
      simp only [Session.step] at hstep
      split_ifs at hstep
      exact Option.some.inj hstep ▸ (h.send .null _ fun heq => by cases heq).close
  | move k move =>
      simp only [Session.step] at hstep
      split_ifs at hstep
      obtain ⟨task, hk, hmove⟩ := Option.bind_eq_some_iff.mp hstep
      exact h.move hk hmove
  | approvals names =>
      obtain rfl := Option.some.inj hstep
      exact h.quiet s.now s.since s.line s.available names s.agent

lemma orderly_connected (server : Server) (approved : List String) :
    Orderly server { approved } := by
  refine ⟨?_, ?_, ?_, ?_, ?_⟩
  · intro client hclient
    cases hclient
  · intro k task hk
    cases hk
  · intro k task hk
    cases hk
  · intro pre post k client action hlog
    simp at hlog
  · intro pre post event hlog
    simp at hlog

lemma Orderly.oneQuestion (h : Orderly server s) : s.OneQuestion := by
  intro k k' task task' hk hk' hasks hasks'
  have hholds : ∀ {stage : Stage}, stage.asks = true → stage.holds = true := by
    intro stage hstage
    cases stage <;> first | rfl | cases hstage
  have hhead := h.holds k task hk (hholds hasks)
  rw [h.holds k' task' hk' (hholds hasks')] at hhead
  exact (Option.some.inj hhead).symm

/-- Whatever a client sends and the person answers, every change was allowed, one question at a
time, and nothing is served without a hello in time. -/
theorem changes_consented {approved : List String} {steps : List Step}
    (hrun : run (Session.step server) { approved } steps = some s)
    (hcareful : Meets (Session.step server) (Careful server) { approved } steps) :
    Consented server s.log ∧ s.OneQuestion ∧ Timely server s.log := by
  have h : Orderly server s := run_invariant (I := fun _ s => Orderly server s)
    (orderly_connected server approved) (fun _ _ _ _ _ hs hP hstep => hs.step hP hstep) hrun
    hcareful
  exact ⟨h.consented, h.oneQuestion, h.timely⟩

/-! ## A client that stops a share -/

def stringOf : Json → Except String String
  | .str text => .ok text
  | _ => .error "invalid type"

def clientOf (value : Json) : Except String ClientInfo := do
  let name ← stringOf ((value.get? "name").getD .null)
  let version ← stringOf ((value.get? "version").getD .null)
  .ok { name, version }

def helloOf (value : Json) : Except String HelloParams := do
  let token ← stringOf ((value.get? "token").getD .null)
  let client ← clientOf ((value.get? "client").getD .null)
  match value.get? "protocol" with
  | some (.num protocol) => .ok { protocol := protocol.toNat, token, client }
  | _ => .error "invalid type"

def requestOf (value : Json) : Option Request := do
  let .str jsonrpc ← value.get? "jsonrpc" | none
  let .str name ← value.get? "method" | none
  some { jsonrpc, id := value.get? "id", method := name, params := value.get? "params" }

def helloLine : String :=
  "\x7b\"jsonrpc\":\"2.0\",\"id\":1,\"method\":\"hello\",\"params\":\x7b\"protocol\":1," ++
    "\"token\":\"t0\",\"client\":\x7b\"name\":\"cli\",\"version\":\"1\"\x7d\x7d\x7d"

def stopLine : String :=
  "\x7b\"jsonrpc\":\"2.0\",\"id\":2,\"method\":\"shares.stop\",\"params\":\x7b\"id\":\"s1\"\x7d\x7d"

/-- The reader, on ASCII and on these two lines. -/
def codec : Codec where
  text bytes := String.ofList (bytes.map fun byte => Char.ofNat byte.toNat)
  value line :=
    if line = helloLine then
      some (.obj [("jsonrpc", .str "2.0"), ("id", .num 1), ("method", .str "hello"),
        ("params", .obj [("protocol", .num 1), ("token", .str "t0"),
          ("client", .obj [("name", .str "cli"), ("version", .str "1")])])])
    else if line = stopLine then
      some (.obj [("jsonrpc", .str "2.0"), ("id", .num 2), ("method", .str "shares.stop"),
        ("params", .obj [("id", .str "s1")])])
    else none
  request := requestOf
  hello := helloOf
  startShare _ := .error "missing field"
  stopShare value := (stringOf ((value.get? "id").getD .null)).map StopShare.mk
  pauseShare _ := .error "missing field"
  apply _ := .error "missing field"
  agentInfo _ := .error "missing field"
  agentApproval _ := .error "missing field"
  oauthApproval _ := .error "missing field"
  subscribe _ := .error "missing field"
  fits _ _ := .error "missing field"

def bytesOf (line : String) : List UInt8 :=
  line.toList.map (fun c => UInt8.ofNat c.toNat) ++ [NEWLINE]

/-- A hello, a request to stop a share, and the person's yes. -/
def stopping : List Step :=
  [.receive (bytesOf helloLine), .read true true, .receive (bytesOf stopLine), .read true true,
    .move 0 .begin, .move 0 .check, .move 0 .lock, .move 0 (.answer .once), .move 0 (.finish none)]

def ranOne (s : Session) : Bool :=
  s.log.any fun | .ran .. => true | _ => false

theorem changes_consented_stopping : ∃ s,
    run (Session.step ⟨codec, "t0", {}⟩) { approved := [] } stopping = some s ∧ ranOne s = true ∧
      Consented ⟨codec, "t0", {}⟩ s.log ∧ s.OneQuestion ∧ Timely ⟨codec, "t0", {}⟩ s.log := by
  have hran : (run (Session.step ⟨codec, "t0", {}⟩) { approved := [] } stopping).any ranOne = true := by
    decide +kernel
  obtain ⟨s, hrun, hs⟩ := (Option.any_eq_true _ _).mp hran
  have hcareful : Meets (Session.step ⟨codec, "t0", {}⟩) (Careful ⟨codec, "t0", {}⟩)
      { approved := [] } stopping :=
    meets_of_check (p := fun s _ => s.since == 0)
      (fun s a hsince _ hne => absurd (by simpa using hsince) hne) (by decide +kernel)
  exact ⟨s, hrun, hs, changes_consented hrun hcareful⟩

/-- A blank line after four seconds, and the hello four seconds later. -/
def lateHello : List Step :=
  [.pass 4000, .receive [NEWLINE], .read true true, .pass 4000, .receive (bytesOf helloLine),
    .read true true]

def servedLate (s : Session) : Bool :=
  s.log.any (fun | .sent _ none => true | _ => false) &&
    s.log.all fun | .hello _ _ time => 5000 < time | _ => true

/-- The hello is accepted eight seconds after connecting. -/
theorem changes_consented_lateHello : ¬ ∀ server approved steps s,
    run (Session.step server) { approved } steps = some s →
      Consented server s.log ∧ s.OneQuestion ∧ Timely server s.log := by
  intro hall
  have hlate : (run (Session.step ⟨codec, "t0", {}⟩) { approved := [] } lateHello).any servedLate =
      true := by decide +kernel
  obtain ⟨s, hrun, hs⟩ := (Option.any_eq_true _ _).mp hlate
  obtain ⟨-, -, htimely⟩ := hall ⟨codec, "t0", {}⟩ [] lateHello s hrun
  obtain ⟨hserved, hall⟩ := (Bool.and_eq_true _ _).mp hs
  obtain ⟨event, hmem, hevent⟩ := List.any_eq_true.mp hserved
  obtain ⟨pre, post, hlog⟩ := List.append_of_mem hmem
  have hserves : event.serves := by
    cases event with
    | sent id error => cases error with
      | none => rfl
      | some error => cases hevent
    | _ => cases hevent
  obtain ⟨token, client, time, hhello, -, htime⟩ := htimely pre post event hlog hserves
  have hsub : Event.hello token client time ∈ s.log := by
    rw [hlog]
    rcases List.mem_append.mp hhello with hpre | hlast
    · exact List.mem_append_left _ hpre
    · rw [List.mem_singleton.mp hlast]
      exact List.mem_append_right _ List.mem_cons_self
  have hlong := List.all_eq_true.mp hall _ hsub
  have hlong' : 5000 < time := by simpa using hlong
  have htime' : time ≤ 5000 := htime
  omega

end Session

end Teitunnel.Control
