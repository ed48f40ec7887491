import Teitunnel.Lens.Recorder
import Teitunnel.Lib.Runs

/-!
# No recorded update is lost

The response task finishes the exchange once, and nothing it published before can come after.
The request task publishes at most one snapshot, of a finished exchange, while the finished one
may still be on its way to the store.  Whoever stores last wins: `LateIsLast` says that it is the
request task, and then what is stored is what was recorded (`recording_settles`).
-/

namespace Teitunnel.Lens

open Runs

namespace Recorder

variable {recorder : Recorder} {operation : Operation}

/-- A finished exchange is complete or failed. -/
def HasEnded (exchange : Exchange) : Prop :=
  exchange.state = .complete ∨ exchange.state = .failed

lemma perform_capture (recorder : Recorder) (operation : Operation) :
    (recorder.perform operation).1.capture = recorder.capture := by
  cases operation with
  | streamUpdate now update =>
      simp only [perform, streamUpdate]
      split_ifs <;> rfl
  | finish elapsed error =>
      simp only [perform, finish]
      split_ifs <;> rfl
  | bodyEnd elapsed side body error =>
      cases side
      · rfl
      · simp only [perform, bodyEnd, finish]
        split_ifs <;> rfl
  | _ => rfl

/-- Before the last operation the exchange is not finished, and updates are published. -/
lemma perform_going (h : recorder.finished = false) (hlast : Recording.isLast operation = false) :
    (recorder.perform operation).1.finished = false ∧
      (recorder.perform operation).1.activeRequests = recorder.activeRequests ∧
      ∀ update, (recorder.perform operation).2 = some update → update.change = .updated := by
  have hpublish : ∀ exchange update, recorder.publish .updated exchange = some update →
      update.change = .updated := by
    intro exchange update hsome
    rw [publish] at hsome
    split_ifs at hsome
    rw [← Option.some.inj hsome]
  cases operation with
  | finish elapsed error => cases hlast
  | breakpoint update =>
      simp only [perform, breakpoint]
      exact ⟨h, trivial, hpublish _⟩
  | responseHead elapsed status headers responder =>
      simp only [perform, responseHead]
      exact ⟨h, trivial, hpublish _⟩
  | streamUpdate now update =>
      simp only [perform, streamUpdate]
      split_ifs
      · exact ⟨h, rfl, hpublish _⟩
      · exact ⟨h, rfl, fun _ hnone => by cases hnone⟩
      · exact ⟨h, rfl, fun _ hnone => by cases hnone⟩
  | bodyEnd elapsed side body error =>
      cases side with
      | response => cases hlast
      | request =>
          simp only [perform, bodyEnd, h]
          exact ⟨trivial, trivial, fun _ hnone => by cases hnone⟩
  | _ => exact ⟨h, rfl, fun _ hnone => by cases hnone⟩

lemma finish_spec (recorder : Recorder) (elapsed : ℕ) (error : Option ExchangeError)
    (h : recorder.finished = false) :
    (recorder.finish elapsed error).1.finished = true ∧
      (recorder.finish elapsed error).1.activeRequests = recorder.activeRequests - 1 ∧
      HasEnded (recorder.finish elapsed error).1.exchange ∧
      (recorder.finish elapsed error).2 =
        recorder.publish .completed (recorder.finish elapsed error).1.exchange := by
  simp only [finish, h, HasEnded]
  refine ⟨rfl, rfl, ?_, rfl⟩
  show (if _ then ExchangeState.failed else _) = _ ∨ (if _ then ExchangeState.failed else _) = _
  split_ifs
  · exact .inr rfl
  · exact .inl rfl

/-- The last operation finishes the exchange and has it to publish. -/
lemma perform_last (h : recorder.finished = false) (hlast : Recording.isLast operation = true) :
    (recorder.perform operation).1.finished = true ∧
      (recorder.perform operation).1.activeRequests = recorder.activeRequests - 1 ∧
      HasEnded (recorder.perform operation).1.exchange ∧
      (recorder.perform operation).2 =
        recorder.publish .completed (recorder.perform operation).1.exchange := by
  cases operation with
  | finish elapsed error => exact finish_spec recorder elapsed error h
  | bodyEnd elapsed side body error =>
      cases side with
      | request => cases hlast
      | response => exact finish_spec { recorder with exchange := _ } elapsed error h
  | _ => cases hlast

end Recorder

namespace Recording

variable {active : ℕ} {r t : Recording}

@[simp] lemma hubPublish_recorder (r : Recording) (update : Option Update) :
    (r.hubPublish update).recorder = r.recorder := by
  cases update <;> rfl

@[simp] lemma hubPublish_response (r : Recording) (update : Option Update) :
    (r.hubPublish update).response = r.response := by
  cases update <;> rfl

@[simp] lemma hubPublish_request (r : Recording) (update : Option Update) :
    (r.hubPublish update).request = r.request := by
  cases update <;> rfl

@[simp] lemma hubPublish_noted (r : Recording) (update : Option Update) :
    (r.hubPublish update).noted = r.noted := by
  cases update <;> rfl

@[simp] lemma hubPublish_dropped (r : Recording) (update : Option Update) :
    (r.hubPublish update).dropped = r.dropped := by
  cases update <;> rfl

/-- Whether a snapshot on its way says that the exchange completed. -/
def completing : Option Update → ℕ
  | some update => if update.change = .completed then 1 else 0
  | none => 0

/-- Nothing is on its way, and the request task is not in the middle of ending the body. -/
structure Still (r : Recording) : Prop where
  response : r.response.inFlight = none
  request : r.request.inFlight = none
  noted : r.noted = false

/-- What holds between recorder, store and tasks at every step. -/
structure Consistent (active : ℕ) (r : Recording) : Prop where
  gauge : r.recorder.activeRequests = if r.recorder.finished then active else active + 1
  ended : r.recorder.capture = true → r.recorder.finished = true →
    Recorder.HasEnded r.recorder.exchange
  dropped : r.dropped = true → r.recorder.finished = true ∧ r.request.done = true ∧ r.Still
  done : r.recorder.finished = true → r.response.done = true
  noted : r.noted = true → r.request.done = false
  late : ∀ update, r.request.inFlight = some update → r.request.done = true ∧
    r.recorder.finished = true ∧ update = ⟨.updated, r.recorder.exchange⟩
  completed : r.recorder.capture = true →
    r.changes.count .completed + completing r.response.inFlight =
      if r.recorder.finished then 1 else 0
  /-- The last snapshot taken is the exchange as it is. -/
  fresh : r.recorder.capture = true → r.recorder.finished = true → r.noted = false →
    r.request.inFlight = none →
      (r.response.inFlight.map Update.exchange).or r.stored = some r.recorder.exchange

lemma consistent_start (capture : Bool) (active : ℕ) (exchange : Exchange) :
    Consistent active (start capture active exchange) := by
  constructor
  case completed =>
    intro hcapture
    simp [start, Recorder.start] at hcapture ⊢
    simp [hcapture, completing]
  all_goals simp [start, Recorder.start]

/-- The request task stores its late snapshot when the response task's is stored. -/
def LateIsLast (r : Recording) : Step → Prop
  | .publish .request => r.response.inFlight = none
  | _ => True

instance (r : Recording) : (a : Step) → Decidable (LateIsLast r a)
  | .publish .request => inferInstanceAs (Decidable (_ = none))
  | .publish .response | .respond _ | .noteError _ | .endBody _ _ | .leave _ | .drop _ =>
      .isTrue trivial

namespace Consistent

/-- The response task performs an operation. -/
lemma respond (h : Consistent active r) {operation : Operation} (hdone : r.response.done = false)
    (hnone : r.response.inFlight = none) :
    Consistent active { r with
      recorder := (r.recorder.perform operation).1
      response := ⟨isLast operation, (r.recorder.perform operation).2⟩ } := by
  have hgoing : r.recorder.finished = false := by
    cases hfinished : r.recorder.finished with
    | false => rfl
    | true => exact absurd (h.done hfinished) (by simp [hdone])
  have hrequest : r.request.inFlight = none := by
    cases hlate : r.request.inFlight with
    | none => rfl
    | some update => exact absurd (h.late update hlate).2.1 (by simp [hgoing])
  have hdropped : r.dropped = false := by
    cases hd : r.dropped with
    | false => rfl
    | true => exact absurd (h.dropped hd).1 (by simp [hgoing])
  have hcapture := Recorder.perform_capture r.recorder operation
  have hgauge : r.recorder.activeRequests = active + 1 := by simpa [hgoing] using h.gauge
  cases hlast : isLast operation with
  | false =>
      obtain ⟨hfinished, hactive, hchange⟩ := Recorder.perform_going hgoing hlast
      refine ⟨?_, ?_, ?_, ?_, h.noted, ?_, ?_, ?_⟩
      · simp [hfinished, hactive, hgauge]
      · simp [hfinished]
      · simp [hdropped]
      · simp [hfinished]
      · simp [hrequest]
      · intro hon
        have hcount := h.completed (hcapture ▸ hon)
        simp only [hgoing, hnone, completing] at hcount
        simp only [hfinished]
        cases hupdate : (r.recorder.perform operation).2 with
        | none => exact hcount
        | some update => simpa [completing, hchange update hupdate] using hcount
      · simp [hfinished]
  | true =>
      obtain ⟨hfinished, hactive, hended, hupdate⟩ := Recorder.perform_last hgoing hlast
      refine ⟨?_, fun _ _ => hended, ?_, fun _ => rfl, h.noted, ?_, ?_, ?_⟩
      · simp [hfinished, hactive, hgauge]
      · simp [hdropped]
      · simp [hrequest]
      · intro hon
        have hon' : r.recorder.capture = true := hcapture ▸ hon
        have hcount : r.changes.count .completed = 0 := by
          simpa [hgoing, hnone, completing] using h.completed hon'
        simp [hfinished, hupdate, Recorder.publish, hon', completing, hcount]
      · intro hon _ _ _
        have hon' : r.recorder.capture = true := hcapture ▸ hon
        simp [hupdate, Recorder.publish, hon']

/-- The request task notes an error. -/
lemma noteError (h : Consistent active r) (error : ExchangeError) (hdone : r.request.done = false) :
    Consistent active { r with recorder := r.recorder.noteError error, noted := true } := by
  refine ⟨h.gauge, h.ended, fun hd => ?_, h.done, fun _ => hdone, ?_, h.completed,
    fun _ _ hnoted => ?_⟩
  · exact absurd (h.dropped hd).2.1 (by simp [hdone])
  · intro update hlate
    exact absurd (h.late update hlate).1 (by simp [hdone])
  · cases hnoted

/-- The request task ends the body: a late snapshot, where the exchange is finished. -/
lemma endBody (h : Consistent active r) (elapsed : ℕ) (body : BodyRecord)
    (hdone : r.request.done = false) :
    Consistent active { r with
      recorder := (r.recorder.bodyEnd elapsed .request body none).1
      request := ⟨true, (r.recorder.bodyEnd elapsed .request body none).2⟩
      noted := false } := by
  simp only [Recorder.bodyEnd]
  refine ⟨h.gauge, h.ended, fun hd => ?_, h.done, ?_, ?_, h.completed, ?_⟩
  · exact absurd (h.dropped hd).2.1 (by simp [hdone])
  · simp
  · intro update hlate
    split_ifs at hlate with hfinished
    · rw [Recorder.publish] at hlate
      split_ifs at hlate
      exact ⟨rfl, hfinished, (Option.some.inj hlate).symm⟩
  · intro hon hfinished _ hnone
    have hon' : r.recorder.capture = true := hon
    have hfinished' : r.recorder.finished = true := hfinished
    simp [hfinished', Recorder.publish, hon'] at hnone

/-- The response task publishes. -/
lemma publishResponse (h : Consistent active r) {update : Update}
    (hflight : r.response.inFlight = some update) :
    Consistent active { r with
      stored := some update.exchange
      changes := r.changes ++ [update.change]
      response := { r.response with inFlight := none } } := by
  refine ⟨h.gauge, h.ended, fun hd => ?_, h.done, h.noted, h.late, fun hon => ?_,
    fun hon hfinished hnoted hnone => ?_⟩
  · have hstill := (h.dropped hd).2.2.response
    rw [hflight] at hstill
    cases hstill
  · have hcount := h.completed hon
    rw [hflight] at hcount
    rw [← hcount]
    simp only [List.count_append, completing, Nat.add_zero]
    by_cases hchange : update.change = .completed
    · simp [hchange]
    · simp [hchange]
  · have hfresh := h.fresh hon hfinished hnoted hnone
    rw [hflight] at hfresh
    exact hfresh

/-- The request task publishes, after the response task did. -/
lemma publishRequest (h : Consistent active r) {update : Update}
    (hflight : r.request.inFlight = some update) (hlast : r.response.inFlight = none) :
    Consistent active { r with
      stored := some update.exchange
      changes := r.changes ++ [update.change]
      request := { r.request with inFlight := none } } := by
  obtain ⟨hdone, hfinished, hupdate⟩ := h.late update hflight
  refine ⟨h.gauge, h.ended, fun hd => ?_, h.done, h.noted, ?_, fun hon => ?_, fun _ _ _ _ => ?_⟩
  · have hstill := (h.dropped hd).2.2.request
    rw [hflight] at hstill
    cases hstill
  · simp
  · rw [← h.completed hon, hupdate]
    simp
  · simp [hlast, hupdate]

/-- A task gives its handle up. -/
lemma leaveResponse (h : Consistent active r) (hnone : r.response.inFlight = none) :
    Consistent active { r with response := ⟨true, none⟩ } := by
  refine ⟨h.gauge, h.ended, fun hd => ?_, fun _ => rfl, h.noted, h.late, ?_, ?_⟩
  · obtain ⟨hfinished, hdone, hstill⟩ := h.dropped hd
    exact ⟨hfinished, hdone, rfl, hstill.request, hstill.noted⟩
  · simpa [hnone] using h.completed
  · simpa [hnone] using h.fresh

lemma leaveRequest (h : Consistent active r) (hdone : r.request.done = false)
    (hnoted : r.noted = false) : Consistent active { r with request := ⟨true, none⟩ } := by
  refine ⟨h.gauge, h.ended, fun hd => ?_, h.done, ?_, ?_, h.completed,
    fun hon hfinished hn _ => ?_⟩
  · exact absurd (h.dropped hd).2.1 (by simp [hdone])
  · simp [hnoted]
  · simp
  · refine h.fresh hon hfinished hn ?_
    cases hlate : r.request.inFlight with
    | none => rfl
    | some update => exact absurd (h.late update hlate).1 (by simp [hdone])

/-- The last handle goes. -/
lemma drop (h : Consistent active r) (elapsed : ℕ) (hdone : r.response.done = true)
    (hresponse : r.response.inFlight = none) (hrequestDone : r.request.done = true)
    (hrequest : r.request.inFlight = none) :
    Consistent active
      (({ r with recorder := (r.recorder.drop elapsed).1, dropped := true } : Recording).hubPublish
        (r.recorder.drop elapsed).2) := by
  have hnoted : r.noted = false := by
    cases hn : r.noted with
    | false => rfl
    | true => exact absurd (h.noted hn) (by simp [hrequestDone])
  have hstill : r.Still := ⟨hresponse, hrequest, hnoted⟩
  cases hfinished : r.recorder.finished with
  | true =>
      simp only [Recorder.drop, hfinished, if_true, hubPublish]
      exact ⟨h.gauge, h.ended, fun _ => ⟨hfinished, hrequestDone, hresponse, hrequest, hnoted⟩,
        h.done, h.noted, h.late, h.completed, h.fresh⟩
  | false =>
      have hgauge : r.recorder.activeRequests = active + 1 := by simpa [hfinished] using h.gauge
      cases hon : r.recorder.capture with
      | false =>
          simp only [Recorder.drop, Recorder.publish, hfinished, hon, hubPublish, if_false,
            Bool.false_eq_true]
          refine ⟨?_, ?_, fun _ => ⟨rfl, hrequestDone, hresponse, hrequest, hnoted⟩,
            fun _ => hdone, h.noted, ?_, ?_, ?_⟩
          · simp [hgauge]
          · simp
          · simp [hrequest]
          · simp
          · simp
      | true =>
          have hcount : r.changes.count .completed = 0 := by
            simpa [hfinished, hresponse, completing] using h.completed hon
          simp only [Recorder.drop, Recorder.publish, hfinished, hon, hubPublish, if_true,
            if_false, Bool.false_eq_true]
          refine ⟨?_, fun _ _ => .inr rfl,
            fun _ => ⟨rfl, hrequestDone, hresponse, hrequest, hnoted⟩,
            fun _ => hdone, h.noted, ?_, fun _ => ?_, fun _ _ _ _ => ?_⟩
          · simp [hgauge]
          · simp [hrequest]
          · simp [hcount, hresponse, completing]
          · simp [hresponse]

/-- Every step keeps recorder, store and tasks consistent, when the late snapshot is stored
last. -/
lemma step (h : Consistent active r) {a : Step} (hlast : LateIsLast r a) (ht : r.step a = some t) :
    Consistent active t := by
  cases a with
  | respond operation =>
      simp only [Recording.step] at ht
      split at ht
      · rename_i hmay
        cases ht
        exact h.respond hmay.1 hmay.2
      · cases ht
  | noteError error =>
      simp only [Recording.step] at ht
      split at ht
      · rename_i hmay
        cases ht
        exact h.noteError error hmay.1
      · cases ht
  | endBody elapsed body =>
      simp only [Recording.step] at ht
      split at ht
      · rename_i hmay
        cases ht
        exact h.endBody elapsed body hmay
      · cases ht
  | publish side =>
      cases side with
      | response =>
          cases hflight : r.response.inFlight with
          | none => simp [Recording.step, hflight] at ht
          | some update =>
              simp only [Recording.step, hflight, hubPublish, Option.isSome_some, if_true] at ht
              cases ht
              exact h.publishResponse hflight
      | request =>
          cases hflight : r.request.inFlight with
          | none => simp [Recording.step, hflight] at ht
          | some update =>
              simp only [Recording.step, hflight, hubPublish, Option.isSome_some, if_true] at ht
              cases ht
              exact h.publishRequest hflight hlast
  | leave side =>
      cases side with
      | response =>
          simp only [Recording.step] at ht
          split at ht
          · rename_i hmay
            cases ht
            exact h.leaveResponse hmay.2
          · cases ht
      | request =>
          simp only [Recording.step] at ht
          split at ht
          · rename_i hmay
            cases ht
            exact h.leaveRequest hmay.1 hmay.2
          · cases ht
  | drop elapsed =>
      simp only [Recording.step] at ht
      split at ht
      · rename_i hmay
        obtain ⟨-, hdone, hresponse, hrequestDone, hrequest⟩ := hmay
        cases ht
        exact h.drop elapsed hdone hresponse hrequestDone hrequest
      · cases ht

end Consistent

/-- In every run that stores the late snapshot last, an exchange that ended and has nothing on
its way is stored as it was recorded, completed once, and no longer active; and when the last
handle went it did end and nothing is on its way. -/
theorem recording_settles {capture : Bool} {active : ℕ} {exchange : Exchange} {steps : List Step}
    (hrun : run step (start capture active exchange) steps = some r)
    (hlast : Meets step LateIsLast (start capture active exchange) steps) :
    (r.dropped = true → r.recorder.finished = true ∧ r.Still) ∧
      (r.recorder.finished = true → r.Still →
        r.recorder.activeRequests = active ∧
          (r.recorder.capture = true → r.stored = some r.recorder.exchange ∧
            r.changes.count .completed = 1 ∧ Recorder.HasEnded r.recorder.exchange)) := by
  have h : Consistent active r := run_invariant (I := fun _ t => Consistent active t)
    (consistent_start capture active exchange)
    (fun _ _ _ _ _ hs hlast ht => hs.step hlast ht) hrun hlast
  refine ⟨fun hd => ⟨(h.dropped hd).1, (h.dropped hd).2.2⟩, fun hfinished hstill => ?_⟩
  have hgauge := h.gauge
  rw [hfinished] at hgauge
  refine ⟨hgauge, fun hon => ⟨?_, ?_, h.ended hon hfinished⟩⟩
  · have hfresh := h.fresh hon hfinished hstill.noted hstill.request
    rw [hstill.response] at hfresh
    exact hfresh
  · have hcount := h.completed hon
    rw [hstill.response, hfinished] at hcount
    exact hcount

/-- An upload. -/
def upload : Exchange where
  id := 0
  seq := 1
  tap := "app"
  request := ⟨"POST", ⟨"/upload", none⟩, "https", "app.example.com", ⟨[]⟩, {}⟩

/-- The upload is refused early, and stored before its body ends. -/
def earlyRefusal : List Step :=
  [.respond (.responseHead 3 413 ⟨[]⟩ .upstream), .publish .response, .respond (.finish 5 none),
    .publish .response, .endBody 7 { size := 9 }, .publish .request, .drop 8]

theorem recording_settles_earlyRefusal :
    ∃ r, run step (start true 0 upload) earlyRefusal = some r ∧
      (r.dropped = true → r.recorder.finished = true ∧ r.Still) ∧
      (r.recorder.finished = true → r.Still →
        r.recorder.activeRequests = 0 ∧
          (r.recorder.capture = true → r.stored = some r.recorder.exchange ∧
            r.changes.count .completed = 1 ∧ Recorder.HasEnded r.recorder.exchange)) := by
  have hlast : Meets step LateIsLast (start true 0 upload) earlyRefusal :=
    meets_cons rfl trivial (meets_cons rfl trivial (meets_cons rfl trivial
      (meets_cons rfl trivial (meets_cons rfl trivial (meets_cons rfl rfl
        (meets_cons rfl trivial trivial))))))
  exact ⟨_, rfl, recording_settles rfl hlast⟩

/-- The body ends while the finished exchange is on its way to the store: stored first, the late
snapshot is overwritten. -/
theorem recording_loses_body :
    ∃ steps r, run step (start true 0 upload) steps = some r ∧ r.dropped = true ∧ r.Still ∧
      r.stored ≠ some r.recorder.exchange :=
  ⟨[.respond (.responseHead 3 413 ⟨[]⟩ .upstream), .publish .response, .respond (.finish 5 none),
      .endBody 7 { size := 9 }, .publish .request, .publish .response, .drop 8],
    _, rfl, rfl, ⟨rfl, rfl, rfl⟩, by decide⟩

end Recording

end Teitunnel.Lens
