import Teitunnel.Uptime.Alerts

/-!
# Alerts come in turn

The three detectors do the same with their conditions: a subject is active from a problem until its
end.  What is active is what has begun and not ended in the calls so far.
-/

namespace Teitunnel.Uptime

open AlertEngine

/-! ## What a call does -/

/-- What finds problems. -/
inductive Detector where
  | down
  | errors
  | latency
  deriving DecidableEq

namespace Detector

def key : Detector → String → String
  | .down, subject => "down:" ++ subject
  | .errors, subject => "errors:" ++ subject
  | .latency, subject => "latency:" ++ subject

/-- The kind of its problems. -/
def problem : Detector → AlertKind
  | .down => .routeDown
  | .errors => .errorRate
  | .latency => .latency

/-- The kind of their ends. -/
def ended : Detector → AlertKind
  | .down => .routeRecovered
  | .errors => .errorRateResolved
  | .latency => .latencyResolved

lemma isProblem_problem (d : Detector) : d.problem.isProblem = true := by
  cases d with
  | down => rfl
  | errors => rfl
  | latency => rfl

lemma isProblem_ended (d : Detector) : d.ended.isProblem = false := by
  cases d with
  | down => rfl
  | errors => rfl
  | latency => rfl

lemma problem_ne_ended (d : Detector) : d.problem ≠ d.ended := by
  intro h
  have hproblem := d.isProblem_problem
  rw [h, d.isProblem_ended] at hproblem
  exact Bool.false_ne_true hproblem

/-- The keys of two detectors differ. -/
lemma key_injective {d d' : Detector} {s s' : String} (h : d.key s = d'.key s') :
    d = d' ∧ s = s' := by
  have hlist := congrArg String.toList h
  cases d with
  | down =>
      cases d' with
      | down => exact ⟨rfl, String.append_right_inj _ |>.mp h⟩
      | errors => simp [key] at hlist
      | latency => simp [key] at hlist
  | errors =>
      cases d' with
      | down => simp [key] at hlist
      | errors => exact ⟨rfl, String.append_right_inj _ |>.mp h⟩
      | latency => simp [key] at hlist
  | latency =>
      cases d' with
      | down => simp [key] at hlist
      | errors => simp [key] at hlist
      | latency => exact ⟨rfl, String.append_right_inj _ |>.mp h⟩

end Detector

namespace AlertEngine.Call

def detector : Call → Detector
  | .routeCheck .. => .down
  | .errorRate .. => .errors
  | .latency .. => .latency

def subject : Call → String
  | .routeCheck _ _ subject _ _ _ => subject
  | .errorRate _ _ subject _ _ _ _ _ => subject
  | .latency _ _ subject _ _ => subject

def rules : Call → AlertRules
  | .routeCheck rules _ _ _ _ _ => rules
  | .errorRate rules _ _ _ _ _ _ _ => rules
  | .latency rules _ _ _ _ => rules

def now : Call → Time
  | .routeCheck _ _ _ _ _ now => now
  | .errorRate _ _ _ _ _ _ _ now => now
  | .latency _ _ _ _ now => now

/-- The condition of the problem holds. -/
def Starts : Call → Prop
  | .routeCheck rules _ _ failures _ _ => failures ≠ 0 ∧ rules.downAfter ≤ failures
  | .errorRate rules _ _ _ _ requests errors _ =>
      rules.minRequests ≤ requests ∧ rules.errorRatePercent ≤ percent requests errors
  | .latency rules _ _ p95Ms _ => ∃ p95, p95Ms = some p95 ∧ (rules.latencyMs : ℚ) ≤ p95

/-- The condition of its end holds. -/
def Ends : Call → Prop
  | .routeCheck _ _ _ failures _ _ => failures = 0
  | .errorRate rules _ _ _ _ requests errors _ =>
      ¬ (rules.minRequests ≤ requests ∧ rules.errorRatePercent / 2 ≤ percent requests errors)
  | .latency rules _ _ p95Ms _ => ∃ p95, p95Ms = some p95 ∧ p95 < (rules.latencyMs : ℚ) * (8 / 10)

/-- The rule for its problems is on. -/
def startOn : Call → Bool
  | .routeCheck rules .. => rules.routeDown
  | .errorRate rules .. => rules.errorRate
  | .latency rules .. => rules.latency

/-- The rule for their ends is on. -/
def endOn : Call → Bool
  | .routeCheck rules .. => rules.recovered
  | .errorRate rules .. => rules.errorRate
  | .latency rules .. => rules.latency

def key (call : Call) : String := call.detector.key call.subject

/-- A call of a detector about a subject. -/
def About (call : Call) (d : Detector) (s : String) : Prop := call.detector = d ∧ call.subject = s

end AlertEngine.Call

/-- An alert is returned, and notifies unless its subject did a short time ago. -/
structure Fires (e : AlertEngine) (call : Call) (kind : AlertKind) (active : Table String Active)
    (alert : Alert) (e' : AlertEngine) : Prop where
  kind : alert.kind = kind
  subject : alert.subject = call.subject
  raisedAt : alert.raisedAt = call.now
  active : e'.active = active
  notify : alert.notify = true → (∀ last, e.notified.find call.subject = some last →
      COOLDOWN_MS ≤ call.now - last) ∧ e'.notified = e.notified.insert call.subject call.now
  quiet : alert.notify = false → e'.notified = e.notified

/-- What a call can do. -/
inductive Outcome (e : AlertEngine) (call : Call) : Option Alert → AlertEngine → Prop where
  | goesOn (hactive : e.active.contains call.key = true) (hend : ¬ call.Ends) : Outcome e call none e
  | stays (hactive : e.active.contains call.key = false)
      (hstart : ¬ (call.Starts ∧ call.startOn = true ∧ call.rules.isMuted call.subject = false)) :
      Outcome e call none e
  | endsQuietly (hactive : e.active.contains call.key = true) (hend : call.Ends)
      (hoff : ¬ (call.endOn = true ∧ call.rules.isMuted call.subject = false)) :
      Outcome e call none { e with active := e.active.erase call.key }
  | ends (hactive : e.active.contains call.key = true) (hend : call.Ends) {alert : Alert}
      {e' : AlertEngine}
      (hfires : Fires e call call.detector.ended (e.active.erase call.key) alert e') :
      Outcome e call (some alert) e'
  | starts (hactive : e.active.contains call.key = false) (hstart : call.Starts) {since : Active}
      {alert : Alert} {e' : AlertEngine}
      (hfires : Fires e call call.detector.problem (e.active.insert call.key since) alert e') :
      Outcome e call (some alert) e'

lemma fire_spec (e : AlertEngine) (call : Call) (kind : AlertKind) (account : String)
    (hostnames : List String) (texts : AlertText × AlertText) (active : Table String Active) :
    ∃ alert e', ({ e with active := active } : AlertEngine).fire kind account call.subject hostnames
        texts call.now = (some alert, e') ∧ Fires e call kind active alert e' := by
  refine ⟨_, _, rfl, ⟨rfl, rfl, rfl, ?_, ?_, ?_⟩⟩
  · dsimp only
    split
    · rfl
    · rfl
  · intro hnotify
    dsimp only at hnotify ⊢
    refine ⟨fun last hlast => ?_, ?_⟩
    · rw [hlast] at hnotify
      exact of_decide_eq_true hnotify
    · rw [if_pos hnotify]
  · intro hquiet
    dsimp only at hquiet ⊢
    rw [if_neg (ne_true_of_eq_false hquiet)]

variable {e : AlertEngine}

/-- An end that is told. -/
lemma Outcome.of_ends (call : Call) (hactive : e.active.contains call.key = true) (hend : call.Ends)
    (account : String) (hostnames : List String) (texts : AlertText × AlertText) :
    Outcome e call
      (({ e with active := e.active.erase call.key } : AlertEngine).fire call.detector.ended account
        call.subject hostnames texts call.now).1
      (({ e with active := e.active.erase call.key } : AlertEngine).fire call.detector.ended account
        call.subject hostnames texts call.now).2 := by
  obtain ⟨alert, e', heq, hfires⟩ := fire_spec e call call.detector.ended account hostnames texts
    (e.active.erase call.key)
  rw [heq]
  exact .ends hactive hend hfires

lemma Outcome.of_starts (call : Call) (hactive : e.active.contains call.key = false) (hstart : call.Starts)
    (since : Active) (account : String) (hostnames : List String)
    (texts : AlertText × AlertText) :
    Outcome e call
      (({ e with active := e.active.insert call.key since } : AlertEngine).fire
        call.detector.problem account call.subject hostnames texts call.now).1
      (({ e with active := e.active.insert call.key since } : AlertEngine).fire
        call.detector.problem account call.subject hostnames texts call.now).2 := by
  obtain ⟨alert, e', heq, hfires⟩ := fire_spec e call call.detector.problem account hostnames texts
    (e.active.insert call.key since)
  rw [heq]
  exact .starts hactive hstart hfires

lemma routeCheck_outcome (e : AlertEngine) (rules : AlertRules) (account subject : String)
    (failures : ℕ) (cause : Option Cause) (now : Time) :
    Outcome e (.routeCheck rules account subject failures cause now)
      (e.routeCheck rules account subject failures cause now).1
      (e.routeCheck rules account subject failures cause now).2 := by
  unfold routeCheck
  dsimp only
  split
  · next hzero =>
      cases hfind : e.active.find ("down:" ++ subject) with
      | none =>
          have hactive : e.active.contains ("down:" ++ subject) = false := by
            rw [Table.contains, hfind]
            rfl
          exact .stays hactive fun h => h.1.1 hzero
      | some active =>
          have hactive : e.active.contains ("down:" ++ subject) = true := by
            rw [Table.contains, hfind]
            rfl
          dsimp only
          split
          · next hoff =>
              refine .endsQuietly hactive hzero fun hon => ?_
              rcases hoff with hoff | hmuted
              · exact Bool.false_ne_true (hoff.symm.trans hon.1)
              · exact Bool.false_ne_true (hon.2.symm.trans hmuted)
          · exact Outcome.of_ends (.routeCheck rules account subject failures cause now)
              hactive hzero account _ _
  · next hfailed =>
      split
      · next hquiet =>
          cases hactive : e.active.contains ("down:" ++ subject) with
          | true => exact .goesOn hactive hfailed
          | false =>
              refine .stays hactive fun hstart => ?_
              rcases hquiet with hoff | hmuted | hfew | hactive'
              · exact Bool.false_ne_true (hoff.symm.trans hstart.2.1)
              · exact Bool.false_ne_true (hstart.2.2.symm.trans hmuted)
              · exact absurd hstart.1.2 (not_le.mpr hfew)
              · exact Bool.false_ne_true (hactive.symm.trans hactive')
      · next hloud =>
          obtain ⟨-, -, hmany, hactive⟩ := by
            rwa [not_or, not_or, not_or, Bool.not_eq_true, not_lt] at hloud
          exact Outcome.of_starts (.routeCheck rules account subject failures cause now)
            (Bool.eq_false_of_not_eq_true hactive) ⟨hfailed, hmany⟩ _ account _ _

lemma errorRate_outcome (e : AlertEngine) (rules : AlertRules) (account subject : String)
    (tunnel : Bool) (hostnames : List String) (requests errors : ℕ) (now : Time) :
    Outcome e (.errorRate rules account subject tunnel hostnames requests errors now)
      (e.errorRate rules account subject tunnel hostnames requests errors now).1
      (e.errorRate rules account subject tunnel hostnames requests errors now).2 := by
  unfold errorRate
  dsimp only
  split
  · next hactive =>
      split
      · next hhigh => exact .goesOn hactive fun hend => hend hhigh
      · next hlow =>
          split
          · next hoff =>
              refine .endsQuietly hactive hlow fun hon => ?_
              rcases hoff with hoff | hmuted
              · exact Bool.false_ne_true (hoff.symm.trans hon.1)
              · exact Bool.false_ne_true (hon.2.symm.trans hmuted)
          · exact Outcome.of_ends
              (.errorRate rules account subject tunnel hostnames requests errors now)
              hactive hlow account _ _
  · next hidle =>
      have hactive : e.active.contains ("errors:" ++ subject) = false :=
        Bool.eq_false_of_not_eq_true hidle
      split
      · next hquiet =>
          refine .stays hactive fun hstart => ?_
          rcases hquiet with hoff | hmuted | hfew | hlow
          · exact Bool.false_ne_true (hoff.symm.trans hstart.2.1)
          · exact Bool.false_ne_true (hstart.2.2.symm.trans hmuted)
          · exact hfew hstart.1.1
          · exact absurd hstart.1.2 (not_le.mpr hlow)
      · next hloud =>
          rw [not_or, not_or, not_or, not_not, not_lt] at hloud
          exact Outcome.of_starts
            (.errorRate rules account subject tunnel hostnames requests errors now)
            hactive hloud.2.2 _ account _ _

lemma latency_outcome (e : AlertEngine) (rules : AlertRules) (account subject : String)
    (p95Ms : Option ℚ) (now : Time) :
    Outcome e (.latency rules account subject p95Ms now)
      (e.latency rules account subject p95Ms now).1
      (e.latency rules account subject p95Ms now).2 := by
  unfold latency
  cases p95Ms with
  | none =>
      cases hactive : e.active.contains ("latency:" ++ subject) with
      | true =>
          refine .goesOn hactive ?_
          rintro ⟨p95, hnone, -⟩
          exact absurd hnone nofun
      | false =>
          refine .stays hactive ?_
          rintro ⟨⟨p95, hnone, -⟩, -⟩
          exact absurd hnone nofun
  | some p95 =>
      dsimp only
      split
      · next hactive =>
          split
          · next hslow =>
              refine .goesOn hactive ?_
              rintro ⟨p, hp, hfast⟩
              obtain rfl := Option.some.inj hp
              exact absurd hfast (not_lt.mpr hslow)
          · next hfast =>
              have hend : Call.Ends (.latency rules account subject (some p95) now) :=
                ⟨p95, rfl, not_le.mp hfast⟩
              split
              · next hoff =>
                  refine .endsQuietly hactive hend fun hon => ?_
                  rcases hoff with hoff | hmuted
                  · exact Bool.false_ne_true (hoff.symm.trans hon.1)
                  · exact Bool.false_ne_true (hon.2.symm.trans hmuted)
              · exact Outcome.of_ends (.latency rules account subject (some p95) now)
                  hactive hend account _ _
      · next hidle =>
          have hactive : e.active.contains ("latency:" ++ subject) = false :=
            Bool.eq_false_of_not_eq_true hidle
          split
          · next hquiet =>
              refine .stays hactive ?_
              rintro ⟨⟨p, hp, hslow⟩, hon, hloud⟩
              obtain rfl := Option.some.inj hp
              rcases hquiet with hoff | hmuted | hfast
              · exact Bool.false_ne_true (hoff.symm.trans hon)
              · exact Bool.false_ne_true (hloud.symm.trans hmuted)
              · exact absurd hslow (not_le.mpr hfast)
          · next hloud =>
              rw [not_or, not_or, not_lt] at hloud
              exact Outcome.of_starts (.latency rules account subject (some p95) now)
                hactive ⟨p95, rfl, hloud.2.2⟩ _ account _ _

/-- Each call does one of these. -/
lemma answer_outcome (e : AlertEngine) (call : Call) :
    Outcome e call (e.answer call).1 (e.answer call).2 := by
  cases call with
  | routeCheck rules account subject failures cause now =>
      exact routeCheck_outcome e rules account subject failures cause now
  | errorRate rules account subject tunnel hostnames requests errors now =>
      exact errorRate_outcome e rules account subject tunnel hostnames requests errors now
  | latency rules account subject p95Ms now =>
      exact latency_outcome e rules account subject p95Ms now

/-! ## What has begun and not ended -/

/-- The calls so far with what they returned, and the engine after them. -/
inductive Recorded : List (Call × Option Alert) → AlertEngine → Prop where
  | start : Recorded [] new
  | snoc {hist : List (Call × Option Alert)} {e : AlertEngine} (h : Recorded hist e) (call : Call) :
      Recorded (hist ++ [(call, (e.answer call).1)]) (e.answer call).2

lemma recorded_append {hist : List (Call × Option Alert)} (h : Recorded hist e)
    (calls : List Call) :
    Recorded (hist ++ (e.answerAll calls).1) (e.answerAll calls).2 := by
  induction calls generalizing hist e with
  | nil =>
      show Recorded (hist ++ []) e
      rwa [List.append_nil]
  | cons call calls ih =>
      have hnext := ih (h.snoc call)
      rwa [List.append_assoc] at hnext

lemma recorded_answerAll (calls : List Call) :
    Recorded (new.answerAll calls).1 (new.answerAll calls).2 :=
  recorded_append .start calls

/-- The engine at a call. -/
lemma Recorded.at {before after : List (Call × Option Alert)} {entry : Call × Option Alert}
    (h : Recorded (before ++ entry :: after) e) :
    ∃ e', Recorded before e' ∧ entry.2 = (e'.answer entry.1).1 := by
  generalize hhist : before ++ entry :: after = hist at h
  induction h generalizing after with
  | start => exact absurd hhist (by simp)
  | snoc h call ih =>
      rcases List.eq_nil_or_concat after with rfl | ⟨after, last, rfl⟩
      · obtain ⟨rfl, hlast⟩ := List.append_inj' hhist rfl
        obtain rfl := List.singleton_injective hlast
        exact ⟨_, h, rfl⟩
      · rw [List.concat_eq_append, ← List.cons_append, ← List.append_assoc] at hhist
        exact ih (List.append_inj' hhist rfl).1

/-- A problem was told, and the condition of its end didn't hold since. -/
def Open (hist : List (Call × Option Alert)) (d : Detector) (s : String) : Prop :=
  ∃ before call alert after, hist = before ++ (call, some alert) :: after ∧ call.About d s ∧
    alert.kind = d.problem ∧ ∀ entry ∈ after, entry.1.About d s → ¬ entry.1.Ends

lemma open_snoc {hist : List (Call × Option Alert)} {call : Call} {out : Option Alert}
    {d : Detector} {s : String} :
    Open (hist ++ [(call, out)]) d s ↔
      (call.About d s ∧ ∃ alert, out = some alert ∧ alert.kind = d.problem) ∨
        (Open hist d s ∧ (call.About d s → ¬ call.Ends)) := by
  constructor
  · rintro ⟨before, c, alert, after, heq, habout, hkind, hafter⟩
    rcases List.eq_nil_or_concat after with rfl | ⟨after, last, rfl⟩
    · obtain ⟨-, hlast⟩ := List.append_inj' heq rfl
      obtain ⟨rfl, rfl⟩ := Prod.mk.inj (List.singleton_injective hlast)
      exact .inl ⟨habout, alert, rfl, hkind⟩
    · rw [List.concat_eq_append, ← List.cons_append, ← List.append_assoc] at heq
      obtain ⟨rfl, hlast⟩ := List.append_inj' heq rfl
      obtain rfl := List.singleton_injective hlast
      rw [List.concat_eq_append] at hafter
      refine .inr ⟨⟨before, c, alert, after, rfl, habout, hkind, fun entry hentry =>
        hafter entry (List.mem_append_left _ hentry)⟩, ?_⟩
      exact hafter _ (List.mem_append_right _ List.mem_cons_self)
  · rintro (⟨habout, alert, rfl, hkind⟩ | ⟨⟨before, c, alert, after, rfl, habout, hkind, hafter⟩, hend⟩)
    · exact ⟨hist, call, alert, [], rfl, habout, hkind, fun _ h => absurd h List.not_mem_nil⟩
    · refine ⟨before, c, alert, after ++ [(call, out)], by simp, habout, hkind, ?_⟩
      intro entry hentry
      rcases List.mem_append.mp hentry with hentry | hentry
      · exact hafter entry hentry
      · obtain rfl := List.mem_singleton.mp hentry
        exact hend

lemma contains_eq {active : Table String Active} {k : String} :
    active.contains k = (active.find k).isSome := rfl

/-- What is active is what is open. -/
lemma Recorded.active_iff {hist : List (Call × Option Alert)} (h : Recorded hist e)
    (d : Detector) (s : String) :
    e.active.contains (d.key s) = true ↔ Open hist d s := by
  induction h with
  | start =>
      refine ⟨fun hnone => absurd hnone Bool.false_ne_true, ?_⟩
      rintro ⟨before, call, alert, after, hnil, -⟩
      exact absurd hnil (by simp)
  | @snoc hist e h call ih =>
      rw [open_snoc]
      have houtcome := answer_outcome e call
      generalize (e.answer call).1 = out at houtcome ⊢
      generalize (e.answer call).2 = e' at houtcome ⊢
      by_cases habout : call.About d s
      · obtain ⟨rfl, rfl⟩ := habout
        have hself : call.About call.detector call.subject := ⟨rfl, rfl⟩
        cases houtcome with
        | goesOn hactive hend =>
            exact ⟨fun _ => .inr ⟨ih.mp hactive, fun _ => hend⟩, fun _ => hactive⟩
        | stays hactive hstart =>
            constructor
            · exact fun hnow => absurd (hactive.symm.trans hnow) Bool.false_ne_true
            · rintro (⟨-, alert, hnone, -⟩ | ⟨hopen, -⟩)
              · exact absurd hnone nofun
              · exact ih.mpr hopen
        | endsQuietly hactive hend hoff =>
            constructor
            · intro hnow
              rw [contains_eq] at hnow
              exact absurd hnow (by simp [Call.key])
            · rintro (⟨-, alert, hnone, -⟩ | ⟨-, hnot⟩)
              · exact absurd hnone nofun
              · exact absurd hend (hnot hself)
        | ends hactive hend hfires =>
            constructor
            · intro hnow
              rw [hfires.active, contains_eq] at hnow
              exact absurd hnow (by simp [Call.key])
            · rintro (⟨-, alert, halert, hkind⟩ | ⟨-, hnot⟩)
              · obtain rfl := Option.some.inj halert
                exact absurd (hkind.symm.trans hfires.kind) call.detector.problem_ne_ended
              · exact absurd hend (hnot hself)
        | starts hactive hstart hfires =>
            refine ⟨fun _ => .inl ⟨hself, _, rfl, hfires.kind⟩, fun _ => ?_⟩
            rw [hfires.active, contains_eq]
            show ((e.active.insert call.key _).find call.key).isSome = true
            rw [Table.find_insert_self]
            rfl
      · -- another key
        have hkey : d.key s ≠ call.key := fun heq => by
          obtain ⟨rfl, rfl⟩ := Detector.key_injective heq
          exact habout ⟨rfl, rfl⟩
        have hsame : e'.active.contains (d.key s) = e.active.contains (d.key s) := by
          cases houtcome with
          | goesOn => rfl
          | stays => rfl
          | endsQuietly => rw [contains_eq, contains_eq, Table.find_erase_of_ne hkey]
          | ends _ _ hfires =>
              rw [contains_eq, contains_eq, hfires.active, Table.find_erase_of_ne hkey]
          | starts _ _ hfires =>
              rw [contains_eq, contains_eq, hfires.active, Table.find_insert_of_ne hkey]
        rw [hsame, ih]
        constructor
        · exact fun hopen => .inr ⟨hopen, fun hsame => absurd hsame habout⟩
        · rintro (⟨hsame, -⟩ | ⟨hopen, -⟩)
          · exact absurd hsame habout
          · exact hopen

/-! ## Alerts and calls -/

/-- An alert of a detector about a subject. -/
def Alert.Of (alert : Alert) (d : Detector) (s : String) : Prop :=
  (alert.kind = d.problem ∨ alert.kind = d.ended) ∧ alert.subject = s

instance (alert : Alert) (d : Detector) (s : String) : Decidable (alert.Of d s) :=
  inferInstanceAs (Decidable (_ ∧ _))

/-- The alerts that were returned, of a detector about a subject. -/
def alertsOf (hist : List (Call × Option Alert)) (d : Detector) (s : String) : List Alert :=
  (hist.filterMap Prod.snd).filter fun alert => alert.Of d s

lemma alertsOf_snoc (hist : List (Call × Option Alert)) (call : Call) (out : Option Alert)
    (d : Detector) (s : String) :
    alertsOf (hist ++ [(call, out)]) d s =
      alertsOf hist d s ++ out.toList.filter fun alert => alert.Of d s := by
  unfold alertsOf
  rw [List.filterMap_append, List.filter_append]
  cases out with
  | none => rfl
  | some alert => rfl

/-- What kinds of alerts a call returns. -/
lemma Outcome.kind {call : Call} {alert : Alert} {e' : AlertEngine}
    (h : Outcome e call (some alert) e') :
    (alert.kind = call.detector.problem ∧ call.Starts ∧ e.active.contains call.key = false ∨
      alert.kind = call.detector.ended ∧ call.Ends ∧ e.active.contains call.key = true) ∧
      alert.subject = call.subject ∧ alert.raisedAt = call.now := by
  cases h with
  | ends hactive hend hfires =>
      exact ⟨.inr ⟨hfires.kind, hend, hactive⟩, hfires.subject, hfires.raisedAt⟩
  | starts hactive hstart hfires =>
      exact ⟨.inl ⟨hfires.kind, hstart, hactive⟩, hfires.subject, hfires.raisedAt⟩

lemma Detector.kind_injective {d d' : Detector} {kind : AlertKind}
    (h : kind = d.problem ∨ kind = d.ended) (h' : kind = d'.problem ∨ kind = d'.ended) :
    d = d' := by
  rcases h with rfl | rfl
  · revert h'
    cases d with
    | down => cases d' <;> simp [problem, ended]
    | errors => cases d' <;> simp [problem, ended]
    | latency => cases d' <;> simp [problem, ended]
  · revert h'
    cases d with
    | down => cases d' <;> simp [problem, ended]
    | errors => cases d' <;> simp [problem, ended]
    | latency => cases d' <;> simp [problem, ended]

/-- An alert is of the detector and the subject of its call. -/
lemma Outcome.of_iff {call : Call} {alert : Alert} {e' : AlertEngine}
    (h : Outcome e call (some alert) e') (d : Detector) (s : String) :
    alert.Of d s ↔ call.About d s := by
  obtain ⟨hkind, hsubject, -⟩ := h.kind
  have hown : alert.kind = call.detector.problem ∨ alert.kind = call.detector.ended :=
    hkind.imp And.left And.left
  constructor
  · rintro ⟨hof, rfl⟩
    exact ⟨Detector.kind_injective hown hof, hsubject.symm⟩
  · rintro ⟨rfl, rfl⟩
    exact ⟨hown, hsubject⟩

/-- A problem is told when its condition holds and none is open. -/
lemma Recorded.problem {before after : List (Call × Option Alert)} {call : Call} {alert : Alert}
    {d : Detector} {s : String} (h : Recorded (before ++ (call, some alert) :: after) e)
    (habout : call.About d s) (hkind : alert.kind = d.problem) :
    call.Starts ∧ ¬ Open before d s := by
  obtain ⟨e', hbefore, hout⟩ := h.at
  have houtcome := answer_outcome e' call
  rw [← hout] at houtcome
  obtain ⟨rfl, rfl⟩ := habout
  rcases houtcome.kind.1 with ⟨-, hstart, hactive⟩ | ⟨hended, -⟩
  · refine ⟨hstart, fun hopen => ?_⟩
    exact Bool.false_ne_true (hactive.symm.trans ((hbefore.active_iff _ _).mpr hopen))
  · exact absurd (hkind.symm.trans hended) (Detector.problem_ne_ended _)

/-- An end is told when its condition holds and a problem is open. -/
lemma Recorded.ended {before after : List (Call × Option Alert)} {call : Call} {alert : Alert}
    {d : Detector} {s : String} (h : Recorded (before ++ (call, some alert) :: after) e)
    (habout : call.About d s) (hkind : alert.kind = d.ended) :
    call.Ends ∧ Open before d s := by
  obtain ⟨e', hbefore, hout⟩ := h.at
  have houtcome := answer_outcome e' call
  rw [← hout] at houtcome
  obtain ⟨rfl, rfl⟩ := habout
  rcases houtcome.kind.1 with ⟨hproblem, -⟩ | ⟨-, hend, hactive⟩
  · exact absurd (hproblem.symm.trans hkind) (Detector.problem_ne_ended _)
  · exact ⟨hend, (hbefore.active_iff _ _).mp hactive⟩

/-! ## Notifications -/

/-- Notifications about a subject are apart, and none is later than the last that is known. -/
structure Apart (hist : List (Call × Option Alert)) (e : AlertEngine) : Prop where
  known : ∀ alert ∈ hist.filterMap Prod.snd, alert.notify = true →
    ∃ last, e.notified.find alert.subject = some last ∧ alert.raisedAt ≤ last
  apart : (hist.filterMap Prod.snd).Pairwise fun a b =>
    a.subject = b.subject → a.notify = true → b.notify = true →
      COOLDOWN_MS ≤ b.raisedAt - a.raisedAt

lemma Recorded.apart {hist : List (Call × Option Alert)} (h : Recorded hist e) :
    Apart hist e := by
  induction h with
  | start => exact ⟨fun _ h => absurd h List.not_mem_nil, List.Pairwise.nil⟩
  | @snoc hist e h call ih =>
      have houtcome := answer_outcome e call
      generalize (e.answer call).1 = out at houtcome ⊢
      generalize (e.answer call).2 = e' at houtcome ⊢
      cases out with
      | none =>
          have hnotified : e'.notified = e.notified := by
            cases houtcome with
            | goesOn => rfl
            | stays => rfl
            | endsQuietly => rfl
          have hhist : (hist ++ [(call, none)]).filterMap Prod.snd = hist.filterMap Prod.snd := by
            rw [List.filterMap_append]
            exact List.append_nil _
          constructor
          · rw [hhist, hnotified]
            exact ih.known
          · rw [hhist]
            exact ih.apart
      | some alert =>
          have hhist : (hist ++ [(call, some alert)]).filterMap Prod.snd =
              hist.filterMap Prod.snd ++ [alert] := by
            rw [List.filterMap_append]
            rfl
          obtain ⟨kind, active, hfires⟩ : ∃ kind active, Fires e call kind active alert e' := by
            cases houtcome with
            | ends _ _ hfires => exact ⟨_, _, hfires⟩
            | starts _ _ hfires => exact ⟨_, _, hfires⟩
          constructor
          · rw [hhist]
            intro a ha hnotify
            rcases List.mem_append.mp ha with ha | ha
            · obtain ⟨last, hlast, hle⟩ := ih.known a ha hnotify
              cases halert : alert.notify with
              | false =>
                  rw [hfires.quiet halert]
                  exact ⟨last, hlast, hle⟩
              | true =>
                  obtain ⟨hcool, hinsert⟩ := hfires.notify halert
                  rw [hinsert, Table.find_insert]
                  split
                  · next hsame =>
                      have hafter := hcool last (hsame ▸ hlast)
                      have hpos : (0 : ℤ) ≤ COOLDOWN_MS := by decide
                      exact ⟨call.now, rfl, by linarith⟩
                  · exact ⟨last, hlast, hle⟩
            · obtain rfl := List.mem_singleton.mp ha
              rw [(hfires.notify hnotify).2, hfires.subject, Table.find_insert_self]
              exact ⟨call.now, rfl, hfires.raisedAt.le⟩
          · rw [hhist, List.pairwise_append]
            refine ⟨ih.apart, List.pairwise_singleton _ _, ?_⟩
            intro a ha b hb hsubject hnotify hnotify'
            obtain rfl := List.mem_singleton.mp hb
            obtain ⟨last, hlast, hle⟩ := ih.known a ha hnotify
            have hafter := (hfires.notify hnotify').1 last (by rw [← hfires.subject, ← hsubject, hlast])
            rw [hfires.raisedAt]
            linarith

/-! ## Everything on -/

/-- Every rule is on, nothing is muted and the thresholds are positive. -/
structure AlertRules.AllOn (rules : AlertRules) : Prop where
  routeDown : rules.routeDown = true
  recovered : rules.recovered = true
  errorRate : rules.errorRate = true
  latency : rules.latency = true
  muted : rules.muted = []
  downAfter : 0 < rules.downAfter
  errorRatePercent : 0 < rules.errorRatePercent
  latencyMs : 0 < rules.latencyMs

lemma AlertRules.AllOn.on {call : Call} (h : call.rules.AllOn) :
    call.startOn = true ∧ call.endOn = true ∧ call.rules.isMuted call.subject = false := by
  have hmuted : call.rules.isMuted call.subject = false := by
    unfold isMuted
    rw [h.muted]
    rfl
  cases call with
  | routeCheck rules account subject failures cause now => exact ⟨h.routeDown, h.recovered, hmuted⟩
  | errorRate rules account subject tunnel hostnames requests errors now =>
      exact ⟨h.errorRate, h.errorRate, hmuted⟩
  | latency rules account subject p95Ms now => exact ⟨h.latency, h.latency, hmuted⟩

/-- A problem's condition and its end's don't hold at once. -/
lemma AlertRules.AllOn.not_ends {call : Call} (h : call.rules.AllOn) (hstart : call.Starts) :
    ¬ call.Ends := by
  cases call with
  | routeCheck rules account subject failures cause now => exact hstart.1
  | errorRate rules account subject tunnel hostnames requests errors now =>
      intro hend
      have hpos : 0 < rules.errorRatePercent := h.errorRatePercent
      exact hend ⟨hstart.1, by linarith [hstart.2]⟩
  | latency rules account subject p95Ms now =>
      rintro ⟨p, hp, hfast⟩
      obtain ⟨p', hp', hslow⟩ := hstart
      obtain rfl := Option.some.inj (hp.symm.trans hp')
      have hpos : (0 : ℚ) < rules.latencyMs := Nat.cast_pos.mpr h.latencyMs
      linarith

/-- With everything on, an end that is reached is told. -/
lemma Outcome.told {call : Call} {out : Option Alert} {e' : AlertEngine}
    (h : Outcome e call out e') (hon : call.rules.AllOn) (hend : call.Ends)
    (hactive : e.active.contains call.key = true) :
    ∃ alert, out = some alert ∧ alert.kind = call.detector.ended := by
  cases h with
  | goesOn _ hnot => exact absurd hend hnot
  | stays hidle => exact absurd (hidle.symm.trans hactive) Bool.false_ne_true
  | endsQuietly _ _ hoff => exact absurd hon.on.2 hoff
  | ends _ _ hfires => exact ⟨_, rfl, hfires.kind⟩
  | starts hidle => exact absurd (hidle.symm.trans hactive) Bool.false_ne_true

/-- With everything on, a problem is told when its condition holds and it isn't active. -/
lemma Outcome.begun {call : Call} {out : Option Alert} {e' : AlertEngine}
    (h : Outcome e call out e') (hon : call.rules.AllOn) (hstart : call.Starts)
    (hidle : e.active.contains call.key = false) :
    ∃ alert, out = some alert ∧ alert.kind = call.detector.problem := by
  cases h with
  | goesOn hactive => exact absurd (hidle.symm.trans hactive) Bool.false_ne_true
  | stays _ hnot => exact absurd ⟨hstart, hon.on.1, hon.on.2.2⟩ hnot
  | endsQuietly hactive => exact absurd (hidle.symm.trans hactive) Bool.false_ne_true
  | ends hactive => exact absurd (hidle.symm.trans hactive) Bool.false_ne_true
  | starts _ _ hfires => exact ⟨_, rfl, hfires.kind⟩

/-- What is open stays open, or its end is told. -/
lemma Recorded.closed {before after : List (Call × Option Alert)} {d : Detector} {s : String}
    (h : Recorded (before ++ after) e) (hon : ∀ entry ∈ after, entry.1.rules.AllOn)
    (hopen : Open before d s) (hclosed : ¬ Open (before ++ after) d s) :
    ∃ entry ∈ after, entry.1.About d s ∧ ∃ alert, entry.2 = some alert ∧ alert.kind = d.ended := by
  induction after using List.reverseRecOn generalizing e with
  | nil => exact absurd (by rwa [List.append_nil]) hclosed
  | append_singleton after entry ih =>
      rw [← List.append_assoc] at h hclosed
      obtain ⟨e', hbefore, hout⟩ := h.at
      by_cases hstill : Open (before ++ after) d s
      · rw [show entry = (entry.1, entry.2) from rfl, open_snoc] at hclosed
        have hends : entry.1.About d s ∧ entry.1.Ends := by
          by_contra hnot
          exact hclosed (.inr ⟨hstill, fun habout hend => hnot ⟨habout, hend⟩⟩)
        obtain ⟨⟨rfl, rfl⟩, hend⟩ := hends
        have houtcome := answer_outcome e' entry.1
        rw [← hout] at houtcome
        refine ⟨entry, by simp, ⟨rfl, rfl⟩, ?_⟩
        exact houtcome.told (hon entry (by simp)) hend ((hbefore.active_iff _ _).mpr hstill)
      · obtain ⟨found, hfound, hended⟩ := ih hbefore (fun x hx =>
          hon x (List.mem_append_left _ hx)) hstill
        exact ⟨found, List.mem_append_left _ hfound, hended⟩

/-- A problem and its end in turn. -/
def InTurn (d : Detector) (alerts : List Alert) : Prop :=
  ∀ i alert, alerts[i]? = some alert → alert.kind = if i % 2 = 0 then d.problem else d.ended

lemma InTurn.snoc {d : Detector} {alerts : List Alert} {alert : Alert} (h : InTurn d alerts)
    (hkind : alert.kind = if alerts.length % 2 = 0 then d.problem else d.ended) :
    InTurn d (alerts ++ [alert]) := by
  intro i a ha
  rcases lt_trichotomy i alerts.length with hlt | rfl | hgt
  · rw [List.getElem?_append_left hlt] at ha
    exact h i a ha
  · rw [List.getElem?_concat_length] at ha
    rw [← Option.some.inj ha]
    exact hkind
  · rw [List.getElem?_eq_none (by simp; omega)] at ha
    exact absurd ha nofun

lemma Recorded.inTurn {hist : List (Call × Option Alert)} (h : Recorded hist e)
    (hon : ∀ entry ∈ hist, entry.1.rules.AllOn) (d : Detector) (s : String) :
    InTurn d (alertsOf hist d s) ∧
      ((alertsOf hist d s).length % 2 = 1 ↔ e.active.contains (d.key s) = true) := by
  induction h with
  | start =>
      refine ⟨fun i alert hnone => absurd hnone (by simp [alertsOf]), ?_⟩
      exact ⟨fun hodd => absurd hodd (by simp [alertsOf]), fun hnone => absurd hnone Bool.false_ne_true⟩
  | @snoc hist e h call ih =>
      obtain ⟨hturn, hodd⟩ := ih fun entry hentry => hon entry (List.mem_append_left _ hentry)
      have hallOn : call.rules.AllOn := hon (call, (e.answer call).1) (by simp)
      have hactive' := (h.snoc call).active_iff d s
      rw [open_snoc, ← h.active_iff d s] at hactive'
      have houtcome := answer_outcome e call
      generalize (e.answer call).1 = out at houtcome hactive' ⊢
      generalize (e.answer call).2 = e' at houtcome hactive' ⊢
      rw [alertsOf_snoc, hactive']
      -- nothing is told of this detector and subject
      have hsame : (out.toList.filter fun alert => alert.Of d s) = [] →
          (¬ ∃ alert, out = some alert ∧ alert.kind = d.problem ∧ call.About d s) →
          (e.active.contains (d.key s) = true → call.About d s → ¬ call.Ends) →
          InTurn d (alertsOf hist d s ++ out.toList.filter fun alert => alert.Of d s) ∧
            ((alertsOf hist d s ++ out.toList.filter fun alert => alert.Of d s).length % 2 = 1 ↔
              (call.About d s ∧ ∃ alert, out = some alert ∧ alert.kind = d.problem) ∨
                e.active.contains (d.key s) = true ∧ (call.About d s → ¬ call.Ends)) := by
        intro hnone hproblem hend
        rw [hnone, List.append_nil]
        refine ⟨hturn, hodd.trans ⟨fun hactive => .inr ⟨hactive, hend hactive⟩, ?_⟩⟩
        rintro (⟨habout, alert, halert, hkind⟩ | ⟨hactive, -⟩)
        · exact absurd ⟨alert, halert, hkind, habout⟩ hproblem
        · exact hactive
      cases out with
      | none =>
          refine hsame rfl (fun ⟨alert, hnone, _⟩ => absurd hnone nofun) ?_
          rintro hactive ⟨rfl, rfl⟩ hend
          obtain ⟨alert, hnone, -⟩ := houtcome.told hallOn hend hactive
          exact absurd hnone nofun
      | some alert =>
          by_cases habout : call.About d s
          · have hof : alert.Of d s := (houtcome.of_iff d s).mpr habout
            have hone : ((some alert).toList.filter fun alert => alert.Of d s) = [alert] := by
              rw [Option.toList_some, List.filter_singleton, decide_eq_true hof]
              rfl
            rw [hone, List.length_append, List.length_singleton]
            obtain ⟨rfl, rfl⟩ := habout
            have hself : call.About call.detector call.subject := ⟨rfl, rfl⟩
            rcases houtcome.kind.1 with ⟨hkind, hstart, hidle⟩ | ⟨hkind, hend, hactive⟩
            · have heven : (alertsOf hist call.detector call.subject).length % 2 = 0 := by
                by_contra hne
                have hactive := hodd.mp (by omega)
                exact Bool.false_ne_true (hidle.symm.trans hactive)
              refine ⟨hturn.snoc (by rw [if_pos heven]; exact hkind), ?_⟩
              exact ⟨fun _ => .inl ⟨hself, alert, rfl, hkind⟩, fun _ => by omega⟩
            · have hodd' := hodd.mpr hactive
              refine ⟨hturn.snoc (by rw [if_neg (by omega)]; exact hkind), ?_⟩
              constructor
              · intro hnow
                omega
              · rintro (⟨-, a, ha, hproblem⟩ | ⟨-, hnot⟩)
                · obtain rfl := Option.some.inj ha
                  exact absurd (hproblem.symm.trans hkind) call.detector.problem_ne_ended
                · exact absurd hend (hnot hself)
          · have hof : ¬ alert.Of d s := fun hof => habout ((houtcome.of_iff d s).mp hof)
            refine hsame ?_ (fun ⟨_, _, _, h⟩ => habout h) fun _ h => absurd h habout
            rw [Option.toList_some, List.filter_singleton, decide_eq_false hof]
            rfl

/-- A problem that was told made it open. -/
lemma Recorded.open_of_starts {before after : List (Call × Option Alert)}
    {entry : Call × Option Alert} {d : Detector} {s : String}
    (h : Recorded (before ++ entry :: after) e) (hon : entry.1.rules.AllOn)
    (habout : entry.1.About d s) (hstart : entry.1.Starts) : Open (before ++ [entry]) d s := by
  obtain ⟨e', hbefore, hout⟩ := h.at
  have houtcome := answer_outcome e' entry.1
  rw [← hout] at houtcome
  rw [show entry = (entry.1, entry.2) from rfl, open_snoc]
  obtain ⟨rfl, rfl⟩ := habout
  cases hactive : e'.active.contains entry.1.key with
  | true => exact .inr ⟨(hbefore.active_iff _ _).mp hactive, fun _ => hon.not_ends hstart⟩
  | false => exact .inl ⟨⟨rfl, rfl⟩, houtcome.begun hon hstart hactive⟩

/-- The condition of a problem holds for the first time since the last end was told. -/
def FirstHolds (before : List (Call × Option Alert)) (call : Call) (d : Detector) (s : String) :
    Prop :=
  call.Starts ∧ ∀ earlier entry between, before = earlier ++ entry :: between →
    entry.1.About d s → entry.1.Starts →
    ∃ later ∈ between, later.1.About d s ∧ ∃ alert, later.2 = some alert ∧ alert.kind = d.ended

lemma Recorded.problem_iff {before after : List (Call × Option Alert)} {call : Call}
    {out : Option Alert} {d : Detector} {s : String}
    (h : Recorded (before ++ (call, out) :: after) e)
    (hon : ∀ entry ∈ before ++ (call, out) :: after, entry.1.rules.AllOn)
    (habout : call.About d s) :
    (∃ alert, out = some alert ∧ alert.kind = d.problem) ↔ FirstHolds before call d s := by
  obtain ⟨e', hbefore, hout⟩ := h.at
  constructor
  · rintro ⟨alert, rfl, hkind⟩
    obtain ⟨hstart, hclosed⟩ := h.problem habout hkind
    refine ⟨hstart, ?_⟩
    rintro earlier entry between rfl habout' hstart'
    have hopen := hbefore.open_of_starts (hon entry (by simp)) habout' hstart'
    rw [show earlier ++ entry :: between = (earlier ++ [entry]) ++ between by simp] at hbefore hclosed
    exact hbefore.closed (fun x hx => hon x (by simp [hx])) hopen hclosed
  · rintro ⟨hstart, hfirst⟩
    have houtcome := answer_outcome e' call
    rw [show (e'.answer call).1 = out from hout.symm] at houtcome
    have hclosed : ¬ Open before d s := by
      rintro ⟨earlier, c, alert, between, rfl, habout', hkind, hgoes⟩
      have hstart' := (hbefore.problem habout' hkind).1
      obtain ⟨later, hlater, habout'', alert', hended, hkind'⟩ :=
        hfirst earlier (c, some alert) between rfl habout' hstart'
      obtain ⟨front, back, rfl⟩ := List.append_of_mem hlater
      have hends : later.1.Ends := by
        obtain ⟨lc, lo⟩ := later
        obtain rfl : lo = some alert' := hended
        rw [show earlier ++ (c, some alert) :: (front ++ (lc, some alert') :: back) =
          (earlier ++ (c, some alert) :: front) ++ (lc, some alert') :: back by simp] at hbefore
        exact (hbefore.ended habout'' hkind').1
      exact hgoes later hlater habout'' hends
    obtain ⟨rfl, rfl⟩ := habout
    have hidle : e'.active.contains call.key = false := by
      rw [← Bool.not_eq_true]
      exact fun hactive => hclosed ((hbefore.active_iff _ _).mp hactive)
    exact houtcome.begun (hon (call, out) (by simp)) hstart hidle

lemma map_answerAll (e : AlertEngine) (calls : List Call) :
    (e.answerAll calls).1.map Prod.fst = calls := by
  induction calls generalizing e with
  | nil => rfl
  | cons call calls ih => exact congrArg (call :: ·) (ih _)

/-- Whatever the rules are at each call, an end is told only of a problem that is open, two
problems have the condition of an end between them, and notifications about a subject are apart.
With everything on and the rules fixed, problems and ends come in turn, and a problem is told when
its condition first holds after the last end. -/
theorem alerts_inTurn (calls : List Call) (d : Detector) (s : String) :
    let hist := (new.answerAll calls).1
    (∀ before call alert after, hist = before ++ (call, some alert) :: after → call.About d s →
        alert.kind = d.ended → Open before d s) ∧
      (∀ before call alert between call' alert' after,
        hist = before ++ (call, some alert) :: (between ++ (call', some alert') :: after) →
        call.About d s → alert.kind = d.problem → call'.About d s → alert'.kind = d.problem →
        ∃ entry ∈ between, entry.1.About d s ∧ entry.1.Ends) ∧
      ((hist.filterMap Prod.snd).Pairwise fun a b => a.subject = b.subject → a.notify = true →
        b.notify = true → COOLDOWN_MS ≤ b.raisedAt - a.raisedAt) ∧
      ∀ rules : AlertRules, rules.AllOn → (∀ call ∈ calls, call.rules = rules) →
        InTurn d (alertsOf hist d s) ∧
          ∀ before call out after, hist = before ++ (call, out) :: after → call.About d s →
            ((∃ alert, out = some alert ∧ alert.kind = d.problem) ↔
              FirstHolds before call d s) := by
  intro hist
  have hrecorded : Recorded hist (new.answerAll calls).2 := recorded_answerAll calls
  refine ⟨?_, ?_, hrecorded.apart.apart, ?_⟩
  · intro before call alert after heq habout hkind
    rw [heq] at hrecorded
    exact (hrecorded.ended habout hkind).2
  · intro before call alert between call' alert' after heq habout hkind habout' hkind'
    rw [heq, ← List.cons_append, ← List.append_assoc] at hrecorded
    have hclosed := (hrecorded.problem habout' hkind').2
    by_contra hnone
    refine hclosed ⟨before, call, alert, between, rfl, habout, hkind, ?_⟩
    exact fun entry hentry hof hend => hnone ⟨entry, hentry, hof, hend⟩
  · intro rules hon hrules
    have hall : ∀ entry ∈ hist, entry.1.rules.AllOn := by
      intro entry hentry
      have hmem : entry.1 ∈ calls := by
        rw [← map_answerAll new calls]
        exact List.mem_map_of_mem hentry
      rw [hrules entry.1 hmem]
      exact hon
    refine ⟨(hrecorded.inTurn hall d s).1, ?_⟩
    intro before call out after heq habout
    rw [heq] at hrecorded hall
    exact hrecorded.problem_iff hall habout

/-- The rules with everything on. -/
def allOn : AlertRules where
  routeDown := true
  downAfter := 3
  recovered := true
  errorRate := true
  errorRatePercent := 5
  errorRateMinutes := 10
  minRequests := 20
  latency := true
  latencyMs := 3000
  latencyMinutes := 10
  muted := []

/-- A route that goes down and comes back. -/
def outage : List Call :=
  [.routeCheck allOn "acc" "a.x.com" 3 none 120000, .routeCheck allOn "acc" "a.x.com" 0 none 600000]

/-- The alerts of an outage. -/
theorem alerts_inTurn_outage :
    InTurn .down (alertsOf (new.answerAll outage).1 .down "a.x.com") := by
  have hon : allOn.AllOn := ⟨rfl, rfl, rfl, rfl, rfl, by decide, by norm_num [allOn], by decide⟩
  have hrules : ∀ call ∈ outage, call.rules = allOn := by
    intro call hcall
    rcases List.mem_cons.mp hcall with rfl | hcall
    · rfl
    · rw [List.mem_singleton.mp hcall]
      rfl
  exact ((alerts_inTurn outage .down "a.x.com").2.2.2 allOn hon hrules).1

end Teitunnel.Uptime
