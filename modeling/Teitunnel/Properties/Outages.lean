import Teitunnel.Lib.Lists
import Teitunnel.Lib.Runs
import Teitunnel.Uptime.Monitor

/-!
# Outages and checks agree

A monitor decides by the failures that it has counted itself, or by the incidents it found open.
When that is what the recorded checks say, whichever process recorded them, every tick leaves an
open incident exactly for the routes whose last two checks failed.
-/

namespace Teitunnel.Uptime

open Runs

/-- A recorded check of a route. -/
structure Check where
  ok : Bool
  time : Time
deriving DecidableEq

/-- The checks of a route since it last left the targets, the oldest first. -/
def recent (key : String) (log : List Event) : List Check :=
  log.foldl (fun checks event =>
    match event with
    | .checked route outcome time =>
        if route = key then checks ++ [⟨outcome.ok, time⟩] else checks
    | .ticked keys _ => if key ∈ keys then checks else []) []

/-- The failed checks at the end. -/
def failing (checks : List Check) : List Check := checks.rtakeWhile fun check => !check.ok

def LastTwoFailed (checks : List Check) : Prop :=
  ∃ pre a b, checks = pre ++ [a, b] ∧ a.ok = false ∧ b.ok = false

/-- An incident is open exactly when the last two checks failed, and it began at the first of
the failed checks at the end. -/
def OpenWhenFailing (db : Database) : Prop :=
  ∀ key, ((∃ i ∈ db.incidents, i.route.key = key ∧ i.endedAt = none) ↔
      LastTwoFailed (recent key db.log)) ∧
    ∀ i ∈ db.incidents, i.route.key = key → i.endedAt = none →
      ∃ first, (failing (recent key db.log)).head? = some first ∧ first.time = i.startedAt

/-- Of two incidents of a route the first has ended when the other begins. -/
def NoOverlap (db : Database) : Prop :=
  db.incidents.Pairwise fun i j => i.route.key = j.route.key →
    ∃ ended, i.endedAt = some ended ∧ ended ≤ j.startedAt

/-- A tracker knows the open incidents, and otherwise the failures at the end of the checks. -/
structure Agrees (tracker : Tracker) (db : Database) : Prop where
  incident : ∀ key, (tracker.track key).incident = true ↔
    db.incidents.any (Database.isOpen key) = true
  failures : ∀ key, (tracker.track key).incident = false →
    (tracker.track key).failures = (failing (recent key db.log)).length
  first : ∀ key check, (tracker.track key).incident = false →
    (failing (recent key db.log)).head? = some check → (tracker.track key).firstFailure = check.time

namespace Monitors

/-- A tick that records anything has a tracker that agrees with what was recorded, and comes no
earlier than the ticks before it. -/
def Careful (s : Monitors) : Step → Prop
  | .tick i now true _ => ∀ monitor, s.monitors[i]? = some monitor →
      (s.database.claim monitor.owner now (3 * INTERVAL_MS)).2 = true →
        Agrees (trackerOf s.database monitor) s.database ∧
          ∀ keys time, .ticked keys time ∈ s.database.log → time ≤ now
  | _ => True

end Monitors

variable {db : Database} {tracker : Tracker} {key key' : String} {now : Time}

/-! ## The checks of a route -/

lemma recent_checked (key route : String) (outcome : CheckOutcome) (time : Time)
    (log : List Event) : recent key (log ++ [.checked route outcome time]) =
      if route = key then recent key log ++ [⟨outcome.ok, time⟩] else recent key log := by
  rw [recent, List.foldl_append]
  rfl

lemma recent_ticked (key : String) (keys : List String) (time : Time) (log : List Event) :
    recent key (log ++ [.ticked keys time]) = if key ∈ keys then recent key log else [] := by
  rw [recent, List.foldl_append]
  rfl

lemma failing_snoc (checks : List Check) (check : Check) :
    failing (checks ++ [check]) = if check.ok then [] else failing checks ++ [check] := by
  rw [failing, List.rtakeWhile_concat]
  cases check.ok <;> rfl

lemma failing_nil : failing [] = [] := rfl

/-- The last two checks failed when at least two failed at the end. -/
lemma lastTwoFailed_iff {checks : List Check} :
    LastTwoFailed checks ↔ 2 ≤ (failing checks).length := by
  rcases List.eq_nil_or_concat checks with rfl | ⟨front, b, rfl⟩
  · constructor
    · rintro ⟨pre, a, b, heq, -⟩
      simp at heq
    · intro h
      rw [failing_nil] at h
      simp at h
  rw [List.concat_eq_append, failing_snoc]
  rcases List.eq_nil_or_concat front with rfl | ⟨pre, a, rfl⟩
  · constructor
    · rintro ⟨pre, a, b', heq, -⟩
      have hlength := congrArg List.length heq
      simp at hlength
    · intro h
      split_ifs at h
      · simp at h
      · simp [failing_nil] at h
  rw [List.concat_eq_append, failing_snoc]
  constructor
  · rintro ⟨pre', a', b', heq, ha, hb⟩
    have heq' : (pre ++ [a]) ++ [b] = (pre' ++ [a']) ++ [b'] := by simpa using heq
    obtain ⟨hfront, hlast⟩ := List.append_inj' heq' rfl
    obtain ⟨-, hlast'⟩ := List.append_inj' hfront rfl
    obtain rfl := List.singleton_inj.mp hlast
    obtain rfl := List.singleton_inj.mp hlast'
    simp [ha, hb]
  · intro h
    cases hb : b.ok with
    | true => simp [hb] at h
    | false =>
        cases ha : a.ok with
        | true => simp [ha, hb] at h
        | false => exact ⟨pre, a, b, by simp, ha, hb⟩

/-! ## Incidents -/

lemma isOpen_iff {i : Incident} :
    Database.isOpen key i = true ↔ i.route.key = key ∧ i.endedAt = none := by
  simp [Database.isOpen]

/-- At most one incident of a route is open. -/
lemma NoOverlap.open_le_one (h : NoOverlap db) (key : String) :
    (db.incidents.filter (Database.isOpen key)).length ≤ 1 := by
  have hfalse : (db.incidents.filter (Database.isOpen key)).Pairwise fun _ _ => False := by
    refine (List.Pairwise.and_mem.mp (h.filter _)).imp ?_
    rintro i j ⟨hi, hj, hended⟩
    obtain ⟨hikey, hiopen⟩ := isOpen_iff.mp (List.mem_filter.mp hi).2
    obtain ⟨hjkey, -⟩ := isOpen_iff.mp (List.mem_filter.mp hj).2
    obtain ⟨ended, hsome, -⟩ := hended (hikey.trans hjkey.symm)
    rw [hiopen] at hsome
    cases hsome
  rcases hlist : db.incidents.filter (Database.isOpen key) with _ | ⟨i, _ | ⟨j, rest⟩⟩
  · exact Nat.zero_le _
  · exact le_rfl
  · rw [hlist, List.pairwise_cons] at hfalse
    exact (hfalse.1 j List.mem_cons_self).elim

/-- The incident with its end, when it is an open one of these routes. -/
def ending (keys : List String) (time : Time) (i : Incident) : Incident :=
  if i.endedAt = none ∧ i.route.key ∈ keys then { i with endedAt := some time } else i

lemma ending_key (keys : List String) (time : Time) (i : Incident) :
    (ending keys time i).route.key = i.route.key := by
  rw [ending]
  split_ifs <;> rfl

lemma ending_startedAt (keys : List String) (time : Time) (i : Incident) :
    (ending keys time i).startedAt = i.startedAt := by
  rw [ending]
  split_ifs <;> rfl

/-- An incident stays open when it was open and is of another route. -/
lemma ending_open {keys : List String} {time : Time} {i : Incident} :
    (ending keys time i).endedAt = none ↔ i.endedAt = none ∧ i.route.key ∉ keys := by
  rw [ending]
  split_ifs with h
  · simp [h.2]
  · constructor
    · exact fun hopen => ⟨hopen, fun hmem => h ⟨hopen, hmem⟩⟩
    · exact fun hopen => hopen.1

lemma ending_ended {keys : List String} {time ended : Time} {i : Incident}
    (h : (ending keys time i).endedAt = some ended) :
    i.endedAt = some ended ∨ (i.endedAt = none ∧ i.route.key ∈ keys ∧ ended = time) := by
  rw [ending] at h
  split_ifs at h with hopen
  · exact .inr ⟨hopen.1, hopen.2, (Option.some.inj h).symm⟩
  · exact .inl h

/-- Ending incidents leaves no overlap. -/
lemma NoOverlap.ending (h : NoOverlap db) (keys : List String) (time : Time) :
    NoOverlap { db with incidents := db.incidents.map (ending keys time) } := by
  refine List.pairwise_map.mpr (h.imp fun {i j} hij hkey => ?_)
  rw [ending_key, ending_key] at hkey
  obtain ⟨ended, hsome, hle⟩ := hij hkey
  refine ⟨ended, ?_, by rw [ending_startedAt]; exact hle⟩
  rw [Uptime.ending, if_neg (by rw [hsome]; simp)]
  exact hsome

/-- The close of an incident. -/
lemma closeIncident_eq (h : NoOverlap db) (key : String) (time : Time) :
    db.closeIncident key time = { db with incidents := db.incidents.map (ending [key] time) } := by
  rw [Database.closeIncident, List.modifyFirst_eq_map (h.open_le_one key)]
  congr 1
  refine List.map_congr_left fun i _ => ?_
  rw [Uptime.ending]
  refine if_congr ?_ rfl rfl
  rw [isOpen_iff, List.mem_singleton, and_comm]

/-- The close of several routes' incidents. -/
lemma foldl_closeIncident (h : NoOverlap db) (keys : List String) (time : Time) :
    keys.foldl (fun db key => db.closeIncident key time) db =
      { db with incidents := db.incidents.map (ending keys time) } := by
  induction keys generalizing db with
  | nil =>
      have hid : db.incidents.map (ending [] time) = db.incidents := by
        refine (List.map_congr_left fun i _ => ?_).trans (List.map_id _)
        rw [Uptime.ending, if_neg (by simp)]
        rfl
      rw [hid]
      rfl
  | cons key keys ih =>
      rw [List.foldl_cons, closeIncident_eq h, ih (h.ending [key] time)]
      simp only [List.map_map]
      congr 1
      refine List.map_congr_left fun i _ => ?_
      simp only [Function.comp_apply, Uptime.ending, List.mem_cons]
      split_ifs <;> simp_all

/-! ## What a tick keeps -/

/-- What holds of the database at `now`, between two results of a tick. -/
structure Orderly (db : Database) (now : Time) : Prop where
  opens : ∀ key, db.incidents.any (Database.isOpen key) = true ↔
    2 ≤ (failing (recent key db.log)).length
  started : ∀ i ∈ db.incidents, i.endedAt = none →
    ∃ first, (failing (recent i.route.key db.log)).head? = some first ∧ first.time = i.startedAt
  apart : NoOverlap db
  ended : ∀ i ∈ db.incidents, ∀ ended, i.endedAt = some ended → ended ≤ now ∧
    ∀ first, (failing (recent i.route.key db.log)).head? = some first → ended ≤ first.time

lemma any_isOpen {incidents : List Incident} :
    incidents.any (Database.isOpen key) = true ↔
      ∃ i ∈ incidents, i.route.key = key ∧ i.endedAt = none := by
  rw [List.any_eq_true]
  exact exists_congr fun i => and_congr_right fun _ => isOpen_iff

/-- Some routes' incidents end, whose failures are over; the others' checks stay. -/
structure Over (db : Database) (keys : List String) (log : List Event) (key : String) : Prop where
  failing : failing (recent key log) = []
  open' : key ∈ keys ∨ db.incidents.any (Database.isOpen key) = false

lemma Orderly.close (h : Orderly db now) (keys : List String) (log : List Event)
    (hlog : ∀ key, Over db keys log key ∨
      (failing (recent key log) = failing (recent key db.log) ∧ key ∉ keys)) :
    Orderly { db with incidents := db.incidents.map (ending keys now), log } now where
  opens key := by
    rw [any_isOpen]
    constructor
    · rintro ⟨i', hi', hkey, hopen⟩
      obtain ⟨i, hi, rfl⟩ := List.mem_map.mp hi'
      rw [ending_key] at hkey
      obtain ⟨hopen', hnot⟩ := ending_open.mp hopen
      rw [hkey] at hnot
      have hany : db.incidents.any (Database.isOpen key) = true :=
        any_isOpen.mpr ⟨i, hi, hkey, hopen'⟩
      rcases hlog key with hover | ⟨heq, -⟩
      · rcases hover.open' with hmem | hnone
        · exact absurd hmem hnot
        · rw [hany] at hnone
          cases hnone
      · rw [heq]
        exact (h.opens key).mp hany
    · intro hlength
      rcases hlog key with hover | ⟨heq, hnot⟩
      · rw [hover.failing] at hlength
        simp at hlength
      · rw [heq] at hlength
        obtain ⟨i, hi, hkey, hopen⟩ := any_isOpen.mp ((h.opens key).mpr hlength)
        refine ⟨ending keys now i, List.mem_map.mpr ⟨i, hi, rfl⟩, by rw [ending_key]; exact hkey, ?_⟩
        exact ending_open.mpr ⟨hopen, by rw [hkey]; exact hnot⟩
  started i' hi' hopen := by
    obtain ⟨i, hi, rfl⟩ := List.mem_map.mp hi'
    rw [ending_key, ending_startedAt]
    obtain ⟨hopen', hnot⟩ := ending_open.mp hopen
    rcases hlog i.route.key with hover | ⟨heq, -⟩
    · rcases hover.open' with hmem | hnone
      · exact absurd hmem hnot
      · rw [any_isOpen.mpr ⟨i, hi, rfl, hopen'⟩] at hnone
        cases hnone
    · rw [heq]
      exact h.started i hi hopen'
  apart := h.apart.ending keys now
  ended i' hi' ended hended := by
    obtain ⟨i, hi, rfl⟩ := List.mem_map.mp hi'
    rw [ending_key]
    rcases ending_ended hended with hold | ⟨-, hmem, rfl⟩
    · refine ⟨(h.ended i hi ended hold).1, fun first hfirst => ?_⟩
      rcases hlog i.route.key with hover | ⟨heq, -⟩
      · rw [hover.failing] at hfirst
        cases hfirst
      · rw [heq] at hfirst
        exact (h.ended i hi ended hold).2 first hfirst
    · refine ⟨le_rfl, fun first hfirst => ?_⟩
      rcases hlog i.route.key with hover | ⟨-, hnot⟩
      · rw [hover.failing] at hfirst
        cases hfirst
      · exact absurd hmem hnot

/-- The tracks of the routes whose failures are over are new, the others stay. -/
lemma Agrees.close (hagrees : Agrees tracker db) (h : Orderly db now) (keys : List String)
    (log : List Event) {tracker' : Tracker}
    (hlog : ∀ key, (Over db keys log key ∧ tracker'.track key = {}) ∨
      ((failing (recent key log) = failing (recent key db.log) ∧ key ∉ keys) ∧
        tracker'.track key = tracker.track key)) :
    Agrees tracker' { db with incidents := db.incidents.map (ending keys now), log } := by
  have hclosed := h.close keys log fun key => (hlog key).imp And.left And.left
  refine ⟨fun key => ?_, fun key hincident => ?_, fun key check hincident hfirst => ?_⟩
  · rw [hclosed.opens key]
    rcases hlog key with ⟨hover, htrack⟩ | ⟨⟨heq, -⟩, htrack⟩
    · rw [htrack, hover.failing]
      simp
    · rw [htrack, heq, ← h.opens key]
      exact hagrees.incident key
  · rcases hlog key with ⟨hover, htrack⟩ | ⟨⟨heq, -⟩, htrack⟩
    · rw [htrack, hover.failing]
      rfl
    · rw [htrack] at hincident ⊢
      rw [heq]
      exact hagrees.failures key hincident
  · rcases hlog key with ⟨hover, -⟩ | ⟨⟨heq, -⟩, htrack⟩
    · rw [hover.failing] at hfirst
      cases hfirst
    · rw [htrack] at hincident ⊢
      rw [heq] at hfirst
      exact hagrees.first key check hincident hfirst

/-- A check of another route leaves the failures of a route alone. -/
lemma failing_checked_of_ne {outcome : CheckOutcome} {time : Time} {log : List Event}
    (h : key' ≠ key) : failing (recent key' (log ++ [.checked key outcome time])) =
      failing (recent key' log) := by
  rw [recent_checked, if_neg (Ne.symm h)]

lemma failing_checked_ok {outcome : CheckOutcome} {time : Time} {log : List Event}
    (h : outcome.ok = true) : failing (recent key (log ++ [.checked key outcome time])) = [] := by
  rw [recent_checked, if_pos rfl, failing_snoc, if_pos h]

lemma failing_checked_failed {outcome : CheckOutcome} {time : Time} {log : List Event}
    (h : outcome.ok = false) : failing (recent key (log ++ [.checked key outcome time])) =
      failing (recent key log) ++ [⟨false, time⟩] := by
  rw [recent_checked, if_pos rfl, failing_snoc, h]
  rfl

/-- Nothing ends where nothing is open. -/
lemma map_ending_of_none {incidents : List Incident}
    (h : incidents.any (Database.isOpen key) = false) (time : Time) :
    incidents.map (ending [key] time) = incidents := by
  refine (List.map_congr_left fun i hi => ?_).trans (List.map_id _)
  rw [Uptime.ending, if_neg]
  · rfl
  · rintro ⟨hopen, hmem⟩
    have hany := any_isOpen.mpr ⟨i, hi, List.mem_singleton.mp hmem, hopen⟩
    rw [h] at hany
    cases hany

/-- A check that passed closes the route's incident, whoever opened it. -/
lemma check_passed (h : Orderly db now) (hagrees : Agrees tracker db) {target : Target}
    {outcome : CheckOutcome} (hok : outcome.ok = true) (resumed : Bool) :
    Orderly (check resumed now db tracker (target, outcome)).1 now ∧
      Agrees (check resumed now db tracker (target, outcome)).2
        (check resumed now db tracker (target, outcome)).1 := by
  obtain ⟨htrack, htransition⟩ := Tracker.record_ok tracker target.key now hok
  have hdb : (check resumed now db tracker (target, outcome)).1 =
      { db with
        incidents := db.incidents.map (ending [target.key] now)
        log := db.log ++ [.checked target.key outcome now] } := by
    simp only [check, hok, Bool.not_true, Bool.and_false, Bool.false_eq_true, if_false]
    rw [htransition]
    cases hincident : (tracker.track target.key).incident with
    | true =>
        have happart : NoOverlap (db.record target.key now outcome) := h.apart
        exact closeIncident_eq happart target.key now
    | false =>
        have hnone : db.incidents.any (Database.isOpen target.key) = false := by
          rw [Bool.eq_false_iff]
          intro hany
          rw [(hagrees.incident target.key).mpr hany] at hincident
          cases hincident
        rw [map_ending_of_none hnone]
        rfl
  have htracker : (check resumed now db tracker (target, outcome)).2 =
      (tracker.record target.key outcome now).1 := by
    simp only [check, hok, Bool.not_true, Bool.and_false, Bool.false_eq_true, if_false]
    split <;> rfl
  have hlog : ∀ key, (Over db [target.key] (db.log ++ [.checked target.key outcome now]) key ∧
      (tracker.record target.key outcome now).1.track key = {}) ∨
        ((failing (recent key (db.log ++ [.checked target.key outcome now])) =
          failing (recent key db.log) ∧ key ∉ [target.key]) ∧
            (tracker.record target.key outcome now).1.track key = tracker.track key) := by
    intro key
    by_cases hkey : key = target.key
    · subst hkey
      exact .inl ⟨⟨failing_checked_ok hok, .inl List.mem_cons_self⟩, htrack⟩
    · exact .inr ⟨⟨failing_checked_of_ne hkey, by simpa using hkey⟩, Tracker.record_of_ne hkey⟩
  rw [hdb, htracker]
  exact ⟨h.close _ _ fun key => (hlog key).imp And.left And.left, hagrees.close h _ _ hlog⟩

/-- A failed check, when no incident is opened. -/
lemma Orderly.failed (h : Orderly db now) {key : String} {outcome : CheckOutcome}
    (hok : outcome.ok = false)
    (hlength : (failing (recent key db.log)).length = 0 ∨
      2 ≤ (failing (recent key db.log)).length) :
    Orderly (db.record key now outcome) now where
  opens key' := by
    show db.incidents.any (Database.isOpen key') = true ↔
      2 ≤ (failing (recent key' (db.log ++ [.checked key outcome now]))).length
    rw [h.opens key']
    by_cases hkey : key' = key
    · subst hkey
      rw [failing_checked_failed hok, List.length_append, List.length_singleton]
      omega
    · rw [failing_checked_of_ne hkey]
  started i hi hopen := by
    obtain ⟨first, hfirst, htime⟩ := h.started i hi hopen
    show ∃ first, (failing (recent i.route.key (db.log ++ [.checked key outcome now]))).head? =
      some first ∧ first.time = i.startedAt
    by_cases hkey : i.route.key = key
    · rw [hkey] at hfirst ⊢
      rw [failing_checked_failed hok, List.head?_append, hfirst]
      exact ⟨first, rfl, htime⟩
    · rw [failing_checked_of_ne hkey]
      exact ⟨first, hfirst, htime⟩
  apart := h.apart
  ended i hi ended hended := by
    obtain ⟨hnow, hold⟩ := h.ended i hi ended hended
    refine ⟨hnow, fun first hfirst => ?_⟩
    have hfirst' : (failing (recent i.route.key (db.log ++ [.checked key outcome now]))).head? =
      some first := hfirst
    by_cases hkey : i.route.key = key
    · rw [hkey] at hfirst' hold
      rw [failing_checked_failed hok, List.head?_append] at hfirst'
      cases hhead : (failing (recent key db.log)).head? with
      | none =>
          rw [hhead] at hfirst'
          obtain rfl := Option.some.inj hfirst'
          exact hnow
      | some old =>
          rw [hhead] at hfirst'
          obtain rfl := Option.some.inj hfirst'
          exact hold old hhead
    · rw [failing_checked_of_ne hkey] at hfirst'
      exact hold first hfirst'

/-- The second failed check opens the route's incident. -/
lemma Orderly.opened (h : Orderly db now) {target : Target} {outcome : CheckOutcome}
    {first : Check} (hok : outcome.ok = false)
    (hfailing : failing (recent target.key db.log) = [first]) (cause : Cause) :
    Orderly ((db.record target.key now outcome).openIncident target first.time cause) now ∧
      ((db.record target.key now outcome).openIncident target first.time cause).log =
        db.log ++ [.checked target.key outcome now] := by
  have hnone : db.incidents.any (Database.isOpen target.key) = false := by
    rw [Bool.eq_false_iff]
    intro hany
    have hlength := (h.opens target.key).mp hany
    rw [hfailing] at hlength
    simp at hlength
  set new : Incident := ⟨target.accountId, target.route, first.time, none, cause⟩
  have hopen : (db.record target.key now outcome).openIncident target first.time cause =
      { db with
        incidents := db.incidents ++ [new]
        log := db.log ++ [.checked target.key outcome now] } := by
    rw [Database.openIncident, if_neg (by
      show ¬ db.incidents.any (Database.isOpen target.key) = true
      rw [hnone]
      exact Bool.false_ne_true)]
    rfl
  have hfailing' : failing (recent target.key (db.log ++ [.checked target.key outcome now])) =
      [first, ⟨false, now⟩] := by
    rw [failing_checked_failed hok, hfailing]
    rfl
  rw [hopen]
  refine ⟨⟨fun key => ?_, fun i hi hopen' => ?_, ?_, fun i hi ended hended => ?_⟩, rfl⟩
  · show (db.incidents ++ [new]).any (Database.isOpen key) = true ↔
      2 ≤ (failing (recent key (db.log ++ [.checked target.key outcome now]))).length
    rw [List.any_append, Bool.or_eq_true, h.opens key]
    by_cases hkey : key = target.key
    · subst hkey
      rw [hfailing']
      constructor
      · exact fun _ => le_rfl
      · intro _
        exact .inr (any_isOpen.mpr ⟨new, List.mem_cons_self, rfl, rfl⟩)
    · rw [failing_checked_of_ne hkey]
      constructor
      · rintro (hlength | hany)
        · exact hlength
        · obtain ⟨i, hi, hkey', -⟩ := any_isOpen.mp hany
          rw [List.mem_singleton.mp hi] at hkey'
          exact absurd hkey'.symm hkey
      · exact .inl
  · show ∃ first, (failing (recent i.route.key
      (db.log ++ [.checked target.key outcome now]))).head? = some first ∧ first.time = i.startedAt
    rcases List.mem_append.mp hi with hold | hlast
    · have hkey : i.route.key ≠ target.key := by
        intro hkey
        rw [any_isOpen.mpr ⟨i, hold, hkey, hopen'⟩] at hnone
        cases hnone
      rw [failing_checked_of_ne hkey]
      exact h.started i hold hopen'
    · rw [List.mem_singleton.mp hlast]
      have hfailing'' : failing (recent new.route.key
        (db.log ++ [.checked target.key outcome now])) = [first, ⟨false, now⟩] := hfailing'
      rw [hfailing'']
      exact ⟨first, rfl, rfl⟩
  · refine List.pairwise_append.mpr ⟨h.apart, List.pairwise_singleton _ _, fun i hi j hj hkey => ?_⟩
    obtain rfl := List.mem_singleton.mp hj
    have hkey' : i.route.key = target.key := hkey
    cases hended : i.endedAt with
    | none =>
        rw [any_isOpen.mpr ⟨i, hi, hkey', hended⟩] at hnone
        cases hnone
    | some ended =>
        refine ⟨ended, rfl, (h.ended i hi ended hended).2 first ?_⟩
        rw [hkey', hfailing]
        rfl
  · rcases List.mem_append.mp hi with hold | hlast
    · obtain ⟨hnow, hle⟩ := h.ended i hold ended hended
      refine ⟨hnow, fun first' hfirst => ?_⟩
      have hfirst' : (failing (recent i.route.key
        (db.log ++ [.checked target.key outcome now]))).head? = some first' := hfirst
      by_cases hkey : i.route.key = target.key
      · rw [hkey] at hfirst' hle
        rw [hfailing'] at hfirst'
        exact hle first' (by rw [hfailing]; exact hfirst')
      · rw [failing_checked_of_ne hkey] at hfirst'
        exact hle first' hfirst'
    · rw [List.mem_singleton.mp hlast] at hended
      cases hended

/-- A tracker agrees with what it recorded, when it knows the route's incident or its
failures. -/
lemma Agrees.checked (hagrees : Agrees tracker db) {db' : Database} {outcome : CheckOutcome}
    (hlog : db'.log = db.log ++ [.checked key outcome now])
    (hothers : ∀ key', key' ≠ key → (db'.incidents.any (Database.isOpen key') = true ↔
      db.incidents.any (Database.isOpen key') = true))
    (hincident : ((tracker.record key outcome now).1.track key).incident = true ↔
      db'.incidents.any (Database.isOpen key) = true)
    (hfailures : ((tracker.record key outcome now).1.track key).incident = false →
      ((tracker.record key outcome now).1.track key).failures =
          (failing (recent key db'.log)).length ∧
        ∀ check, (failing (recent key db'.log)).head? = some check →
          ((tracker.record key outcome now).1.track key).firstFailure = check.time) :
    Agrees (tracker.record key outcome now).1 db' := by
  refine ⟨fun key' => ?_, fun key' hfalse => ?_, fun key' check hfalse hfirst => ?_⟩ <;>
    by_cases hkey : key' = key
  · subst hkey
    exact hincident
  · rw [Tracker.record_of_ne hkey, hothers key' hkey]
    exact hagrees.incident key'
  · subst hkey
    exact (hfailures hfalse).1
  · rw [Tracker.record_of_ne hkey] at hfalse ⊢
    rw [hlog, failing_checked_of_ne hkey]
    exact hagrees.failures key' hfalse
  · subst hkey
    exact (hfailures hfalse).2 check hfirst
  · rw [Tracker.record_of_ne hkey] at hfalse ⊢
    rw [hlog, failing_checked_of_ne hkey] at hfirst
    exact hagrees.first key' check hfalse hfirst

/-- A failed check counts, and opens an incident when it is the second. -/
lemma check_failed (h : Orderly db now) (hagrees : Agrees tracker db) {target : Target}
    {outcome : CheckOutcome} (hok : outcome.ok = false) :
    Orderly (check false now db tracker (target, outcome)).1 now ∧
      Agrees (check false now db tracker (target, outcome)).2
        (check false now db tracker (target, outcome)).1 := by
  have htracker : (check false now db tracker (target, outcome)).2 =
      (tracker.record target.key outcome now).1 := by
    simp only [check, Bool.false_and, Bool.false_eq_true, if_false]
    split <;> rfl
  have hlog : (db.record target.key now outcome).log =
      db.log ++ [.checked target.key outcome now] := rfl
  cases hincident : (tracker.track target.key).incident with
  | true =>
      obtain ⟨hstays, htransition⟩ := Tracker.record_open now hok hincident
      have hdb : (check false now db tracker (target, outcome)).1 =
          db.record target.key now outcome := by
        simp only [check, Bool.false_and, Bool.false_eq_true, if_false]
        rw [htransition]
      have hany := (hagrees.incident target.key).mp hincident
      rw [htracker, hdb]
      refine ⟨h.failed hok (.inr ((h.opens target.key).mp hany)),
        hagrees.checked hlog (fun _ _ => Iff.rfl) ?_ fun hfalse => ?_⟩
      · exact ⟨fun _ => hany, fun _ => hstays⟩
      · rw [hstays] at hfalse
        cases hfalse
  | false =>
      have hfailures := hagrees.failures target.key hincident
      have hnone : db.incidents.any (Database.isOpen target.key) = false := by
        rw [Bool.eq_false_iff]
        intro hany
        rw [(hagrees.incident target.key).mpr hany] at hincident
        cases hincident
      have hfew : (failing (recent target.key db.log)).length < 2 := by
        by_contra hmany
        rw [(h.opens target.key).mpr (not_lt.mp hmany)] at hnone
        cases hnone
      rcases hrun : failing (recent target.key db.log) with _ | ⟨first, _ | ⟨second, rest⟩⟩
      · rw [hrun] at hfailures
        obtain ⟨htrack, htransition⟩ := Tracker.record_first now hok hfailures hincident
        have hdb : (check false now db tracker (target, outcome)).1 =
            db.record target.key now outcome := by
          simp only [check, Bool.false_and, Bool.false_eq_true, if_false]
          rw [htransition]
        rw [htracker, hdb]
        refine ⟨h.failed hok (.inl (by rw [hrun]; rfl)),
          hagrees.checked hlog (fun _ _ => Iff.rfl) ?_ fun _ => ?_⟩
        · rw [htrack]
          constructor
          · intro hfalse
            cases hfalse
          · intro hany
            have hany' : db.incidents.any (Database.isOpen target.key) = true := hany
            rw [hnone] at hany'
            cases hany'
        · rw [htrack, hlog, failing_checked_failed hok, hrun]
          refine ⟨rfl, fun check hcheck => ?_⟩
          obtain rfl := Option.some.inj hcheck
          rfl
      · rw [hrun] at hfailures
        obtain ⟨hopens, cause, htransition⟩ := Tracker.record_second now hok hfailures
          hincident
        have hfirst := hagrees.first target.key first hincident (by rw [hrun]; rfl)
        have hdb : (check false now db tracker (target, outcome)).1 =
            (db.record target.key now outcome).openIncident target first.time cause := by
          simp only [check, Bool.false_and, Bool.false_eq_true, if_false]
          rw [htransition, hfirst]
        obtain ⟨hopened, hopenlog⟩ := h.opened hok hrun cause
        rw [htracker, hdb]
        refine ⟨hopened, hagrees.checked hopenlog (fun key' hkey => ?_) ?_ fun hfalse => ?_⟩
        · rw [hopened.opens key', hopenlog, failing_checked_of_ne hkey, h.opens key']
        · rw [hopened.opens target.key, hopenlog, failing_checked_failed hok, hrun]
          exact ⟨fun _ => le_rfl, fun _ => hopens⟩
        · rw [hopens] at hfalse
          cases hfalse
      · rw [hrun] at hfew
        simp at hfew

/-- Whatever a tick finds of a target. -/
lemma check_kept (h : Orderly db now) (hagrees : Agrees tracker db) (resumed : Bool)
    (result : Target × CheckOutcome) :
    Orderly (check resumed now db tracker result).1 now ∧
      Agrees (check resumed now db tracker result).2 (check resumed now db tracker result).1 := by
  obtain ⟨target, outcome⟩ := result
  cases hok : outcome.ok with
  | true => exact check_passed h hagrees hok resumed
  | false =>
      cases resumed with
      | false => exact check_failed h hagrees hok
      | true =>
          rw [check]
          simp only [hok, Bool.not_false, Bool.and_true, if_true]
          exact ⟨h, hagrees⟩

/-! ## Ticks -/

lemma foldl_check (resumed : Bool) (results : List (Target × CheckOutcome))
    (h : Orderly db now) (hagrees : Agrees tracker db) :
    Orderly (results.foldl (fun (db, tracker) result => check resumed now db tracker result)
        (db, tracker)).1 now ∧
      Agrees (results.foldl (fun (db, tracker) result => check resumed now db tracker result)
          (db, tracker)).2
        (results.foldl (fun (db, tracker) result => check resumed now db tracker result)
          (db, tracker)).1 := by
  induction results generalizing db tracker with
  | nil => exact ⟨h, hagrees⟩
  | cons result rest ih =>
      obtain ⟨hkept, hagreed⟩ := check_kept h hagrees resumed result
      exact ih hkept hagreed

/-- The routes that are gone have their incidents ended, and nothing counted. -/
lemma retain_kept (h : Orderly db now) (hagrees : Agrees tracker db) (keys : List String) :
    Orderly (retain now keys db tracker).1 now ∧
      Agrees (retain now keys db tracker).2 (retain now keys db tracker).1 := by
  have happart : NoOverlap { db with log := db.log ++ [.ticked keys now] } := h.apart
  have hdb : (retain now keys db tracker).1 = { db with
      incidents := db.incidents.map (ending (tracker.retain keys).2 now)
      log := db.log ++ [.ticked keys now] } := foldl_closeIncident happart _ now
  have hlog : ∀ key, (Over db (tracker.retain keys).2 (db.log ++ [.ticked keys now]) key ∧
      (tracker.retain keys).1.track key = {}) ∨
        ((failing (recent key (db.log ++ [.ticked keys now])) = failing (recent key db.log) ∧
          key ∉ (tracker.retain keys).2) ∧
            (tracker.retain keys).1.track key = tracker.track key) := by
    intro key
    by_cases hmem : key ∈ keys
    · refine .inr ⟨⟨by rw [recent_ticked, if_pos hmem], ?_⟩, by rw [Tracker.track_retain, if_pos hmem]⟩
      intro hgone
      exact (Tracker.mem_retain.mp hgone).1 hmem
    · refine .inl ⟨⟨by rw [recent_ticked, if_neg hmem, failing_nil], ?_⟩,
        by rw [Tracker.track_retain, if_neg hmem]⟩
      cases hincident : (tracker.track key).incident with
      | true => exact .inl (Tracker.mem_retain.mpr ⟨hmem, hincident⟩)
      | false =>
          right
          rw [Bool.eq_false_iff]
          intro hany
          rw [(hagrees.incident key).mpr hany] at hincident
          cases hincident
  have htracker : (retain now keys db tracker).2 = (tracker.retain keys).1 := rfl
  rw [hdb, htracker]
  exact ⟨h.close _ _ fun key => (hlog key).imp And.left And.left, hagrees.close h _ _ hlog⟩

/-- Only incidents that have ended are deleted. -/
lemma any_isOpen_prune (db : Database) (time : Time) (key : String) :
    (db.prune time).incidents.any (Database.isOpen key) = true ↔
      db.incidents.any (Database.isOpen key) = true := by
  rw [any_isOpen, any_isOpen]
  constructor
  · rintro ⟨i, hi, hopen⟩
    exact ⟨i, List.mem_of_mem_filter hi, hopen⟩
  · rintro ⟨i, hi, hkey, hopen⟩
    exact ⟨i, List.mem_filter.mpr ⟨hi, by rw [hopen]; rfl⟩, hkey, hopen⟩

lemma Orderly.prune (h : Orderly db now) (time : Time) : Orderly (db.prune time) now where
  opens key := by rw [any_isOpen_prune]; exact h.opens key
  started i hi := h.started i (List.mem_of_mem_filter hi)
  apart := h.apart.filter _
  ended i hi := h.ended i (List.mem_of_mem_filter hi)

lemma Agrees.prune (h : Agrees tracker db) (time : Time) : Agrees tracker (db.prune time) where
  incident key := by rw [any_isOpen_prune]; exact h.incident key
  failures := h.failures
  first := h.first

namespace Monitors

/-- A monitor that agreed before a tick agrees after it: it is the ticks of others, and its own
start, that a tracker may miss. -/
lemma run_kept (h : Orderly db now) {monitor : Monitor} (hagrees : Agrees (trackerOf db monitor) db)
    (results : List (Target × CheckOutcome)) :
    Orderly (run db monitor now true results).1 now ∧
      ∃ tracker, (run db monitor now true results).2.tracker = some tracker ∧
        Agrees tracker (run db monitor now true results).1 := by
  obtain ⟨hchecked, hagreed⟩ := foldl_check (resumed monitor.lastTick now) results h hagrees
  obtain ⟨hkept, hknown⟩ := retain_kept hchecked hagreed
    (results.map fun result => result.1.key)
  simp only [run, checks, if_true]
  split_ifs
  · exact ⟨hkept.prune now, _, rfl, hknown.prune now⟩
  · exact ⟨hkept, _, rfl, hknown⟩

/-- A tracker that is loaded agrees when no route has exactly one failure behind it. -/
lemma agrees_resume (h : Orderly db now)
    (hone : ∀ key, (failing (recent key db.log)).length ≠ 1) :
    Agrees (Tracker.resume db.openIncidents) db := by
  have htrack : ∀ key, (db.incidents.any (Database.isOpen key) = false ∧
      (Tracker.resume db.openIncidents).track key = {}) ∨
        (db.incidents.any (Database.isOpen key) = true ∧
          ((Tracker.resume db.openIncidents).track key).incident = true) := by
    intro key
    rcases Tracker.track_resume db.openIncidents key with ⟨htrack, hnone⟩ | ⟨htrack, i, hi, hkey⟩
    · refine .inl ⟨?_, htrack⟩
      rw [Bool.eq_false_iff]
      intro hany
      obtain ⟨i, hi, hkey, hopen⟩ := any_isOpen.mp hany
      exact hnone i (List.mem_filter.mpr ⟨hi, by rw [hopen]; rfl⟩) hkey
    · obtain ⟨hmem, hopen⟩ := List.mem_filter.mp hi
      exact .inr ⟨any_isOpen.mpr ⟨i, hmem, hkey, Option.isNone_iff_eq_none.mp hopen⟩, htrack⟩
  have hempty : ∀ key, ((Tracker.resume db.openIncidents).track key).incident = false →
      (Tracker.resume db.openIncidents).track key = {} ∧ failing (recent key db.log) = [] := by
    intro key hfalse
    rcases htrack key with ⟨hnone, heq⟩ | ⟨-, htrue⟩
    · refine ⟨heq, List.length_eq_zero_iff.mp ?_⟩
      have hfew : ¬ 2 ≤ (failing (recent key db.log)).length := by
        intro hmany
        rw [(h.opens key).mpr hmany] at hnone
        cases hnone
      have hne := hone key
      omega
    · rw [htrue] at hfalse
      cases hfalse
  refine ⟨fun key => ?_, fun key hfalse => ?_, fun key check hfalse hfirst => ?_⟩
  · rcases htrack key with ⟨hnone, heq⟩ | ⟨hany, htrue⟩
    · rw [heq, hnone]
    · rw [hany, htrue]
  · obtain ⟨heq, hnil⟩ := hempty key hfalse
    rw [heq, hnil]
    rfl
  · rw [(hempty key hfalse).2] at hfirst
    cases hfirst

/-- The database is orderly at the time of its last tick. -/
def Settled (db : Database) : Prop :=
  ∃ now, Orderly db now ∧ (db.incidents = [] ∨ ∃ keys, .ticked keys now ∈ db.log)

lemma Settled.at_tick (h : Settled db) (htime : ∀ keys time, .ticked keys time ∈ db.log → time ≤ now) :
    Orderly db now := by
  obtain ⟨last, horderly, hlast⟩ := h
  refine ⟨horderly.opens, horderly.started, horderly.apart, fun i hi ended hended => ?_⟩
  obtain ⟨hle, hfirst⟩ := horderly.ended i hi ended hended
  rcases hlast with hnil | ⟨keys, hmem⟩
  · rw [hnil] at hi
    cases hi
  · exact ⟨hle.trans (htime keys last hmem), hfirst⟩

lemma ticked_mem (db : Database) (monitor : Monitor) (now : Time)
    (results : List (Target × CheckOutcome)) :
    ∃ keys, .ticked keys now ∈ (run db monitor now true results).1.log := by
  have hclose : ∀ (gone : List String) (db : Database),
      (gone.foldl (fun db key => db.closeIncident key now) db).log = db.log := by
    intro gone
    induction gone with
    | nil => exact fun _ => rfl
    | cons key rest ih => exact fun db => ih _
  refine ⟨results.map fun result => result.1.key, ?_⟩
  simp only [run, checks, retain, if_true]
  split_ifs
  all_goals
    simp only [Database.prune, hclose]
    exact List.mem_append_right _ List.mem_cons_self

lemma claim_log (db : Database) (owner : String) (now ttl : Time) :
    ∃ lease, (db.claim owner now ttl).1 = { db with lease } := by
  rw [Database.claim]
  split_ifs
  · exact ⟨db.lease, rfl⟩
  · exact ⟨_, rfl⟩

variable {s t : Monitors}

lemma Settled.step {action : Step} (h : Settled s.database) (hcareful : s.Careful action)
    (hstep : s.step action = some t) : Settled t.database := by
  cases action with
  | start owner =>
      obtain rfl := Option.some.inj hstep
      exact h
  | release i =>
      obtain ⟨monitor, -, rfl⟩ := Option.map_eq_some_iff.mp hstep
      obtain ⟨now, horderly, hlast⟩ := h
      simp only [Database.release]
      split_ifs
      · exact ⟨now, { horderly with }, hlast⟩
      · exact ⟨now, horderly, hlast⟩
  | tick i now online results =>
      obtain ⟨monitor, hmonitor, rfl⟩ := Option.map_eq_some_iff.mp hstep
      obtain ⟨lease, hlease⟩ := claim_log s.database monitor.owner now (3 * INTERVAL_MS)
      rcases hclaim : s.database.claim monitor.owner now (3 * INTERVAL_MS) with ⟨db, _ | _⟩
      · exact h
      rw [hclaim] at hlease
      have hdb : db = { s.database with lease } := hlease
      subst hdb
      cases online with
      | false =>
          obtain ⟨last, horderly, hlast⟩ := h
          exact ⟨last, { horderly with }, hlast⟩
      | true =>
          obtain ⟨hagrees, htime⟩ := hcareful monitor hmonitor (by rw [hclaim])
          have horderly : Orderly { s.database with lease } now := { h.at_tick htime with }
          have hagrees' : Agrees (trackerOf { s.database with lease } monitor)
              { s.database with lease } := { hagrees with }
          exact ⟨now, (run_kept horderly hagrees' results).1,
            .inr (ticked_mem { s.database with lease } monitor now results)⟩

/-- Incidents are open exactly for the routes whose last two checks failed, they begin with the
failures, and no two of a route overlap. -/
theorem outages_agree {steps : List Step} (hrun : Runs.run Monitors.step {} steps = some s)
    (hcareful : Meets Monitors.step Careful {} steps) :
    OpenWhenFailing s.database ∧ NoOverlap s.database := by
  have hempty : Settled ({} : Monitors).database := by
    refine ⟨0, ⟨fun key => ?_, fun i hi => ?_, List.Pairwise.nil, fun i hi => ?_⟩, .inl rfl⟩
    · simp [recent, failing_nil]
    · cases hi
    · cases hi
  have h : Settled s.database := run_invariant (I := fun _ s => Settled s.database) hempty
    (fun _ _ _ _ _ hs hP hstep => hs.step hP hstep) hrun hcareful
  obtain ⟨now, horderly, -⟩ := h
  refine ⟨fun key => ⟨?_, fun i hi hkey hopen => ?_⟩, horderly.apart⟩
  · rw [← any_isOpen, lastTwoFailed_iff]
    exact horderly.opens key
  · rw [← hkey]
    exact horderly.started i hi hopen

/-! ## One monitor alone -/

/-- No second monitor is started, and no tick comes earlier than one before it. -/
def Alone (s : Monitors) : Step → Prop
  | .start _ => False
  | .tick _ now _ _ => ∀ keys time, .ticked keys time ∈ s.database.log → time ≤ now
  | .release _ => True

/-- One monitor, whose tracker agrees with the database. -/
structure Lone (s : Monitors) : Prop where
  settled : Settled s.database
  one : s.monitors.length = 1
  agrees : ∀ (i : ℕ) (monitor : Monitor), s.monitors[i]? = some monitor →
    Agrees (trackerOf s.database monitor) s.database

lemma Lone.careful (h : Lone s) {action : Step} (halone : s.Alone action) : s.Careful action := by
  cases action with
  | start owner => exact halone.elim
  | release i => trivial
  | tick i now online results =>
      cases online with
      | false => trivial
      | true => exact fun monitor hmonitor _ => ⟨h.agrees i monitor hmonitor, halone⟩

lemma Lone.step (h : Lone s) {action : Step} (halone : s.Alone action)
    (hstep : s.step action = some t) : Lone t := by
  have hsettled := h.settled.step (h.careful halone) hstep
  cases action with
  | start owner => exact halone.elim
  | release i =>
      obtain ⟨monitor, -, rfl⟩ := Option.map_eq_some_iff.mp hstep
      refine ⟨hsettled, h.one, fun j monitor' hmonitor' => ?_⟩
      have hagrees := h.agrees j monitor' hmonitor'
      simp only [Database.release]
      split_ifs
      · exact { hagrees with }
      · exact hagrees
  | tick i now online results =>
      obtain ⟨monitor, hmonitor, rfl⟩ := Option.map_eq_some_iff.mp hstep
      obtain ⟨lease, hlease⟩ := claim_log s.database monitor.owner now (3 * INTERVAL_MS)
      rcases hclaim : s.database.claim monitor.owner now (3 * INTERVAL_MS) with ⟨db, _ | _⟩
      · exact h
      rw [hclaim] at hlease hsettled
      have hdb : db = { s.database with lease } := hlease
      subst hdb
      have hagrees : Agrees (trackerOf { s.database with lease } monitor)
          { s.database with lease } := { h.agrees i monitor hmonitor with }
      refine ⟨hsettled, by rw [List.length_set]; exact h.one, fun j monitor' hmonitor' => ?_⟩
      have hi : i < s.monitors.length := (List.getElem?_eq_some_iff.mp hmonitor).1
      have hj := (List.getElem?_eq_some_iff.mp hmonitor').1
      rw [List.length_set, h.one] at hj
      rw [h.one] at hi
      obtain rfl : j = i := by omega
      rw [List.getElem?_set_self (by rw [h.one]; exact hi)] at hmonitor'
      obtain rfl := Option.some.inj hmonitor'
      cases online with
      | false => exact { hagrees with }
      | true =>
          have horderly : Orderly { s.database with lease } now :=
            { h.settled.at_tick halone with }
          obtain ⟨-, tracker, htracker, hknown⟩ := run_kept horderly hagrees results
          rw [trackerOf, htracker]
          exact hknown

lemma lone_start (owner : String) : Lone { monitors := [{ owner }] } := by
  have hempty : Orderly ({} : Database) 0 := by
    refine ⟨fun key => ?_, fun i hi => ?_, List.Pairwise.nil, fun i hi => ?_⟩
    · simp [recent, failing_nil]
    · cases hi
    · cases hi
  refine ⟨⟨0, hempty, .inl rfl⟩, rfl, fun i monitor hmonitor => ?_⟩
  obtain rfl := List.mem_singleton.mp (List.mem_of_getElem? hmonitor)
  exact agrees_resume hempty fun key => by simp [recent, failing_nil]

lemma Lone.meets (h : Lone s) {steps : List Step} (halone : Meets Monitors.step Alone s steps) :
    Meets Monitors.step Careful s steps := by
  induction steps generalizing s with
  | nil => trivial
  | cons action rest ih =>
      exact ⟨h.careful halone.1, fun t ht => ih (h.step halone.1 ht) (halone.2 t ht)⟩

/-- Whether a step is one of a monitor alone. -/
def isAlone (s : Monitors) : Step → Bool
  | .start _ => false
  | .tick _ now _ _ => s.database.log.all fun | .ticked _ time => time ≤ now | _ => true
  | .release _ => true

lemma alone_of_isAlone (s : Monitors) (action : Step) (h : s.isAlone action = true) :
    s.Alone action := by
  cases action with
  | start owner => cases h
  | release i => trivial
  | tick i now online results =>
      intro keys time hmem
      exact of_decide_eq_true (List.all_eq_true.mp h _ hmem)

def site : Target := ⟨"a", ⟨"app.example.com", none⟩⟩

def failed : Target × CheckOutcome := (site, ⟨false, some .originUnreachable⟩)

/-- Two failed checks. -/
def failingTwice : List Step :=
  [.tick 0 0 true [failed], .tick 0 60000 true [failed]]

theorem outages_agree_failingTwice : ∃ s,
    Runs.run Monitors.step {} (.start "app" :: failingTwice) = some s ∧
      s.database.incidents.map Incident.startedAt = [0] ∧
        OpenWhenFailing s.database ∧ NoOverlap s.database := by
  have hopen : (Runs.run Monitors.step {} (.start "app" :: failingTwice)).any
      (fun s => s.database.incidents.map Incident.startedAt = [0]) = true := by decide +kernel
  obtain ⟨s, hrun, hs⟩ := (Option.any_eq_true _ _).mp hopen
  have halone : Meets Monitors.step Alone { monitors := [{ owner := "app" }] } failingTwice :=
    meets_of_check alone_of_isAlone (by decide +kernel)
  have hcareful : Meets Monitors.step Careful {} (.start "app" :: failingTwice) :=
    meets_cons rfl trivial ((lone_start "app").meets halone)
  exact ⟨s, hrun, of_decide_eq_true hs, outages_agree hrun hcareful⟩

/-- One failed check by the app, which stops, and the next by another process, which starts
counting anew. -/
def failingApart : List Step :=
  [.start "app", .tick 0 0 true [failed], .release 0, .start "cli", .tick 1 60000 true [failed]]

/-- The last two checks failed and no incident is open. -/
theorem outages_agree_failingApart : ¬ ∀ steps s, Runs.run Monitors.step {} steps = some s →
    OpenWhenFailing s.database ∧ NoOverlap s.database := by
  intro hall
  have hmissed : (Runs.run Monitors.step {} failingApart).any (fun s =>
      s.database.incidents = [] ∧
        recent "app.example.com" s.database.log = [⟨false, 0⟩, ⟨false, 60000⟩]) = true := by
    decide +kernel
  obtain ⟨s, hrun, hs⟩ := (Option.any_eq_true _ _).mp hmissed
  obtain ⟨hnone, hrecent⟩ := of_decide_eq_true hs
  obtain ⟨hopen, -⟩ := (hall failingApart s hrun).1 "app.example.com"
  obtain ⟨i, hi, -⟩ := hopen.mpr ⟨[], ⟨false, 0⟩, ⟨false, 60000⟩, hrecent, rfl, rfl⟩
  rw [hnone] at hi
  cases hi

end Monitors

end Teitunnel.Uptime
