import Teitunnel.Lib.Lists
import Teitunnel.Lib.Table

/-!
# Failures in a row

The tracker that a monitor keeps in memory: how many checks of a route failed in a row, and
whether an outage is open.
-/

namespace Teitunnel.Uptime

/-- Milliseconds since the epoch. -/
abbrev Time := ℤ

/-- Failed checks in a row that open an incident. -/
def CONFIRM : ℕ := 2

/-- Why a check failed. -/
inductive Cause where
  | noConnector
  | tunnelMismatch
  | notOnCloudflare
  | originUnreachable
  | originTimeout
  | serverError
  | edgeUnreachable
  | certificate
  | timeout
  | noRecord
  | hostRejected
  | limited
deriving DecidableEq

/-- What one check found. -/
structure CheckOutcome where
  ok : Bool
  cause : Option Cause
deriving DecidableEq

structure RouteRef where
  hostname : String
  path : Option String
deriving DecidableEq

/-- `app.xyz.com` or `app.xyz.com/api`: the key checks and incidents use. -/
def RouteRef.key (route : RouteRef) : String :=
  match route.path with
  | some path => route.hostname ++ path
  | none => route.hostname

/-- A route that is checked. -/
structure Target where
  accountId : String
  route : RouteRef
deriving DecidableEq

def Target.key (target : Target) : String := target.route.key

/-- An outage of one route. -/
structure Incident where
  accountId : String
  route : RouteRef
  startedAt : Time
  endedAt : Option Time
  cause : Cause
deriving DecidableEq

/-- Where a route's checks stand, for opening and closing incidents. -/
structure Track where
  failures : ℕ := 0
  firstFailure : Time := 0
  cause : Option Cause := none
  incident : Bool := false
deriving DecidableEq

/-- What a check changed. -/
inductive Transition where
  /-- Enough failures in a row: an outage began at `startedAt`. -/
  | opened (startedAt : Time) (cause : Cause)
  /-- A check passed during an outage. -/
  | closed
deriving DecidableEq

/-- Consecutive failures per route. -/
structure Tracker where
  routes : Table String Track

namespace Tracker

/-- The track of a route with an open incident. -/
def ofIncident (i : Incident) : Track where
  failures := CONFIRM
  firstFailure := i.startedAt
  cause := some i.cause
  incident := true

/-- A tracker that knows about incidents still open in the database. -/
def resume (open' : List Incident) : Tracker :=
  ⟨Table.ofList (open'.map fun i => (i.route.key, ofIncident i))⟩

/-- The track of a route, a new one when there is none. -/
def track (tracker : Tracker) (key : String) : Track := (tracker.routes.find key).getD {}

/-- Records a check of `key` at `time`. -/
def record (tracker : Tracker) (key : String) (outcome : CheckOutcome) (time : Time) :
    Tracker × Option Transition :=
  let track := tracker.track key
  if outcome.ok then
    (⟨tracker.routes.insert key {}⟩, if track.incident then some .closed else none)
  else
    let track := if track.failures = 0 then
      { track with firstFailure := time, cause := outcome.cause } else track
    let track := { track with failures := track.failures + 1 }
    if CONFIRM ≤ track.failures ∧ track.incident = false then
      (⟨tracker.routes.insert key { track with incident := true }⟩,
        some (.opened track.firstFailure (track.cause.getD .edgeUnreachable)))
    else (⟨tracker.routes.insert key track⟩, none)

/-- Forgets routes that are gone; returns those that had an open incident. -/
def retain (tracker : Tracker) (keys : List String) : Tracker × List String :=
  (⟨tracker.routes.retain fun key _ => keys.contains key⟩,
    (tracker.routes.entries.filter fun entry =>
      !keys.contains entry.1 && entry.2.incident).map Prod.fst)

variable {tracker : Tracker} {key key' : String} {outcome : CheckOutcome} {time : Time}

/-! ## What a check does to the tracks -/

lemma track_insert (key key' : String) (track : Track) :
    (Tracker.mk (tracker.routes.insert key track)).track key' =
      if key' = key then track else tracker.track key' := by
  rw [Tracker.track, Table.find_insert]
  split_ifs <;> rfl

lemma record_of_ne (h : key' ≠ key) :
    (tracker.record key outcome time).1.track key' = tracker.track key' := by
  simp only [record]
  split_ifs <;> rw [track_insert, if_neg h]

/-- A check that passed. -/
lemma record_ok (tracker : Tracker) (key : String) (time : Time) (h : outcome.ok = true) :
    (tracker.record key outcome time).1.track key = {} ∧
      (tracker.record key outcome time).2 =
        if (tracker.track key).incident then some .closed else none := by
  simp only [record, h, if_true]
  exact ⟨by rw [track_insert, if_pos rfl], trivial⟩

/-- A failed check during an outage. -/
lemma record_open (time : Time) (h : outcome.ok = false) (hincident : (tracker.track key).incident = true) :
    ((tracker.record key outcome time).1.track key).incident = true ∧
      (tracker.record key outcome time).2 = none := by
  simp only [record, h, Bool.false_eq_true, if_false]
  split_ifs with hzero hopens hopens
  · exact absurd (hopens.2.symm.trans hincident) (by simp)
  · exact ⟨by rw [track_insert, if_pos rfl]; exact hincident, rfl⟩
  · exact absurd (hopens.2.symm.trans hincident) (by simp)
  · exact ⟨by rw [track_insert, if_pos rfl]; exact hincident, rfl⟩

/-- The first failed check. -/
lemma record_first (time : Time) (h : outcome.ok = false) (hzero : (tracker.track key).failures = 0)
    (hincident : (tracker.track key).incident = false) :
    (tracker.record key outcome time).1.track key =
        { failures := 1, firstFailure := time, cause := outcome.cause, incident := false } ∧
      (tracker.record key outcome time).2 = none := by
  simp only [record, h, hzero, CONFIRM, Bool.false_eq_true, if_false, if_true]
  rw [if_neg (by omega)]
  exact ⟨by rw [track_insert, if_pos rfl, hincident], rfl⟩

/-- The second failed check opens an incident that began at the first. -/
lemma record_second (time : Time) (h : outcome.ok = false) (hone : (tracker.track key).failures = 1)
    (hincident : (tracker.track key).incident = false) :
    ((tracker.record key outcome time).1.track key).incident = true ∧
      ∃ cause, (tracker.record key outcome time).2 =
        some (.opened (tracker.track key).firstFailure cause) := by
  simp only [record, h, hone, CONFIRM, Bool.false_eq_true, if_false, one_ne_zero]
  rw [if_pos ⟨by omega, hincident⟩]
  exact ⟨by rw [track_insert, if_pos rfl], _, rfl⟩

/-! ## Routes that are gone -/

lemma track_retain (keys : List String) :
    (tracker.retain keys).1.track key = if key ∈ keys then tracker.track key else {} := by
  simp only [Tracker.retain, Tracker.track, Table.find_retain]
  by_cases hmem : key ∈ keys
  · rw [if_pos hmem]
    cases tracker.routes.find key <;> simp [hmem, Option.filter]
  · rw [if_neg hmem]
    cases tracker.routes.find key <;> simp [hmem, Option.filter]

lemma mem_retain {keys : List String} :
    key ∈ (tracker.retain keys).2 ↔ key ∉ keys ∧ (tracker.track key).incident = true := by
  simp only [Tracker.retain, List.mem_map, List.mem_filter]
  constructor
  · rintro ⟨⟨key', track⟩, ⟨hmem, hgone⟩, rfl⟩
    obtain ⟨hkeys, hincident⟩ := (Bool.and_eq_true _ _).mp hgone
    refine ⟨by simpa using hkeys, ?_⟩
    rw [Tracker.track, Table.find_eq_some_iff.mpr hmem]
    exact hincident
  · rintro ⟨hkeys, hincident⟩
    cases hfind : tracker.routes.find key with
    | none =>
        rw [Tracker.track, hfind] at hincident
        cases hincident
    | some track =>
        rw [Tracker.track, hfind] at hincident
        have hincident' : track.incident = true := hincident
        exact ⟨(key, track), ⟨Table.find_eq_some_iff.mp hfind, by simp [hkeys, hincident']⟩, rfl⟩

/-- What a resumed tracker knows of a route is its open incident. -/
lemma track_resume (incidents : List Incident) (key : String) :
    ((resume incidents).track key = {} ∧ ∀ i ∈ incidents, i.route.key ≠ key) ∨
      (((resume incidents).track key).incident = true ∧ ∃ i ∈ incidents, i.route.key = key) := by
  cases hfind : (resume incidents).routes.find key with
  | none =>
      refine .inl ⟨by rw [Tracker.track, hfind]; rfl, fun i hi hkey => ?_⟩
      have hmem : (key, ofIncident i) ∈ incidents.map fun i => (i.route.key, ofIncident i) :=
        List.mem_map.mpr ⟨i, hi, by rw [hkey]⟩
      have hsome := Table.find_foldl_insert_isSome (t := Table.empty) (.inl ⟨_, hmem⟩)
      have hnone : ((incidents.map fun i => (i.route.key, ofIncident i)).foldl
        (fun t entry => t.insert entry.1 entry.2) Table.empty).find key = none := hfind
      rw [hnone] at hsome
      cases hsome
  | some track =>
      obtain ⟨i, hi, heq⟩ := List.mem_map.mp (Table.mem_of_find_ofList hfind)
      obtain ⟨hkey, htrack⟩ := Prod.mk.inj heq
      exact .inr ⟨by rw [Tracker.track, hfind, ← htrack]; rfl, i, hi, hkey⟩

end Tracker

end Teitunnel.Uptime
