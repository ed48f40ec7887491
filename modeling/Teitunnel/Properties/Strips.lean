import Teitunnel.Uptime.Strip

/-!
# How often the strip counts a check

What a bar counts is a sum over the two tables (`barChecks_eq`).  Two histories that differ in one
check leave tables that differ in its row and in one check of its hour, as far as these are still
kept (`rawWeight_later`, `hourWeight_later`).  So a check is counted once for its row and once for
its hour; the join reads both where the hour began before the rows' retention and the row is not
deleted yet.
-/

namespace Teitunnel.Uptime

open Tally

namespace UptimeStore

/-! ## Weights of the tables -/

/-- The rows, each with its weight. -/
def rawWeight (weight : String → Time → ℕ) (store : UptimeStore) : ℕ :=
  weigh (fun row => weight row.route row.time) store.checks

/-- The checks in the sums, each with its hour's weight. -/
def hourWeight (weight : String → Time → ℕ) (store : UptimeStore) : ℕ :=
  weigh (fun row => weight row.route row.hour * row.checks) store.hourly

/-- One sum for an hour of a route, of which no more passed than were made. -/
structure Summed (store : UptimeStore) : Prop where
  distinct : store.hourly.Pairwise fun a b => ¬ (a.route = b.route ∧ a.hour = b.hour)
  up_le : ∀ row ∈ store.hourly, row.up ≤ row.checks

variable {store : UptimeStore}

lemma Summed.record (h : store.Summed) (route : String) (time : Time) (outcome : CheckOutcome) :
    (store.record route time outcome).Summed := by
  have hok : outcome.ok.toNat ≤ 1 := Bool.toNat_le _
  by_cases hexists : ∃ row ∈ store.hourly, row.route = route ∧ row.hour = hourOf time
  · constructor
    · rw [UptimeStore.record, if_pos hexists, List.pairwise_map]
      refine h.distinct.imp fun {a b} hne => ?_
      split_ifs <;> exact hne
    · rw [UptimeStore.record, if_pos hexists]
      intro row hrow
      obtain ⟨old, hold, rfl⟩ := List.mem_map.mp hrow
      have hle := h.up_le old hold
      split_ifs
      · show old.up + outcome.ok.toNat ≤ old.checks + 1
        omega
      · exact hle
  · constructor
    · rw [UptimeStore.record, if_neg hexists, List.pairwise_append]
      refine ⟨h.distinct, List.pairwise_singleton _ _, ?_⟩
      intro a ha b hb
      rw [List.mem_singleton.mp hb]
      exact fun hkey => hexists ⟨a, ha, hkey⟩
    · rw [UptimeStore.record, if_neg hexists]
      intro row hrow
      rcases List.mem_append.mp hrow with hrow | hrow
      · exact h.up_le row hrow
      · rw [List.mem_singleton.mp hrow]
        exact hok

lemma Summed.prune (h : store.Summed) (now : Time) : (store.prune now).Summed where
  distinct := h.distinct.filter _
  up_le row hrow := h.up_le row (List.mem_of_mem_filter hrow)

lemma Summed.apply (h : store.Summed) : ∀ change, (store.apply change).Summed
  | .record route time outcome => h.record route time outcome
  | .prune now => h.prune now

lemma after_snoc (history : List Change) (change : Change) :
    after (history ++ [change]) = (after history).apply change := by
  rw [after, List.foldl_append]
  rfl

lemma summed_after (history : List Change) : (after history).Summed := by
  induction history using List.reverseRecOn with
  | nil => exact ⟨List.Pairwise.nil, fun row hrow => absurd hrow List.not_mem_nil⟩
  | append_singleton history change ih =>
      rw [after_snoc]
      exact ih.apply change

variable {weight : String → Time → ℕ}

/-- A new row, in the place of one at its time. -/
lemma rawWeight_record (route : String) (time : Time) (outcome : CheckOutcome) :
    rawWeight weight (store.record route time outcome) =
      rawWeight (fun r t => if r = route ∧ t = time then 0 else weight r t) store +
        weight route time := by
  rw [rawWeight, rawWeight, record, weigh_append, weigh_filter, weigh_cons, weigh_nil,
    Nat.add_zero]
  congr 1
  refine weigh_congr fun row _ => ?_
  by_cases hrow : row.route = route ∧ row.time = time <;> simp [hrow]

lemma rawWeight_prune (now : Time) :
    rawWeight weight (store.prune now) =
      rawWeight (fun r t => if t < now - RAW_RETENTION_MS then 0 else weight r t) store := by
  rw [rawWeight, rawWeight, prune, weigh_filter]
  refine weigh_congr fun row _ => ?_
  by_cases hrow : row.time < now - RAW_RETENTION_MS <;> simp [hrow]

/-- One check more in its hour. -/
lemma hourWeight_record (h : store.Summed) (route : String) (time : Time)
    (outcome : CheckOutcome) :
    hourWeight weight (store.record route time outcome) =
      hourWeight weight store + weight route (hourOf time) := by
  rw [hourWeight, hourWeight, record]
  by_cases hexists : ∃ row ∈ store.hourly, row.route = route ∧ row.hour = hourOf time
  · obtain ⟨row, hrow, rfl, hhour⟩ := hexists
    obtain ⟨front, back, hsplit⟩ := List.append_of_mem hrow
    have hdistinct := h.distinct
    rw [hsplit, List.pairwise_append, List.pairwise_cons] at hdistinct
    obtain ⟨-, ⟨hback, -⟩, hfront⟩ := hdistinct
    have hrest : ∀ rows : List HourRow,
        (∀ other ∈ rows, ¬ (other.route = row.route ∧ other.hour = hourOf time)) →
        rows.map (fun other => if other.route = row.route ∧ other.hour = hourOf time then
          other.add outcome else other) = rows := by
      intro rows hrows
      conv_rhs => rw [← List.map_id rows]
      exact List.map_congr_left fun other hother => if_neg (hrows other hother)
    rw [if_pos ⟨row, hrow, rfl, hhour⟩, hsplit, List.map_append, List.map_cons,
      if_pos ⟨rfl, hhour⟩, weigh_append, weigh_append, weigh_cons, weigh_cons]
    rw [hrest front, hrest back]
    · rw [HourRow.add, ← hhour]
      ring
    · intro other hother hkey
      exact hback other hother ⟨hkey.1.symm, hhour.trans hkey.2.symm⟩
    · intro other hother hkey
      exact hfront other hother row List.mem_cons_self ⟨hkey.1, hkey.2.trans hhour.symm⟩
  · rw [if_neg hexists, weigh_append, weigh_cons, weigh_nil, Nat.add_zero, Nat.mul_one]

lemma hourWeight_prune (now : Time) :
    hourWeight weight (store.prune now) =
      hourWeight (fun r t => if t < now - RETENTION_MS then 0 else weight r t) store := by
  rw [hourWeight, hourWeight, prune, weigh_filter]
  refine weigh_congr fun row _ => ?_
  by_cases hrow : row.hour < now - RETENTION_MS <;> simp [hrow]

/-! ## One check more -/

/-- No later deletion reaches the row of a check at this time. -/
def rowKept (time : Time) (later : List Change) : Bool :=
  later.all fun
    | .prune now => ¬ time < now - RAW_RETENTION_MS
    | .record .. => true

/-- No later deletion reaches the sum of its hour. -/
def hourKept (time : Time) (later : List Change) : Bool :=
  later.all fun
    | .prune now => ¬ hourOf time < now - RETENTION_MS
    | .record .. => true

lemma rowKept_prune (time now : Time) (later : List Change) : rowKept time (.prune now :: later) =
    (decide (¬ time < now - RAW_RETENTION_MS) && rowKept time later) := rfl

lemma hourKept_prune (time now : Time) (later : List Change) : hourKept time (.prune now :: later) =
    (decide (¬ hourOf time < now - RETENTION_MS) && hourKept time later) := rfl

lemma rowKept_iff {time : Time} {later : List Change} :
    rowKept time later = true ↔ ∀ now, Change.prune now ∈ later → now - RAW_RETENTION_MS ≤ time := by
  rw [rowKept, List.all_eq_true]
  constructor
  · intro h now hnow
    simpa using h _ hnow
  · rintro h (⟨route, t, outcome⟩ | now) hmem
    · rfl
    · simpa using h now hmem

lemma hourKept_iff {time : Time} {later : List Change} :
    hourKept time later = true ↔
      ∀ now, Change.prune now ∈ later → now - RETENTION_MS ≤ hourOf time := by
  rw [hourKept, List.all_eq_true]
  constructor
  · intro h now hnow
    simpa using h _ hnow
  · rintro h (⟨route, t, outcome⟩ | now) hmem
    · rfl
    · simpa using h now hmem

/-- The rows of two stores stay the same but for one, until that is deleted. -/
lemma rawWeight_later {key : String} {time : Time} {later : List Change} {s s' : UptimeStore}
    {n : ℕ} (h : ∀ weight, rawWeight weight s' = rawWeight weight s + n * weight key time)
    (hnew : ∀ outcome, Change.record key time outcome ∉ later) (weight : String → Time → ℕ) :
    rawWeight weight (later.foldl apply s') = rawWeight weight (later.foldl apply s) +
      if rowKept time later then n * weight key time else 0 := by
  induction later generalizing s s' n with
  | nil => exact h weight
  | cons change later ih =>
      have hnew' : ∀ outcome, Change.record key time outcome ∉ later :=
        fun outcome hmem => hnew outcome (List.mem_cons_of_mem _ hmem)
      rw [List.foldl_cons, List.foldl_cons]
      cases change with
      | record route t outcome =>
          have hne : ¬ (key = route ∧ time = t) := by
            rintro ⟨rfl, rfl⟩
            exact hnew outcome List.mem_cons_self
          refine ih (n := n) (fun weight => ?_) hnew'
          rw [apply, apply, rawWeight_record, rawWeight_record, h, if_neg hne]
          omega
      | prune now =>
          by_cases hold : time < now - RAW_RETENTION_MS
          · rw [ih (n := 0) (fun weight => ?_) hnew']
            · rw [rowKept_prune, decide_eq_false (not_not.mpr hold), Bool.false_and, Nat.zero_mul,
                ite_self]
              rfl
            · rw [apply, apply, rawWeight_prune, rawWeight_prune, h, if_pos hold, Nat.mul_zero,
                Nat.zero_mul]
          · rw [ih (n := n) (fun weight => ?_) hnew']
            · rw [rowKept_prune, decide_eq_true hold, Bool.true_and]
            · rw [apply, apply, rawWeight_prune, rawWeight_prune, h, if_neg hold]

/-- The sums of two stores stay the same but for one check of an hour, until that is deleted. -/
lemma hourWeight_later {key : String} {time : Time} {later : List Change} {s s' : UptimeStore}
    {n : ℕ} (hs : s.Summed) (hs' : s'.Summed)
    (h : ∀ weight, hourWeight weight s' = hourWeight weight s + n * weight key (hourOf time))
    (weight : String → Time → ℕ) :
    hourWeight weight (later.foldl apply s') = hourWeight weight (later.foldl apply s) +
      if hourKept time later then n * weight key (hourOf time) else 0 := by
  induction later generalizing s s' n with
  | nil => exact h weight
  | cons change later ih =>
      rw [List.foldl_cons, List.foldl_cons]
      cases change with
      | record route t outcome =>
          refine ih (n := n) (hs.apply _) (hs'.apply _) fun weight => ?_
          rw [apply, apply, hourWeight_record hs, hourWeight_record hs', h]
          omega
      | prune now =>
          by_cases hold : hourOf time < now - RETENTION_MS
          · rw [ih (n := 0) (hs.apply _) (hs'.apply _) fun weight => ?_]
            · rw [hourKept_prune, decide_eq_false (not_not.mpr hold), Bool.false_and, Nat.zero_mul,
                ite_self]
              rfl
            · rw [apply, apply, hourWeight_prune, hourWeight_prune, h, if_pos hold, Nat.mul_zero,
                Nat.zero_mul]
          · rw [ih (n := n) (hs.apply _) (hs'.apply _) fun weight => ?_]
            · rw [hourKept_prune, decide_eq_true hold, Bool.true_and]
            · rw [apply, apply, hourWeight_prune, hourWeight_prune, h, if_neg hold]

/-- A row comes from a check. -/
lemma mem_checks_after {history : List Change} {row : CheckRow}
    (h : row ∈ (after history).checks) : Change.record row.route row.time row.outcome ∈ history := by
  induction history using List.reverseRecOn with
  | nil => exact absurd h List.not_mem_nil
  | append_singleton history change ih =>
      rw [after_snoc] at h
      rw [List.mem_append]
      cases change with
      | record route time outcome =>
          rw [apply, record, List.mem_append] at h
          rcases h with h | h
          · exact .inl (ih (List.mem_of_mem_filter h))
          · rw [List.mem_singleton.mp h]
            exact .inr List.mem_cons_self
      | prune now => exact .inl (ih (List.mem_of_mem_filter h))

lemma after_append (history later : List Change) :
    after (history ++ later) = later.foldl apply (after history) :=
  List.foldl_append

/-- The rows of a history with one check more. -/
lemma rawWeight_more {key : String} {time : Time} (outcome : CheckOutcome)
    {before later : List Change} (hbefore : ∀ o, Change.record key time o ∉ before)
    (hlater : ∀ o, Change.record key time o ∉ later) (weight : String → Time → ℕ) :
    rawWeight weight (after (before ++ .record key time outcome :: later)) =
      rawWeight weight (after (before ++ later)) +
        if rowKept time later then weight key time else 0 := by
  rw [after_append, after_append, List.foldl_cons]
  have hone : ∀ weight, rawWeight weight ((after before).apply (.record key time outcome)) =
      rawWeight weight (after before) + 1 * weight key time := by
    intro weight
    rw [apply, rawWeight_record, Nat.one_mul]
    congr 1
    refine weigh_congr fun row hrow => if_neg ?_
    rintro ⟨rfl, rfl⟩
    exact hbefore row.outcome (mem_checks_after hrow)
  rw [rawWeight_later hone hlater, Nat.one_mul]

lemma hourWeight_more {key : String} {time : Time} {outcome : CheckOutcome}
    {before later : List Change} (weight : String → Time → ℕ) :
    hourWeight weight (after (before ++ .record key time outcome :: later)) =
      hourWeight weight (after (before ++ later)) +
        if hourKept time later then weight key (hourOf time) else 0 := by
  rw [after_append, after_append, List.foldl_cons]
  have hsummed := summed_after before
  have hone : ∀ weight, hourWeight weight ((after before).apply (.record key time outcome)) =
      hourWeight weight (after before) + 1 * weight key (hourOf time) := by
    intro weight
    rw [apply, hourWeight_record hsummed, Nat.one_mul]
  rw [hourWeight_later hsummed (hsummed.apply _) hone, Nat.one_mul]

end UptimeStore

open UptimeStore (rowKept hourKept rowKept_iff hourKept_iff)

/-! ## The bars -/

/-- Where a range begins. -/
def AnalyticsRange.since (range : AnalyticsRange) (now : Time) : Time := now - range.seconds * 1000

/-- How long a bar is. -/
def AnalyticsRange.width (range : AnalyticsRange) : Time := range.seconds * 1000 / BARS

lemma AnalyticsRange.width_pos (range : AnalyticsRange) : 0 < range.width := by
  cases range <;> decide

/-- The bars fill the range. -/
lemma AnalyticsRange.width_mul (range : AnalyticsRange) :
    range.width * BARS = range.seconds * 1000 := by
  cases range <;> decide

lemma AnalyticsRange.tdiv_bars (range : AnalyticsRange) (now : Time) :
    max ((now - range.since now).tdiv (max BARS 1 : ℕ)) 1 = range.width := by
  rw [since, sub_sub_cancel]
  cases range <;> decide

/-- A time in the range falls in the bar it is in, any other in none. -/
lemma slot_eq (range : AnalyticsRange) (now time : Time) (i : ℕ) :
    slot (range.since now) now range.width BARS time = some i ↔
      i < BARS ∧ range.since now ≤ time ∧ time < now ∧
        range.since now + range.width * i ≤ time ∧
        time < range.since now + range.width * i + range.width := by
  have hwidth := range.width_pos
  have hfill := range.width_mul
  have hsince : range.since now + range.width * BARS = now := by
    rw [hfill, AnalyticsRange.since]
    ring
  by_cases hin : range.since now ≤ time ∧ time < now
  · rw [slot, if_pos hin, Option.some.injEq]
    obtain ⟨place, hplace⟩ : ∃ place, place = (time - range.since now) / range.width := ⟨_, rfl⟩
    have hdiv : (time - range.since now).tdiv range.width = place :=
      (Int.tdiv_eq_ediv_of_nonneg (by linarith [hin.1])).trans hplace.symm
    have hnonneg : 0 ≤ place := hplace ▸ Int.ediv_nonneg (by linarith [hin.1]) hwidth.le
    have hlow : place * range.width ≤ time - range.since now :=
      hplace ▸ Int.ediv_mul_le _ hwidth.ne'
    have hhigh : time - range.since now < (place + 1) * range.width :=
      hplace ▸ Int.lt_ediv_add_one_mul_self _ hwidth
    have hlt : place < BARS := by
      by_contra hge
      have := Int.mul_le_mul_of_nonneg_right (Int.not_lt.mp hge) hwidth.le
      linarith [hin.2]
    rw [hdiv]
    lift place to ℕ using hnonneg with n
    have hnlt : n < BARS := by exact_mod_cast hlt
    rw [Int.toNat_natCast, min_eq_left (Nat.le_sub_one_of_lt hnlt)]
    constructor
    · rintro rfl
      refine ⟨hnlt, hin.1, hin.2, by linarith, by linarith⟩
    · rintro ⟨-, -, -, hstart, hstop⟩
      have hle : (n : ℤ) < i + 1 := by
        by_contra hge
        have := Int.mul_le_mul_of_nonneg_right (Int.not_lt.mp hge) hwidth.le
        linarith
      have hge : (i : ℤ) < n + 1 := by
        by_contra hge
        have := Int.mul_le_mul_of_nonneg_right (Int.not_lt.mp hge) hwidth.le
        linarith
      omega
  · rw [slot, if_neg hin]
    constructor
    · rintro ⟨⟩
    · rintro ⟨-, hle, hlt, -⟩
      exact absurd ⟨hle, hlt⟩ hin

/-- How many checks a bar counts. -/
def barChecks (store : UptimeStore) (key : String) (range : AnalyticsRange) (now : Time) (i : ℕ) :
    ℕ :=
  ((store.detail key range now)[i]?.map UptimeBar.checks).getD 0

/-- Which rows the bar `i` counts. -/
def rowIn (key : String) (range : AnalyticsRange) (now : Time) (i : ℕ) (route : String)
    (time : Time) : ℕ :=
  if route = key ∧ slot (range.since now) now range.width BARS time = some i then 1 else 0

/-- Which hours the bar `i` counts. -/
def hourIn (key : String) (range : AnalyticsRange) (now : Time) (i : ℕ) (route : String)
    (hour : Time) : ℕ :=
  if route = key ∧ hour < now - RAW_RETENTION_MS ∧
    slot (range.since now) now range.width BARS hour = some i then 1 else 0

lemma slot_since {range : AnalyticsRange} {now time : Time} {i : ℕ}
    (h : slot (range.since now) now range.width BARS time = some i) : range.since now ≤ time :=
  ((slot_eq range now time i).mp h).2.1

lemma hourOf_le (time : Time) : hourOf time ≤ time := Int.ediv_mul_le _ (by decide)

/-- The bars of a strip before anything is counted. -/
def emptyBars (range : AnalyticsRange) (now : Time) : List UptimeBar :=
  (List.range BARS).map fun i : ℕ =>
    ⟨range.since now + range.width * i, range.since now + range.width * i + range.width, 0, 0⟩

lemma detail_eq (store : UptimeStore) (key : String) (range : AnalyticsRange) (now : Time) :
    store.detail key range now =
      tally (fun hour => slot (range.since now) now range.width BARS hour.1) UptimeBar.addHour
        (((((store.hourly.filter fun row => row.route = key ∧
          hourOf (range.since now) ≤ row.hour).insertionSort fun a b => a.hour ≤ b.hour).map
            fun row => (row.hour, row.checks, row.up))).filter fun hour =>
              hour.1 < now - RAW_RETENTION_MS)
        (tally (fun check => slot (range.since now) now range.width BARS check.1)
          UptimeBar.addCheck
          (((store.checks.filter fun row => row.route = key ∧
            range.since now ≤ row.time).insertionSort fun a b => a.time ≤ b.time).map
              fun row => (row.time, row.outcome.ok)) (emptyBars range now)) := by
  rw [UptimeStore.detail, bars, ← AnalyticsRange.since, AnalyticsRange.tdiv_bars]
  rfl

lemma weigh_rows (store : UptimeStore) (key : String) (range : AnalyticsRange) (now : Time)
    (i : ℕ) :
    weigh (fun check : Time × Bool =>
        if slot (range.since now) now range.width BARS check.1 = some i then 1 else 0)
      (((store.checks.filter fun row => row.route = key ∧
        range.since now ≤ row.time).insertionSort fun a b => a.time ≤ b.time).map
          fun row => (row.time, row.outcome.ok)) = store.rawWeight (rowIn key range now i) := by
  rw [weigh_map, weigh_perm (List.perm_insertionSort _ _), weigh_filter, UptimeStore.rawWeight]
  refine weigh_congr fun row _ => ?_
  rw [rowIn]
  by_cases hslot : slot (range.since now) now range.width BARS row.time = some i
  · have hsince := slot_since hslot
    simp [hslot, hsince]
  · simp [hslot]

lemma weigh_hours (store : UptimeStore) (key : String) (range : AnalyticsRange) (now : Time)
    (i : ℕ) :
    weigh (fun hour : Time × ℕ × ℕ =>
        if slot (range.since now) now range.width BARS hour.1 = some i then hour.2.1 else 0)
      ((((store.hourly.filter fun row => row.route = key ∧
        hourOf (range.since now) ≤ row.hour).insertionSort fun a b => a.hour ≤ b.hour).map
          fun row => (row.hour, row.checks, row.up)).filter fun hour =>
            hour.1 < now - RAW_RETENTION_MS) =
      store.hourWeight (hourIn key range now i) := by
  rw [weigh_filter, weigh_map, weigh_perm (List.perm_insertionSort _ _), weigh_filter, UptimeStore.hourWeight]
  refine weigh_congr fun row _ => ?_
  rw [hourIn]
  by_cases hslot : slot (range.since now) now range.width BARS row.hour = some i
  · have hsince : hourOf (range.since now) ≤ row.hour := (hourOf_le _).trans (slot_since hslot)
    by_cases hkey : row.route = key <;> by_cases hraw : row.hour < now - RAW_RETENTION_MS <;>
      simp [hslot, hsince, hkey, hraw]
  · simp [hslot]

/-- A bar counts rows and hours. -/
lemma barChecks_eq (store : UptimeStore) (key : String) (range : AnalyticsRange) (now : Time)
    {i : ℕ} (hi : i < BARS) :
    barChecks store key range now i =
      store.rawWeight (rowIn key range now i) + store.hourWeight (hourIn key range now i) := by
  have hcheck : ∀ check bar, (UptimeBar.addCheck check bar).checks = bar.checks + 1 :=
    fun _ _ => rfl
  have hhour : ∀ hour bar, (UptimeBar.addHour hour bar).checks = bar.checks + hour.2.1 :=
    fun _ _ => rfl
  have hempty : ((emptyBars range now)[i]?).map UptimeBar.checks = some 0 := by
    rw [emptyBars, List.getElem?_map, List.getElem?_range hi]
    rfl
  have hrow : ∀ rows : List (Time × Bool),
      ((tally (fun check => slot (range.since now) now range.width BARS check.1)
        UptimeBar.addCheck rows (emptyBars range now))[i]?).map UptimeBar.checks =
        some (weigh (fun check =>
          if slot (range.since now) now range.width BARS check.1 = some i then 1 else 0) rows) := by
    intro rows
    obtain ⟨bar, hbar, hzero⟩ := Option.map_eq_some_iff.mp hempty
    rw [getElem?_tally hcheck, hbar, Option.map_some, hzero, Nat.zero_add]
  obtain ⟨bar, hbar, hcount⟩ := Option.map_eq_some_iff.mp (hrow _)
  rw [barChecks, detail_eq, getElem?_tally hhour, hbar, Option.map_some, Option.getD_some, hcount,
    weigh_rows, weigh_hours]

/-- How often the bar `i` counts a check: what it has more than it would have without it. -/
def counted (key : String) (range : AnalyticsRange) (now : Time) (before : List Change)
    (check : Change) (later : List Change) (i : ℕ) : ℤ :=
  barChecks (.after (before ++ check :: later)) key range now i -
    barChecks (.after (before ++ later)) key range now i

/-- Once for its row and once for its hour, where they are read. -/
lemma counted_eq {key : String} {time : Time} {outcome : CheckOutcome} {before later : List Change}
    (hbefore : ∀ o, Change.record key time o ∉ before)
    (hlater : ∀ o, Change.record key time o ∉ later) (range : AnalyticsRange) (now : Time) {i : ℕ}
    (hi : i < BARS) :
    counted key range now before (.record key time outcome) later i =
      ((if rowKept time later then rowIn key range now i key time else 0) +
        if hourKept time later then hourIn key range now i key (hourOf time) else 0 : ℕ) := by
  rw [counted, barChecks_eq _ _ _ _ hi, barChecks_eq _ _ _ _ hi,
    UptimeStore.rawWeight_more outcome hbefore hlater, UptimeStore.hourWeight_more]
  push_cast
  ring

lemma sum_slot (range : AnalyticsRange) (now time : Time) :
    (∑ i ∈ Finset.range BARS,
        if slot (range.since now) now range.width BARS time = some i then 1 else 0) =
      if range.since now ≤ time ∧ time < now then 1 else 0 := by
  cases hslot : slot (range.since now) now range.width BARS time with
  | none =>
      have hout : ¬ (range.since now ≤ time ∧ time < now) := by
        intro hin
        rw [slot, if_pos hin] at hslot
        exact absurd hslot (by simp)
      simp [hout]
  | some j =>
      obtain ⟨hj, hsince, hnow, -⟩ := (slot_eq range now time j).mp hslot
      simp only [Option.some.injEq]
      rw [Finset.sum_ite_eq, if_pos (Finset.mem_range.mpr hj), if_pos ⟨hsince, hnow⟩]

/-- Over all bars a check is counted for its row in the range, and for its hour where that is in
the range and before the rows. -/
lemma sum_counted {key : String} {time : Time} {outcome : CheckOutcome}
    {before later : List Change} (hbefore : ∀ o, Change.record key time o ∉ before)
    (hlater : ∀ o, Change.record key time o ∉ later) (range : AnalyticsRange) (now : Time) :
    ∑ i ∈ Finset.range BARS, counted key range now before (.record key time outcome) later i =
      ((if rowKept time later ∧ range.since now ≤ time ∧ time < now then 1 else 0) +
        if hourKept time later ∧ range.since now ≤ hourOf time ∧
          hourOf time < now - RAW_RETENTION_MS then 1 else 0 : ℕ) := by
  have hraw : now - RAW_RETENTION_MS < now := sub_lt_self _ (by decide)
  have hsum : ∑ i ∈ Finset.range BARS,
      counted key range now before (.record key time outcome) later i =
      (∑ i ∈ Finset.range BARS,
        ((if rowKept time later then rowIn key range now i key time else 0) +
          if hourKept time later then hourIn key range now i key (hourOf time) else 0) : ℕ) := by
    rw [Nat.cast_sum]
    refine Finset.sum_congr rfl fun i hi => ?_
    exact counted_eq hbefore hlater range now (Finset.mem_range.mp hi)
  rw [hsum, Finset.sum_add_distrib]
  have hrows : (∑ i ∈ Finset.range BARS,
      if rowKept time later then rowIn key range now i key time else 0) =
      if rowKept time later ∧ range.since now ≤ time ∧ time < now then 1 else 0 := by
    by_cases hkept : rowKept time later = true
    · simp only [hkept, if_true, rowIn, true_and]
      exact sum_slot range now time
    · rw [if_neg fun h => hkept h.1]
      exact Finset.sum_eq_zero fun i _ => if_neg hkept
  have hhours : (∑ i ∈ Finset.range BARS,
      if hourKept time later then hourIn key range now i key (hourOf time) else 0) =
      if hourKept time later ∧ range.since now ≤ hourOf time ∧
        hourOf time < now - RAW_RETENTION_MS then 1 else 0 := by
    by_cases hkept : hourKept time later = true ∧ hourOf time < now - RAW_RETENTION_MS
    · simp only [hkept.1, if_true, hourIn, true_and, hkept.2, and_true]
      rw [sum_slot range now (hourOf time)]
      simp only [hkept.2.trans hraw, and_true]
    · have hnone : ¬ (hourKept time later = true ∧ range.since now ≤ hourOf time ∧
          hourOf time < now - RAW_RETENTION_MS) := fun h => hkept ⟨h.1, h.2.2⟩
      rw [if_neg hnone]
      refine Finset.sum_eq_zero fun i _ => ?_
      split_ifs with hhour
      · rw [hourIn, if_neg fun h => hkept ⟨hhour, h.2.1⟩]
      · rfl
  rw [hrows, hhours]

/-! ## Counting once -/

/-- When a check of the route was made. -/
def timeOf (key : String) : Change → Option Time
  | .record route time _ => if route = key then some time else none
  | .prune _ => none

def timesOf (key : String) (history : List Change) : List Time :=
  history.filterMap (timeOf key)

/-- Every check from the first whole hour of the range on is counted in exactly one bar, none twice,
one whose row is still there in the bar its time falls in; and no bar has more that passed than were
made. -/
structure CountsOnce (key : String) (range : AnalyticsRange) (now : Time) (history : List Change) :
    Prop where
  once : ∀ before time outcome later, history = before ++ .record key time outcome :: later →
    max (range.since now) (hourOf (range.since now + HOUR_MS - 1)) ≤ time → time < now →
    ∑ i ∈ Finset.range BARS, counted key range now before (.record key time outcome) later i = 1
  notTwice : ∀ before time outcome later, history = before ++ .record key time outcome :: later →
    ∑ i ∈ Finset.range BARS, counted key range now before (.record key time outcome) later i ≤ 1
  inPlace : ∀ before time outcome later, history = before ++ .record key time outcome :: later →
    ⟨key, time, outcome⟩ ∈ (UptimeStore.after history).checks →
    range.since now ≤ time → time < now →
    ∃ i bar, ((UptimeStore.after history).detail key range now)[i]? = some bar ∧
      bar.start ≤ time ∧ time < bar.stop ∧
      1 ≤ counted key range now before (.record key time outcome) later i
  up_le : ∀ bar ∈ (UptimeStore.after history).detail key range now, bar.up ≤ bar.checks

/-- Exactly one of a check's row and its hour is read: the hour where it began before the rows'
retention, and then the row must be deleted already. -/
def ReadOnce (now time : Time) (later : List Change) : Prop :=
  if hourOf time < now - RAW_RETENTION_MS then
    (∃ pruned, Change.prune pruned ∈ later ∧ time < pruned - RAW_RETENTION_MS) ∧
      ∀ pruned, Change.prune pruned ∈ later → pruned - RETENTION_MS ≤ hourOf time
  else ∀ pruned, Change.prune pruned ∈ later → pruned - RAW_RETENTION_MS ≤ time

lemma hourOf_bounds (time : ℤ) : hourOf time ≤ time ∧ time < hourOf time + HOUR_MS := by
  show time / 3600000 * 3600000 ≤ time ∧ time < time / 3600000 * 3600000 + 3600000
  omega

lemma whole_hour (from' time : ℤ) : hourOf (from' + HOUR_MS - 1) ≤ time ↔ from' ≤ hourOf time := by
  show (from' + 3600000 - 1) / 3600000 * 3600000 ≤ time ↔ from' ≤ time / 3600000 * 3600000
  omega

/-- Sums outlive rows. -/
lemma hourKept_of_rowKept {time : Time} {later : List Change} (h : rowKept time later = true) :
    hourKept time later = true := by
  rw [hourKept_iff]
  intro now hnow
  have hrow := rowKept_iff.mp h now hnow
  have hlt := (hourOf_bounds time).2
  simp only [RAW_RETENTION_MS, RETENTION_MS, HOUR_MS] at *
  linarith

lemma readOnce_iff {now time : Time} {later : List Change} :
    ReadOnce now time later ↔
      ((if rowKept time later then 1 else 0) +
        if hourKept time later ∧ hourOf time < now - RAW_RETENTION_MS then 1 else 0) = 1 := by
  rw [ReadOnce]
  by_cases hbelow : hourOf time < now - RAW_RETENTION_MS
  · rw [if_pos hbelow, ← hourKept_iff]
    have hgone : (∃ pruned, Change.prune pruned ∈ later ∧ time < pruned - RAW_RETENTION_MS) ↔
        ¬ rowKept time later = true := by
      rw [rowKept_iff]
      push Not
      rfl
    rw [hgone]
    by_cases hrow : rowKept time later = true
    · simp [hrow, hourKept_of_rowKept hrow, hbelow]
    · simp [hrow, hbelow]
  · rw [if_neg hbelow, ← rowKept_iff]
    simp [hbelow]

/-- Of checks at distinct times the others are at other times. -/
lemma others_of_distinct {key : String} {time : Time} {outcome : CheckOutcome}
    {before later : List Change}
    (h : (timesOf key (before ++ .record key time outcome :: later)).Nodup) :
    (∀ o, Change.record key time o ∉ before) ∧ ∀ o, Change.record key time o ∉ later := by
  have hmem : ∀ {history : List Change} {o : CheckOutcome},
      Change.record key time o ∈ history → time ∈ timesOf key history := by
    intro history o hrecord
    exact List.mem_filterMap.mpr ⟨_, hrecord, if_pos rfl⟩
  have hsplit : timesOf key (before ++ .record key time outcome :: later) =
      timesOf key before ++ time :: timesOf key later := by
    have hcheck : timeOf key (.record key time outcome) = some time := if_pos rfl
    rw [timesOf, List.filterMap_append, List.filterMap_cons_some hcheck]
    rfl
  rw [hsplit, List.nodup_append, List.nodup_cons] at h
  obtain ⟨-, ⟨hlater, -⟩, hbefore⟩ := h
  refine ⟨fun o hrecord => ?_, fun o hrecord => hlater (hmem hrecord)⟩
  exact hbefore time (hmem hrecord) time List.mem_cons_self rfl

/-- A row that is still there is one that no deletion reached. -/
lemma rowKept_of_mem {key : String} {time : Time} {outcome : CheckOutcome}
    {before later : List Change} (hbefore : ∀ o, Change.record key time o ∉ before)
    (hlater : ∀ o, Change.record key time o ∉ later)
    (h : ⟨key, time, outcome⟩ ∈
      (UptimeStore.after (before ++ .record key time outcome :: later)).checks) :
    rowKept time later = true := by
  have hone := UptimeStore.rawWeight_more outcome hbefore hlater
    fun route t => if route = key ∧ t = time then 1 else 0
  have hnone : UptimeStore.rawWeight (fun route t => if route = key ∧ t = time then 1 else 0)
      (.after (before ++ later)) = 0 := by
    refine List.sum_eq_zero fun n hn => ?_
    obtain ⟨row, hrow, rfl⟩ := List.mem_map.mp hn
    refine if_neg ?_
    rintro ⟨rfl, rfl⟩
    rcases List.mem_append.mp (UptimeStore.mem_checks_after hrow) with hrow | hrow
    · exact hbefore row.outcome hrow
    · exact hlater row.outcome hrow
  have hsome : 1 ≤ UptimeStore.rawWeight
      (fun route t => if route = key ∧ t = time then 1 else 0)
      (.after (before ++ .record key time outcome :: later)) :=
    List.single_le_sum (fun _ _ => Nat.zero_le _) 1 (List.mem_map.mpr ⟨_, h, by simp⟩)
  by_contra hgone
  rw [hone, hnone, if_neg hgone] at hsome
  omega

/-- The bars stand where they began. -/
lemma detail_bounds (store : UptimeStore) (key : String) (range : AnalyticsRange) (now : Time)
    {i : ℕ} (hi : i < BARS) :
    ∃ bar, (store.detail key range now)[i]? = some bar ∧
      bar.start = range.since now + range.width * i ∧
      bar.stop = range.since now + range.width * i + range.width := by
  have hmap : (store.detail key range now).map (fun bar => (bar.start, bar.stop)) =
      (emptyBars range now).map fun bar => (bar.start, bar.stop) := by
    have hhour : ∀ hour bar, ((UptimeBar.addHour hour bar).start, (UptimeBar.addHour hour bar).stop) =
        (bar.start, bar.stop) := fun _ _ => rfl
    have hcheck : ∀ check bar, ((UptimeBar.addCheck check bar).start,
        (UptimeBar.addCheck check bar).stop) = (bar.start, bar.stop) := fun _ _ => rfl
    rw [detail_eq, map_tally hhour, map_tally hcheck]
  have hat := congrArg (·[i]?) hmap
  simp only [List.getElem?_map, emptyBars, List.getElem?_range hi, Option.map_some] at hat
  obtain ⟨bar, hbar, hbounds⟩ := Option.map_eq_some_iff.mp hat
  exact ⟨bar, hbar, congrArg Prod.fst hbounds, congrArg Prod.snd hbounds⟩

/-- No bar counts more that passed than were made. -/
lemma detail_up_le (history : List Change) (key : String) (range : AnalyticsRange) (now : Time) :
    ∀ bar ∈ (UptimeStore.after history).detail key range now, bar.up ≤ bar.checks := by
  rw [detail_eq]
  refine forall_tally (fun hour hhour bar hbar => ?_)
    (forall_tally (fun check _ bar hbar => ?_) fun bar hbar => ?_)
  · obtain ⟨row, hrow, rfl⟩ := List.mem_map.mp (List.mem_of_mem_filter hhour)
    have hmem : row ∈ (UptimeStore.after history).hourly :=
      List.mem_of_mem_filter ((List.mem_insertionSort _).mp hrow)
    exact Nat.add_le_add hbar ((UptimeStore.summed_after history).up_le row hmem)
  · exact Nat.add_le_add hbar (Bool.toNat_le _)
  · obtain ⟨i, -, rfl⟩ := List.mem_map.mp hbar
    exact le_rfl

lemma counted_inPlace {key : String} {time : Time} {outcome : CheckOutcome}
    {before later : List Change} (hbefore : ∀ o, Change.record key time o ∉ before)
    (hlater : ∀ o, Change.record key time o ∉ later) {range : AnalyticsRange} {now : Time}
    (hkept : rowKept time later = true) (hsince : range.since now ≤ time) (hnow : time < now)
    (store : UptimeStore) :
    ∃ i bar, (store.detail key range now)[i]? = some bar ∧ bar.start ≤ time ∧ time < bar.stop ∧
      1 ≤ counted key range now before (.record key time outcome) later i := by
  obtain ⟨i, hslot⟩ : ∃ i, slot (range.since now) now range.width BARS time = some i :=
    ⟨_, if_pos ⟨hsince, hnow⟩⟩
  obtain ⟨hi, -, -, hstart, hstop⟩ := (slot_eq range now time i).mp hslot
  obtain ⟨bar, hbar, hfirst, hlast⟩ := detail_bounds store key range now hi
  refine ⟨i, bar, hbar, hfirst ▸ hstart, hlast ▸ hstop, ?_⟩
  rw [counted_eq hbefore hlater range now hi, if_pos hkept, rowIn, if_pos ⟨rfl, hslot⟩]
  push_cast
  exact le_add_of_nonneg_right (by positivity)

/-- The strip counts every check once if and only if of each check whose hour began in the range
exactly one of its row and its hour is read. -/
theorem countsOnce_iff (key : String) (range : AnalyticsRange) (now : Time)
    (history : List Change) (hdistinct : (timesOf key history).Nodup) :
    CountsOnce key range now history ↔
      ∀ before time outcome later, history = before ++ .record key time outcome :: later →
        range.since now ≤ hourOf time → time < now → ReadOnce now time later := by
  constructor
  · rintro ⟨honce, -, -, -⟩ before time outcome later rfl hsince hnow
    obtain ⟨hbefore, hlater⟩ := others_of_distinct hdistinct
    have hle := hourOf_le time
    have hsum := honce before time outcome later rfl
      (max_le (hsince.trans hle) ((whole_hour _ _).mpr hsince)) hnow
    rw [sum_counted hbefore hlater] at hsum
    rw [readOnce_iff]
    simp only [hsince.trans hle, hnow, hsince, true_and, and_true] at hsum
    exact_mod_cast hsum
  · intro h
    have hsum : ∀ before time outcome later,
        history = before ++ .record key time outcome :: later →
        range.since now ≤ hourOf time → time < now →
        ∑ i ∈ Finset.range BARS,
          counted key range now before (.record key time outcome) later i = 1 := by
      rintro before time outcome later rfl hsince hnow
      obtain ⟨hbefore, hlater⟩ := others_of_distinct hdistinct
      have hread := readOnce_iff.mp (h before time outcome later rfl hsince hnow)
      rw [sum_counted hbefore hlater]
      simp only [hsince.trans (hourOf_le time), hnow, hsince, true_and, and_true]
      exact_mod_cast hread
    refine ⟨?_, ?_, ?_, detail_up_le history key range now⟩
    · intro before time outcome later hhistory hwhole hnow
      exact hsum before time outcome later hhistory
        ((whole_hour _ _).mp ((le_max_right _ _).trans hwhole)) hnow
    · intro before time outcome later hhistory
      by_cases hin : range.since now ≤ hourOf time ∧ time < now
      · exact (hsum before time outcome later hhistory hin.1 hin.2).le
      · subst hhistory
        obtain ⟨hbefore, hlater⟩ := others_of_distinct hdistinct
        have hhour : ¬ (hourKept time later = true ∧ range.since now ≤ hourOf time ∧
            hourOf time < now - RAW_RETENTION_MS) := by
          rintro ⟨-, hsince, hbelow⟩
          have hlt := (hourOf_bounds time).2
          refine hin ⟨hsince, ?_⟩
          simp only [RAW_RETENTION_MS, HOUR_MS] at hbelow hlt
          linarith
        rw [sum_counted hbefore hlater, if_neg hhour, Nat.add_zero]
        split_ifs <;> simp
    · intro before time outcome later hhistory hrow hsince hnow
      subst hhistory
      obtain ⟨hbefore, hlater⟩ := others_of_distinct hdistinct
      exact counted_inPlace hbefore hlater (rowKept_of_mem hbefore hlater hrow) hsince hnow _

/-- A check of five days ago, whose row was deleted two days ago, and one of the last hour. -/
theorem countsOnce_fiveDays :
    CountsOnce "app.example.com" .week 1728000000
      [.record "app.example.com" 1296000000 ⟨true, none⟩, .prune 1555200000,
        .record "app.example.com" 1724400001 ⟨false, some .timeout⟩] := by
  refine (countsOnce_iff _ _ _ _ (by decide)).mpr ?_
  intro before time outcome later h _ _
  rw [readOnce_iff]
  rcases before with _ | ⟨first, _ | ⟨second, _ | ⟨third, before⟩⟩⟩
  · simp only [List.nil_append, List.cons.injEq, Change.record.injEq] at h
    obtain ⟨⟨-, rfl, -⟩, rfl⟩ := h
    decide
  · simp at h
  · simp only [List.cons_append, List.nil_append, List.cons.injEq, Change.record.injEq] at h
    obtain ⟨-, -, ⟨-, rfl, -⟩, rfl⟩ := h
    decide
  · simp at h

/-- The rows' retention begins in the middle of an hour: a check of that minute is still a row when
its hour is already read from the sums. -/
theorem strip_countsTwice :
    ¬ CountsOnce "app.example.com" .week 1729800000
      [.record "app.example.com" 1557000000 ⟨true, none⟩, .prune 1729800000] := by
  intro h
  have htwice := h.notTwice [] 1557000000 ⟨true, none⟩ [.prune 1729800000] rfl
  rw [sum_counted (fun o ho => absurd ho List.not_mem_nil) (fun o ho => by simp at ho)] at htwice
  revert htwice
  decide

end Teitunnel.Uptime
