import Mathlib

/-!
# Token buckets

A bucket fills at a rate up to its burst.  Who takes more tokens than there are waits until the
debt is paid.  What may go by a time is bounded by the rate, whoever takes and however often, and
nobody waits longer than the rate needs for what was taken since the bucket was full.
-/

namespace TokenBucket

/-- Tokens taken from a bucket: when, how many it had, how many were taken, and from when on what
they are for may go. -/
structure Taken (K : Type*) where
  time : K
  level : K
  amount : K
  release : K
  deriving DecidableEq

variable {K : Type*}

/-- The taken since the bucket was full, and the time it was. -/
def SinceFull (burst : K) (taken : List (Taken K)) (full : Taken K) (since : List (Taken K)) : Prop :=
  (∃ before, taken = before ++ full :: since) ∧ full.level = burst ∧ ∀ r ∈ since, r.level ≠ burst

lemma SinceFull.snoc {burst : K} {taken since : List (Taken K)} {full r : Taken K}
    (h : SinceFull burst taken full since) (hr : r.level ≠ burst) :
    SinceFull burst (taken ++ [r]) full (since ++ [r]) := by
  obtain ⟨⟨before, rfl⟩, hfull, hsince⟩ := h
  refine ⟨⟨before, by rw [List.append_assoc, List.cons_append]⟩, hfull, ?_⟩
  intro r' hr'
  rcases List.mem_append.mp hr' with hr' | hr'
  · exact hsince r' hr'
  · rwa [List.mem_singleton.mp hr']

variable [Field K]

def total (taken : List (Taken K)) : K := (taken.map Taken.amount).sum

lemma total_append (taken taken' : List (Taken K)) :
    total (taken ++ taken') = total taken + total taken' := by
  rw [total, List.map_append, List.sum_append]
  rfl

lemma total_singleton (r : Taken K) : total [r] = r.amount := List.sum_singleton

variable [LinearOrder K]

/-- What may go by a time. -/
def released (time : K) (taken : List (Taken K)) : K :=
  total (taken.filter fun r => r.release ≤ time)

lemma released_snoc (time : K) (taken : List (Taken K)) (r : Taken K) :
    released time (taken ++ [r]) = released time taken + if r.release ≤ time then r.amount else 0 := by
  rw [released, List.filter_append, total_append]
  congr 1
  rw [List.filter_singleton]
  by_cases h : r.release ≤ time
  · rw [decide_eq_true h, if_pos h]
    exact total_singleton r
  · rw [decide_eq_false h, if_neg h]
    rfl

/-- The tokens of a bucket at a time, from those it had at an earlier one. -/
def refill (rate burst tokens last now : K) : K := min (tokens + (now - last) * rate) burst

/-- How long to wait when so many tokens are left, or missing. -/
def wait (rate left : K) : K := if 0 ≤ left then 0 else -left / rate

/-- The tokens left in a bucket and when they were taken from it last, after what was taken since
time 0. -/
inductive Paced (rate burst : K) : List (Taken K) → (tokens last : K) → Prop
  | start : Paced rate burst [] burst 0
  | take {taken : List (Taken K)} {tokens last now amount : K}
      (h : Paced rate burst taken tokens last) (hnow : last ≤ now) (hamount : 0 ≤ amount) :
      Paced rate burst
        (taken ++ [{ time := now
                     level := refill rate burst tokens last now
                     amount
                     release := now + wait rate (refill rate burst tokens last now - amount) }])
        (refill rate burst tokens last now - amount) now

variable {rate burst tokens last : K} {taken : List (Taken K)}

lemma Paced.last_nonneg (h : Paced rate burst taken tokens last) : 0 ≤ last := by
  induction h with
  | start => exact le_rfl
  | take h hnow hamount ih => exact ih.trans hnow

/-- What is left of what flowed in since the bucket was full. -/
lemma Paced.since_full (h : Paced rate burst taken tokens last) {full : Taken K}
    {since : List (Taken K)} (hfull : SinceFull burst taken full since) :
    tokens = burst + (last - full.time) * rate - total (full :: since) ∧
      ∀ r ∈ (full :: since).getLast?, r.time = last ∧ r.release = last + wait rate tokens := by
  induction h generalizing since with
  | start =>
      obtain ⟨⟨before, hsplit⟩, -⟩ := hfull
      exact absurd hsplit.symm (List.append_ne_nil_of_right_ne_nil _ (List.cons_ne_nil _ _))
  | @take taken tokens last now amount h hnow hamount ih =>
      obtain ⟨⟨before, hsplit⟩, hlevel, hsince⟩ := hfull
      rcases List.eq_nil_or_concat since with rfl | ⟨since', r, rfl⟩
      · -- The bucket was full just now.
        obtain ⟨-, hlast⟩ := List.append_inj' hsplit rfl
        obtain rfl := (List.singleton_inj.mp hlast).symm
        dsimp only at hlevel
        refine ⟨?_, fun r hr => ?_⟩
        · rw [total_singleton, hlevel, sub_self, zero_mul, add_zero]
        · obtain rfl := Option.some.inj hr
          exact ⟨rfl, rfl⟩
      · rw [List.concat_eq_append, ← List.cons_append, ← List.append_assoc] at hsplit
        obtain ⟨hbefore, hlast⟩ := List.append_inj' hsplit rfl
        obtain rfl := (List.singleton_inj.mp hlast).symm
        rw [List.concat_eq_append] at hsince ⊢
        have hnotFull := hsince _ (List.mem_append_right _ (List.mem_singleton_self _))
        dsimp only at hnotFull
        have hbelow : refill rate burst tokens last now = tokens + (now - last) * rate := by
          rw [refill] at hnotFull ⊢
          exact min_eq_left (le_of_not_ge fun hge => hnotFull (min_eq_right hge))
        obtain ⟨htokens, -⟩ := ih ⟨⟨before, hbefore⟩, hlevel, fun r hr =>
          hsince r (List.mem_append_left _ hr)⟩
        refine ⟨?_, fun r hr => ?_⟩
        · rw [← List.cons_append, total_append, total_singleton, hbelow, htokens]
          dsimp only
          ring
        · rw [← List.cons_append, List.getLast?_concat] at hr
          obtain rfl := Option.some.inj hr
          exact ⟨rfl, rfl⟩

lemma Paced.of_nil (h : Paced rate burst taken tokens last) (hnil : taken = []) :
    tokens = burst := by
  cases h with
  | start => rfl
  | take => exact absurd hnil (List.append_ne_nil_of_right_ne_nil _ (List.cons_ne_nil _ _))

/-- What was taken first was taken from the same bucket. -/
lemma Paced.of_append {taken' : List (Taken K)} (h : Paced rate burst (taken ++ taken') tokens last) :
    ∃ tokens last, Paced rate burst taken tokens last := by
  induction taken' using List.reverseRecOn generalizing tokens last with
  | nil => exact ⟨tokens, last, by rwa [List.append_nil] at h⟩
  | append_singleton taken' r ih =>
      rw [← List.append_assoc] at h
      generalize htaken : taken ++ taken' ++ [r] = all at h
      cases h with
      | start => exact absurd htaken (List.append_ne_nil_of_right_ne_nil _ (List.cons_ne_nil _ _))
      | take h =>
          obtain ⟨rfl, -⟩ := List.append_inj' htaken rfl
          exact ih h

variable [IsStrictOrderedRing K]

lemma wait_nonneg (hrate : 0 < rate) (left : K) : 0 ≤ wait rate left := by
  rw [wait]
  split_ifs with h
  · exact le_rfl
  · exact div_nonneg (by linarith) hrate.le

/-- The debt is paid when the wait is over. -/
lemma neg_le_wait (hrate : 0 < rate) (left : K) : -left ≤ wait rate left * rate := by
  rw [wait]
  split_ifs with h
  · linarith
  · rw [div_mul_cancel₀ _ hrate.ne']

lemma Paced.released_le_total (h : Paced rate burst taken tokens last) (time : K) :
    released time taken ≤ total taken := by
  induction h with
  | start => exact le_rfl
  | take h hnow hamount ih =>
      rw [released_snoc, total_append, total_singleton]
      split_ifs
      · exact add_le_add_left ih _
      · dsimp only
        linarith

/-- All that was taken, and what is left, has flowed in. -/
lemma Paced.total_le (h : Paced rate burst taken tokens last) :
    total taken + tokens ≤ burst + last * rate := by
  induction h with
  | start => rw [total, List.map_nil, List.sum_nil, zero_add, zero_mul, add_zero]
  | @take taken tokens last now amount h hnow hamount ih =>
      have hrefill : refill rate burst tokens last now ≤ tokens + (now - last) * rate :=
        min_le_left _ _
      rw [total_append, total_singleton]
      dsimp only
      linarith

/-- By any time no more may go than the burst and what the rate has brought. -/
lemma Paced.released_le (h : Paced rate burst taken tokens last) (hrate : 0 < rate)
    (hburst : 0 ≤ burst) {time : K} (htime : 0 ≤ time) :
    released time taken ≤ burst + time * rate := by
  induction h with
  | start =>
      have hflow := mul_nonneg htime hrate.le
      rw [released, List.filter_nil, total, List.map_nil, List.sum_nil]
      linarith
  | @take taken tokens last now amount h hnow hamount ih =>
      rw [released_snoc]
      dsimp only
      split_ifs with hrelease
      · -- Its release is the time at which all that was taken has flowed in.
        have htotal := (h.take hnow hamount).total_le
        rw [total_append, total_singleton] at htotal
        dsimp only at htotal
        have hreleased := h.released_le_total time
        have hwait := neg_le_wait hrate (refill rate burst tokens last now - amount)
        have hflow := mul_le_mul_of_nonneg_right hrelease hrate.le
        rw [add_mul] at hflow
        linarith
      · rw [add_zero]
        exact ih

lemma Paced.tokens_le (h : Paced rate burst taken tokens last) : tokens ≤ burst := by
  cases h with
  | start => exact le_rfl
  | take h hnow hamount => exact (sub_le_self _ hamount).trans (min_le_right _ _)

/-- Nobody waits longer than the rate needs for what was taken since the bucket was full. -/
lemma Paced.release_le (h : Paced rate burst taken tokens last) (hrate : 0 < rate)
    (hburst : 0 ≤ burst) {full r : Taken K} {since : List (Taken K)}
    (hfull : SinceFull burst taken full since) (hr : r ∈ (full :: since).getLast?) :
    r.release ≤ full.time + total (full :: since) / rate := by
  obtain ⟨htokens, hlast⟩ := h.since_full hfull
  obtain ⟨-, hrelease⟩ := hlast r hr
  have hle := h.tokens_le
  rw [← sub_le_iff_le_add', le_div_iff₀ hrate, hrelease, wait, sub_mul, add_mul]
  rw [sub_mul] at htokens
  split_ifs with hpaid
  · linarith
  · rw [div_mul_cancel₀ _ hrate.ne']
    linarith

/-- At first the bucket is full. -/
lemma Paced.exists_full (h : Paced rate burst taken tokens last) (hrate : 0 < rate)
    (hne : taken ≠ []) : ∃ full since, SinceFull burst taken full since := by
  induction h with
  | start => exact absurd rfl hne
  | @take taken tokens last now amount h hnow hamount ih =>
      by_cases hlevel : refill rate burst tokens last now = burst
      · refine ⟨_, [], ⟨taken, rfl⟩, hlevel, ?_⟩
        intro r hr
        exact absurd hr List.not_mem_nil
      · have htaken : taken ≠ [] := by
          intro hnil
          have hfirst := h.of_nil hnil
          have hflow := mul_nonneg (sub_nonneg.mpr hnow) hrate.le
          exact hlevel (min_eq_right (by linarith))
        obtain ⟨full, since, hfull⟩ := ih htaken
        exact ⟨full, _, hfull.snoc hlevel⟩

end TokenBucket
