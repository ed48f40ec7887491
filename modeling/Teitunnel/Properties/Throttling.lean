import Teitunnel.Lens.Throttle

/-!
# Throttled bodies

What a throttled body gives is what its inner body gave, in the same order; the bytes that are
missing are in hand.  However many bodies share the bucket and however they are polled, what they
let through by a time was reserved to go by then, and what is reserved keeps to the rate.
-/

namespace Teitunnel.Lens.Sim

open TokenBucket

/-- What a poll gives, byte by byte. -/
def Polled.parts : Polled → List Polled
  | .pending => []
  | .data bytes => bytes.map fun b => .data [b]
  | other => [other]

namespace ThrottledBody

/-- The bytes in hand. -/
def held (this : ThrottledBody) : List UInt8 := this.ready.getD [] ++ this.rest.getD []

/-- A chunk waits for the end of its debt. -/
def Waits (this : ThrottledBody) (now : ℚ) : Prop :=
  ∃ data wake, this.ready = some data ∧ this.sleep = some wake ∧ now < wake

/-- The bytes in hand that may go by a time. -/
def due (this : ThrottledBody) (time : ℚ) : ℚ :=
  match this.ready, this.sleep with
  | some data, some wake => if wake ≤ time then data.length else 0
  | _, _ => 0

/-- A chunk in hand was reserved, to go when its sleep ends. -/
structure Paid (this : ThrottledBody) (bucket : Bucket) : Prop where
  sleeps : this.ready.isSome = this.sleep.isSome
  reserved : ∀ data wake, this.ready = some data → this.sleep = some wake →
    ∃ r ∈ bucket.reserved, r.amount = data.length ∧ r.release = wake

end ThrottledBody

/-- The bucket has what is left after all that was reserved. -/
structure Bucket.Fair (bucket : Bucket) : Prop where
  rate_pos : 0 < bucket.rate
  burst_nonneg : 0 ≤ bucket.burst
  paced : Paced bucket.rate bucket.burst bucket.reserved bucket.tokens bucket.last

/-- What was let through by a time. -/
def passedBy (time : ℚ) (passed : List (ℚ × ℕ)) : ℚ :=
  ((passed.filter fun p => p.1 ≤ time).map fun p => (p.2 : ℚ)).sum

lemma passedBy_snoc (time now : ℚ) (n : ℕ) (passed : List (ℚ × ℕ)) :
    passedBy time (passed ++ [(now, n)]) =
      passedBy time passed + if now ≤ time then (n : ℚ) else 0 := by
  rw [passedBy, List.filter_append, List.map_append, List.sum_append, List.filter_singleton]
  by_cases h : now ≤ time
  · rw [decide_eq_true h, if_pos h]
    simp only [cond_true, List.map_cons, List.map_nil, List.sum_cons, List.sum_nil, add_zero]
    rfl
  · rw [decide_eq_false h, if_neg h]
    rfl

/-! ## The bucket -/

namespace Bucket

variable {bucket : Bucket} {now : ℚ}

lemma reserve_wait (bucket : Bucket) (now : ℚ) (n : ℕ) :
    (bucket.reserve now n).1 =
      TokenBucket.wait bucket.rate
        (refill bucket.rate bucket.burst bucket.tokens bucket.last now - n) := rfl

lemma reserve_reserved (bucket : Bucket) (now : ℚ) (n : ℕ) :
    ∃ level, (bucket.reserve now n).2.reserved = bucket.reserved ++
      [{ time := now, level, amount := n, release := now + (bucket.reserve now n).1 }] :=
  ⟨_, rfl⟩

lemma Fair.reserve (h : bucket.Fair) (hnow : bucket.last ≤ now) (n : ℕ) :
    (bucket.reserve now n).2.Fair :=
  ⟨h.rate_pos, h.burst_nonneg, h.paced.take hnow (Nat.cast_nonneg n)⟩

lemma fair_new (bytesPerSec : ℕ) : (Bucket.new bytesPerSec).Fair where
  rate_pos := lt_of_lt_of_le one_pos (le_max_right _ _)
  burst_nonneg := le_trans (Nat.cast_nonneg THROTTLE_CHUNK) (le_max_right _ _)
  paced := .start

end Bucket

/-! ## A poll -/

/-- What polling a body does: what it gives and what is in hand then is what was in hand and what
the inner body gave; what may go by a time was paid for; and when it gives nothing, it waits for the
chunk in hand or for the inner body. -/
structure Polls (body : ThrottledBody) (bucket : Bucket) (now : ℚ) (polled : Polled)
    (body' : ThrottledBody) (bucket' : Bucket) : Prop where
  flows : ∃ came, body.inner = came ++ body'.inner ∧
    body.held.map (fun b => Polled.data [b]) ++ came.flatMap Polled.parts =
      polled.parts ++ body'.held.map (fun b => Polled.data [b]) ∧
    (polled = .pending → body'.Waits now ∨
      body'.held = [] ∧ (came.getLast? = some .pending ∨ body'.inner = []))
  fair : bucket'.Fair
  rate : bucket'.rate = bucket.rate
  burst : bucket'.burst = bucket.burst
  last : bucket'.last ≤ now
  reserved : bucket.reserved <+: bucket'.reserved
  paid : body'.Paid bucket'
  due : ∀ time, (if now ≤ time then (polled.size : ℚ) else 0) + body'.due time +
    released time bucket.reserved ≤ body.due time + released time bucket'.reserved

namespace ThrottledBody

variable {this : ThrottledBody} {bucket : Bucket} {now : ℚ}

/-- With nothing in hand. -/
lemma due_of_none (h : this.ready = none) (time : ℚ) : this.due time = 0 := by
  rw [due, h]

/-- A chunk is reserved; without a debt it goes at once. -/
lemma scheduled_cases (this : ThrottledBody) (bucket : Bucket) (now : ℚ) (data : List UInt8) :
    let rest := (if data.length > THROTTLE_CHUNK then some (data.drop THROTTLE_CHUNK) else
      none).filter fun rest => !rest.isEmpty
    let chunk := data.take THROTTLE_CHUNK
    let wait := (bucket.reserve now chunk.length).1
    let bucket' := (bucket.reserve now chunk.length).2
    this.scheduled bucket now data =
      if wait = 0 then (.data chunk, { this with ready := none, rest, sleep := none }, bucket')
      else if now < now + wait then
        (.pending, { this with ready := some chunk, rest, sleep := some (now + wait) }, bucket')
      else (.data chunk, { this with ready := none, rest, sleep := none }, bucket') := by
  intro rest chunk wait bucket'
  have hschedule : this.schedule bucket now data =
      ({ this with ready := some chunk, rest, sleep := if wait = 0 then none else some (now + wait) },
        bucket') := rfl
  rw [scheduled, hschedule]
  dsimp only
  rw [giveReady, Option.map_some]
  by_cases hwait : wait = 0
  · rw [if_pos hwait, if_pos hwait]
  · rw [if_neg hwait, if_neg hwait]
    dsimp only
    by_cases hlt : now < now + wait
    · rw [if_pos hlt, if_pos hlt]
    · rw [if_neg hlt, if_neg hlt]

lemma held_rest (data : List UInt8) :
    data.take THROTTLE_CHUNK ++ ((if data.length > THROTTLE_CHUNK then
      some (data.drop THROTTLE_CHUNK) else none).filter fun rest => !rest.isEmpty).getD [] = data := by
  split_ifs with hlong
  · have hne : (data.drop THROTTLE_CHUNK).isEmpty = false := by
      rw [List.isEmpty_eq_false_iff, Ne, List.drop_eq_nil_iff]
      omega
    rw [Option.filter_some, hne]
    exact List.take_append_drop _ _
  · rw [Option.filter_none, Option.getD_none, List.append_nil]
    exact List.take_of_length_le (by omega)

/-- What polls do with `data` in hand, unpaid, they do by scheduling it. -/
lemma polls_scheduled (this next : ThrottledBody) (hfair : bucket.Fair) (hlast : bucket.last ≤ now)
    (hready : this.ready = none) (data : List UInt8) (hrest : this.rest = some data)
    (hinner : next.inner = this.inner) :
    Polls this bucket now (next.scheduled bucket now data).1 (next.scheduled bucket now data).2.1
      (next.scheduled bucket now data).2.2 := by
  have hcases := scheduled_cases next bucket now data
  dsimp only at hcases
  have hheld := held_rest data
  obtain ⟨level, hreserved⟩ := bucket.reserve_reserved now (data.take THROTTLE_CHUNK).length
  have hfair' := hfair.reserve hlast (data.take THROTTLE_CHUNK).length
  have hwait := wait_nonneg hfair.rate_pos (refill bucket.rate bucket.burst bucket.tokens
    bucket.last now - (data.take THROTTLE_CHUNK).length)
  rw [← Bucket.reserve_wait] at hwait
  have hrate : (bucket.reserve now (data.take THROTTLE_CHUNK).length).2.rate = bucket.rate := rfl
  have hburst : (bucket.reserve now (data.take THROTTLE_CHUNK).length).2.burst = bucket.burst := rfl
  have hlast' : (bucket.reserve now (data.take THROTTLE_CHUNK).length).2.last = now := rfl
  generalize (bucket.reserve now (data.take THROTTLE_CHUNK).length).1 = wait at *
  generalize (bucket.reserve now (data.take THROTTLE_CHUNK).length).2 = bucket' at *
  generalize Option.filter _ _ = rest at *
  generalize data.take THROTTLE_CHUNK = chunk at *
  have hhand : this.held = data := by rw [held, hready, hrest]; rfl
  have hprefix : bucket.reserved <+: bucket'.reserved := ⟨_, hreserved.symm⟩
  rw [hcases]
  by_cases hzero : wait = 0
  · rw [if_pos hzero]
    refine ⟨⟨[], hinner.symm, ?_, by rintro ⟨⟩⟩, hfair', hrate, hburst, hlast'.le, hprefix,
      ⟨rfl, by rintro _ _ ⟨⟩⟩, ?_⟩
    · rw [hhand, ← hheld]
      simp [held, Polled.parts]
    · intro time
      rw [due_of_none hready, due_of_none rfl, hreserved, released_snoc, hzero, add_zero]
      simp only [Polled.size, add_zero, zero_add]
      rw [add_comm]
  · have hlt : now < now + wait := lt_add_of_pos_right _ (lt_of_le_of_ne hwait (Ne.symm hzero))
    rw [if_neg hzero, if_pos hlt]
    refine ⟨⟨[], hinner.symm, ?_, fun _ => .inl ⟨_, _, rfl, rfl, hlt⟩⟩, hfair', hrate, hburst,
      hlast'.le, hprefix, ⟨rfl, ?_⟩, ?_⟩
    · rw [hhand, ← hheld]
      simp [held, Polled.parts]
    · rintro _ _ ⟨⟩ ⟨⟩
      refine ⟨⟨now, level, chunk.length, now + wait⟩, ?_, rfl, rfl⟩
      rw [hreserved]
      exact List.mem_append_right _ (List.mem_singleton_self _)
    · intro time
      rw [due_of_none hready, hreserved, released_snoc]
      simp only [Polled.size, due, Nat.cast_zero, ite_self, zero_add]
      rw [add_comm]

/-- A chunk in hand is waited for, or given. -/
lemma polls_ready (hfair : bucket.Fair) (hlast : bucket.last ≤ now) (hpaid : this.Paid bucket)
    {polled : Polled} {next : ThrottledBody} (h : this.giveReady now = some (polled, next)) :
    Polls this bucket now polled next bucket := by
  obtain ⟨data, hready, hgive⟩ := Option.map_eq_some_iff.mp h
  obtain ⟨wake, hsleep⟩ : ∃ wake, this.sleep = some wake := by
    rw [← Option.isSome_iff_exists, ← hpaid.sleeps, hready]
    rfl
  rw [hsleep] at hgive
  dsimp only at hgive
  split_ifs at hgive with hlt
  · obtain ⟨rfl, rfl⟩ := Prod.mk.inj hgive
    refine ⟨⟨[], rfl, ?_, fun _ => .inl ⟨data, wake, hready, hsleep, hlt⟩⟩, hfair, rfl, rfl, hlast,
      List.prefix_rfl, hpaid, ?_⟩
    · rw [List.flatMap_nil, List.append_nil]
      rfl
    · intro time
      simp only [Polled.size, Nat.cast_zero, ite_self, zero_add, le_refl]
  · obtain ⟨rfl, rfl⟩ := Prod.mk.inj hgive
    refine ⟨⟨[], rfl, ?_, by rintro ⟨⟩⟩, hfair, rfl, rfl, hlast, List.prefix_rfl,
      ⟨rfl, by rintro _ _ ⟨⟩⟩, ?_⟩
    · rw [held, held, hready]
      simp [Polled.parts]
    · intro time
      rw [due_of_none rfl, due, hready, hsleep]
      dsimp only [Polled.size]
      rw [add_zero]
      gcongr ?_ + _
      by_cases htime : now ≤ time
      · rw [if_pos htime, if_pos ((not_lt.mp hlt).trans htime)]
      · rw [if_neg htime]
        split_ifs
        · exact Nat.cast_nonneg _
        · exact le_rfl

/-- With nothing in hand, the bytes of what is taken from the inner body are in hand next. -/
lemma polls_of_skipped (next : ThrottledBody) (came : List Polled) {body' : ThrottledBody}
    {bucket' : Bucket} {polled : Polled} (hready : this.ready = none) (hrest : this.rest = none)
    (hnext : next.ready = none) (hinner : this.inner = came ++ next.inner)
    (hcame : came.flatMap Polled.parts = (next.rest.getD []).map fun b => Polled.data [b])
    (h : Polls next bucket now polled body' bucket') :
    Polls this bucket now polled body' bucket' := by
  obtain ⟨more, hmore, hflow, hwaits⟩ := h.flows
  refine ⟨⟨came ++ more, ?_, ?_, ?_⟩, h.fair, h.rate, h.burst, h.last, h.reserved, h.paid, ?_⟩
  · rw [hinner, hmore, List.append_assoc]
  · rw [← hflow, List.flatMap_append, hcame, held, held, hready, hrest, hnext]
    simp
  · intro hpending
    rcases hwaits hpending with hsleep | ⟨hheld, hlast | hend⟩
    · exact .inl hsleep
    · refine .inr ⟨hheld, .inl ?_⟩
      rw [List.getLast?_append, hlast]
      rfl
    · exact .inr ⟨hheld, .inr hend⟩
  · intro time
    have hdue := h.due time
    rw [due_of_none hnext] at hdue
    rwa [due_of_none hready]

/-- What comes from the inner body and is not data is given as it is. -/
lemma polls_other (hfair : bucket.Fair) (hlast : bucket.last ≤ now) (hready : this.ready = none)
    (hrest : this.rest = none) (hsleep : this.sleep = none) {other : Polled} {inner : List Polled}
    (hinner : this.inner = other :: inner) (hother : other.size = 0) :
    Polls this bucket now other { this with inner } bucket := by
  have hnone : this.held = [] := by rw [held, hready, hrest]; rfl
  refine ⟨⟨[other], hinner, ?_, ?_⟩, hfair, rfl, rfl, hlast, List.prefix_rfl, ⟨?_, ?_⟩, ?_⟩
  · have hnone' : ThrottledBody.held { this with inner } = [] := hnone
    rw [hnone, hnone', List.flatMap_singleton, List.map_nil, List.nil_append, List.append_nil]
  · rintro rfl
    exact .inr ⟨hnone, .inl rfl⟩
  · show this.ready.isSome = this.sleep.isSome
    rw [hready, hsleep]
    rfl
  · intro data wake hdata
    cases hready.symm.trans hdata
  · intro time
    have hdue : ThrottledBody.due { this with inner } time = 0 := due_of_none hready time
    rw [hdue, due_of_none hready, hother, Nat.cast_zero, ite_self, zero_add, zero_add]

lemma pollInner_inner (this : ThrottledBody) (bucket : Bucket) (now : ℚ) (inner inner' : List Polled) :
    { this with inner := inner' }.pollInner bucket now inner = this.pollInner bucket now inner := by
  induction inner with
  | nil => rfl
  | cons polled inner ih =>
      rcases polled with _ | (_ | ⟨b, bytes⟩) | fields | error | _
      · rfl
      · rw [pollInner, pollInner, ih]
      · rfl
      · rfl
      · rfl
      · rfl

/-- Polling the inner body; the induction is on what it will give. -/
lemma polls_inner (hfair : bucket.Fair) (hlast : bucket.last ≤ now) (inner : List Polled)
    (this : ThrottledBody) (hready : this.ready = none) (hrest : this.rest = none)
    (hsleep : this.sleep = none) (hinner : this.inner = inner) :
    Polls this bucket now (this.pollInner bucket now inner).1 (this.pollInner bucket now inner).2.1
      (this.pollInner bucket now inner).2.2 := by
  induction inner generalizing this with
  | nil =>
      have hnone : this.held = [] := by rw [held, hready, hrest]; rfl
      have hsame : ({ this with inner := [] } : ThrottledBody) = this := by rw [← hinner]
      rw [pollInner, hsame]
      refine ⟨⟨[], rfl, ?_, fun _ => .inr ⟨hnone, .inr hinner⟩⟩, hfair, rfl, rfl, hlast,
        List.prefix_rfl, ⟨?_, ?_⟩, ?_⟩
      · rw [hnone]
        rfl
      · rw [hready, hsleep]
        rfl
      · intro data wake hdata
        cases hready.symm.trans hdata
      · intro time
        simp only [Polled.size, Nat.cast_zero, ite_self, zero_add, le_refl]
  | cons polled inner ih =>
      rcases polled with _ | (_ | ⟨b, bytes⟩) | fields | error | _
      · exact polls_other hfair hlast hready hrest hsleep hinner rfl
      · -- Frames without data are skipped.
        have hpolls := ih { this with inner } hready hrest hsleep rfl
        rw [pollInner_inner] at hpolls
        rw [pollInner]
        refine polls_of_skipped { this with inner } [.data []] hready hrest hready hinner ?_ hpolls
        rw [hrest]
        rfl
      · have hpolls := polls_scheduled { this with inner, rest := some (b :: bytes) }
          { this with inner } hfair hlast hready (b :: bytes) rfl rfl
        have htaken : this.pollInner bucket now (.data (b :: bytes) :: inner) =
          { this with inner }.scheduled bucket now (b :: bytes) := rfl
        rw [htaken]
        refine polls_of_skipped { this with inner, rest := some (b :: bytes) }
          [.data (b :: bytes)] hready hrest hready hinner ?_ hpolls
        rw [List.flatMap_singleton]
        rfl
      · exact polls_other hfair hlast hready hrest hsleep hinner rfl
      · exact polls_other hfair hlast hready hrest hsleep hinner rfl
      · exact polls_other hfair hlast hready hrest hsleep hinner rfl

/-- What every poll does. -/
lemma polls_pollFrame (hfair : bucket.Fair) (hlast : bucket.last ≤ now) (hpaid : this.Paid bucket) :
    Polls this bucket now (this.pollFrame bucket now).1 (this.pollFrame bucket now).2.1
      (this.pollFrame bucket now).2.2 := by
  rw [pollFrame]
  cases hgive : this.giveReady now with
  | some given => exact polls_ready hfair hlast hpaid hgive
  | none =>
      have hready : this.ready = none := Option.map_eq_none_iff.mp hgive
      have hsleep : this.sleep = none := by
        rw [← Option.not_isSome_iff_eq_none, ← hpaid.sleeps, hready]
        exact Bool.false_ne_true
      cases hrest : this.rest with
      | some rest => exact polls_scheduled this _ hfair hlast hready rest hrest rfl
      | none => exact polls_inner hfair hlast this.inner this hready hrest hsleep rfl

lemma held_of_isEndStream {inner : Bool} (h : this.isEndStream inner = true) :
    inner = true ∧ this.held = [] := by
  simp only [isEndStream, Bool.and_eq_true, Option.isNone_iff_eq_none] at h
  obtain ⟨⟨hready, hrest⟩, hinner⟩ := h
  refine ⟨hinner, ?_⟩
  rw [held, hready, hrest]
  rfl

lemma Paid.mono {bucket' : Bucket} (h : this.Paid bucket)
    (hreserved : bucket.reserved <+: bucket'.reserved) : this.Paid bucket' := by
  refine ⟨h.sleeps, fun data wake hdata hwake => ?_⟩
  obtain ⟨r, hr, hpaid⟩ := h.reserved data wake hdata hwake
  exact ⟨r, hreserved.subset hr, hpaid⟩

end ThrottledBody

/-! ## All bodies -/

/-- What a body gave is what its inner body gave, in the same order, but for the bytes in hand. -/
def Stream.Unchanged (stream : Stream) : Prop :=
  ∃ came, stream.script = came ++ stream.body.inner ∧
    came.flatMap Polled.parts =
      stream.given.flatMap Polled.parts ++ stream.body.held.map fun b => .data [b]

/-- What is in hand of all bodies and may go by a time. -/
def dueBy (time : ℚ) (streams : List Stream) : ℚ :=
  (streams.map fun stream => stream.body.due time).sum

lemma dueBy_nonneg (time : ℚ) (streams : List Stream) : 0 ≤ dueBy time streams := by
  refine List.sum_nonneg ?_
  intro x hx
  obtain ⟨stream, -, rfl⟩ := List.mem_map.mp hx
  rw [ThrottledBody.due]
  split
  · split_ifs
    · exact Nat.cast_nonneg _
    · exact le_rfl
  · exact le_rfl

lemma dueBy_set (time : ℚ) {streams : List Stream} {i : ℕ} {stream : Stream}
    (h : streams[i]? = some stream) (next : Stream) :
    dueBy time (streams.set i next) + stream.body.due time =
      dueBy time streams + next.body.due time := by
  induction streams generalizing i with
  | nil => cases h
  | cons first rest ih =>
      cases i with
      | zero =>
          obtain rfl := Option.some.inj h
          simp only [dueBy, List.set_cons_zero, List.map_cons, List.sum_cons]
          ring
      | succ i =>
          have hrest := ih h
          simp only [dueBy, List.set_cons_succ, List.map_cons, List.sum_cons] at hrest ⊢
          linarith

/-- What holds of a direction of a tap at any time. -/
structure Throttle.Orderly (bytesPerSec : ℕ) (s : Throttle) : Prop where
  fair : s.bucket.Fair
  rate : s.bucket.rate = (Bucket.new bytesPerSec).rate
  burst : s.bucket.burst = (Bucket.new bytesPerSec).burst
  last : s.bucket.last ≤ s.now
  paid : ∀ stream ∈ s.streams, stream.body.Paid s.bucket
  unchanged : ∀ stream ∈ s.streams, stream.Unchanged
  due : ∀ time, passedBy time s.passed + dueBy time s.streams ≤ released time s.bucket.reserved

namespace Throttle

variable {bytesPerSec : ℕ} {s t : Throttle}

lemma orderly_new (bytesPerSec : ℕ) : (Throttle.new bytesPerSec).Orderly bytesPerSec where
  fair := Bucket.fair_new bytesPerSec
  rate := rfl
  burst := rfl
  last := le_rfl
  paid _ h := absurd h List.not_mem_nil
  unchanged _ h := absurd h List.not_mem_nil
  due time := by
    simp only [Throttle.new, Bucket.new, passedBy, dueBy, released, total, List.filter_nil,
      List.map_nil, List.sum_nil, add_zero, le_refl]

lemma step_poll {i : ℕ} (h : s.step (.poll i) = some t) :
    ∃ stream, s.streams[i]? = some stream ∧
      t = { s with
        bucket := (stream.body.pollFrame s.bucket s.now).2.2
        streams := s.streams.set i { stream with
          body := (stream.body.pollFrame s.bucket s.now).2.1
          given := stream.given ++ [(stream.body.pollFrame s.bucket s.now).1] }
        passed := s.passed ++ [(s.now, (stream.body.pollFrame s.bucket s.now).1.size)] } := by
  obtain ⟨stream, hstream, ht⟩ := Option.bind_eq_some_iff.mp h
  exact ⟨stream, hstream, (Option.some.inj ht).symm⟩

lemma Orderly.poll (h : s.Orderly bytesPerSec) {i : ℕ} (hstep : s.step (.poll i) = some t) :
    t.Orderly bytesPerSec := by
  obtain ⟨stream, hstream, rfl⟩ := step_poll hstep
  have hmem : stream ∈ s.streams := List.mem_of_getElem? hstream
  have hpolls := ThrottledBody.polls_pollFrame h.fair h.last (h.paid stream hmem)
  generalize (stream.body.pollFrame s.bucket s.now).1 = polled at *
  generalize (stream.body.pollFrame s.bucket s.now).2.1 = body at *
  generalize (stream.body.pollFrame s.bucket s.now).2.2 = bucket at *
  refine ⟨hpolls.fair, hpolls.rate.trans h.rate, hpolls.burst.trans h.burst, hpolls.last, ?_, ?_, ?_⟩
  · intro other hother
    rcases List.mem_or_eq_of_mem_set hother with hother | rfl
    · exact (h.paid other hother).mono hpolls.reserved
    · exact hpolls.paid
  · intro other hother
    rcases List.mem_or_eq_of_mem_set hother with hother | rfl
    · exact h.unchanged other hother
    · obtain ⟨came, hscript, hflow⟩ := h.unchanged stream hmem
      obtain ⟨more, hmore, hflow', -⟩ := hpolls.flows
      refine ⟨came ++ more, ?_, ?_⟩
      · show stream.script = _
        rw [hscript, hmore, List.append_assoc]
      · rw [List.flatMap_append, hflow, List.append_assoc, hflow', List.flatMap_append,
          List.flatMap_singleton, List.append_assoc]
  · intro time
    have hset := dueBy_set time hstream { stream with body, given := stream.given ++ [polled] }
    have hbefore := h.due time
    have hafter := hpolls.due time
    rw [passedBy_snoc]
    dsimp only at hset ⊢
    linarith

lemma Orderly.step (h : s.Orderly bytesPerSec) {event : Event} (hstep : s.step event = some t) :
    t.Orderly bytesPerSec := by
  cases event with
  | wait time =>
      rw [Throttle.step] at hstep
      split_ifs at hstep with htime
      obtain rfl := Option.some.inj hstep
      exact { h with last := h.last.trans htime }
  | attach script =>
      obtain rfl := Option.some.inj hstep
      refine { h with paid := ?_, unchanged := ?_, due := ?_ }
      · intro stream hstream
        rcases List.mem_append.mp hstream with hstream | hstream
        · exact h.paid stream hstream
        · rw [List.mem_singleton.mp hstream]
          exact ⟨rfl, by rintro _ _ ⟨⟩⟩
      · intro stream hstream
        rcases List.mem_append.mp hstream with hstream | hstream
        · exact h.unchanged stream hstream
        · rw [List.mem_singleton.mp hstream]
          exact ⟨[], rfl, rfl⟩
      · intro time
        have hdue : dueBy time (s.streams ++ [.new script]) = dueBy time s.streams := by
          rw [dueBy, List.map_append, List.sum_append, List.map_singleton, List.sum_singleton,
            ThrottledBody.due_of_none rfl, add_zero, dueBy]
        rw [hdue]
        exact h.due time
  | poll i => exact h.poll hstep

lemma Orderly.run {events : List Event} (h : s.Orderly bytesPerSec)
    (hrun : Runs.run Throttle.step s events = some t) : t.Orderly bytesPerSec := by
  induction events generalizing s with
  | nil => exact Option.some.inj hrun ▸ h
  | cons event events ih =>
      obtain ⟨u, hu, hrest⟩ := Runs.run_cons.mp hrun
      exact ih (h.step hu) hrest

end Throttle

/-- Whatever was reserved may go, at the latest, when the rate has brought all that was reserved
since the bucket was full, with it. -/
def Bucket.Prompt (bucket : Bucket) : Prop :=
  ∀ before r after, bucket.reserved = before ++ r :: after →
    ∃ full since, SinceFull bucket.burst (before ++ [r]) full since ∧
      r.release ≤ full.time + total (full :: since) / bucket.rate

lemma Bucket.Fair.prompt {bucket : Bucket} (h : bucket.Fair) : bucket.Prompt := by
  intro before r after hsplit
  have hpaced := h.paced
  rw [hsplit, ← List.singleton_append, ← List.append_assoc] at hpaced
  obtain ⟨tokens, last, hthen⟩ := hpaced.of_append
  have hne : before ++ [r] ≠ [] := List.append_ne_nil_of_right_ne_nil _ (List.cons_ne_nil _ _)
  obtain ⟨full, since, hfull⟩ := hthen.exists_full h.rate_pos hne
  refine ⟨full, since, hfull, hthen.release_le h.rate_pos h.burst_nonneg hfull ?_⟩
  obtain ⟨⟨earlier, heq⟩, -⟩ := hfull
  have hlast : (before ++ [r]).getLast? = (earlier ++ full :: since).getLast? := by rw [heq]
  rw [List.getLast?_concat, List.getLast?_append_of_ne_nil _ (List.cons_ne_nil _ _)] at hlast
  exact hlast.symm

/-- Only the timing is changed, and the rate is held. -/
structure Throttle.Paces (bytesPerSec : ℕ) (s : Throttle) : Prop where
  unchanged : ∀ stream ∈ s.streams, stream.Unchanged
  /-- A body that gives nothing waits for its chunk or, with nothing in hand, for its inner body. -/
  waits : ∀ stream ∈ s.streams, (stream.body.pollFrame s.bucket s.now).1 = .pending →
    (stream.body.pollFrame s.bucket s.now).2.1.Waits s.now ∨
      (stream.body.pollFrame s.bucket s.now).2.1.held = [] ∧
        ∃ came, stream.body.inner = came ++ (stream.body.pollFrame s.bucket s.now).2.1.inner ∧
          (came.getLast? = some .pending ∨
            (stream.body.pollFrame s.bucket s.now).2.1.inner = [])
  /-- A body says that it is over when its inner body is, with nothing in hand. -/
  ends : ∀ stream ∈ s.streams, ∀ inner, stream.body.isEndStream inner = true →
    inner = true ∧ stream.body.held = []
  /-- What was let through by a time is at most the burst and what the rate brought. -/
  rate : ∀ time, 0 ≤ time → passedBy time s.passed ≤
    (Bucket.new bytesPerSec).burst + time * (Bucket.new bytesPerSec).rate
  /-- A chunk in hand goes when it was scheduled to go. -/
  paid : ∀ stream ∈ s.streams, stream.body.Paid s.bucket
  prompt : s.bucket.Prompt

theorem throttled_paces (bytesPerSec : ℕ) (events : List Event) (s : Throttle)
    (h : Runs.run Throttle.step (.new bytesPerSec) events = some s) : s.Paces bytesPerSec := by
  have horderly : s.Orderly bytesPerSec := (Throttle.orderly_new bytesPerSec).run h
  refine ⟨horderly.unchanged, ?_, ?_, ?_, horderly.paid, horderly.fair.prompt⟩
  · intro stream hstream hpending
    obtain ⟨came, hcame, -, hwaits⟩ := (ThrottledBody.polls_pollFrame horderly.fair horderly.last
      (horderly.paid stream hstream)).flows
    rcases hwaits hpending with hwait | ⟨hheld, hinner⟩
    · exact .inl hwait
    · exact .inr ⟨hheld, came, hcame, hinner⟩
  · intro stream _ inner hends
    exact ThrottledBody.held_of_isEndStream hends
  · intro time htime
    have hdue := horderly.due time
    have hrate := horderly.fair.paced.released_le horderly.fair.rate_pos
      horderly.fair.burst_nonneg htime
    have hheld : 0 ≤ dueBy time s.streams := dueBy_nonneg time s.streams
    rw [horderly.rate, horderly.burst] at hrate
    linarith

/-- Two bodies share a bucket; the second is polled before the first is done. -/
theorem throttled_shared : ∃ s, Runs.run Throttle.step (.new 100)
    [.attach [.data [1, 2], .trailers []], .attach [.pending, .data [3]], .poll 0, .poll 1, .wait 1,
      .poll 1, .poll 0, .poll 0] = some s ∧ s.Paces 100 := by
  obtain ⟨s, hs⟩ := Option.isSome_iff_exists.mp (show (Runs.run Throttle.step (.new 100)
    [.attach [.data [1, 2], .trailers []], .attach [.pending, .data [3]], .poll 0, .poll 1, .wait 1,
      .poll 1, .poll 0, .poll 0]).isSome = true from rfl)
  exact ⟨s, hs, throttled_paces 100 _ s hs⟩

end Teitunnel.Lens.Sim
