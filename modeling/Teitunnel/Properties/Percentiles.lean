import Teitunnel.Lib.Ranks
import Teitunnel.Lens.Metrics

/-!
# Percentiles are right within a sixteenth

A bucket is a power of two wide and begins at least sixteen times as high, so its middle is near
each of its values.  The buckets come in the order of their values: the first one with enough
values in and below it has the value of the rank.
-/

namespace Teitunnel.Lens

namespace Histogram

/-! ## Buckets -/

/-- The bucket `16 * e + d` has the values from `d * 2 ^ e` on, up to the next one. -/
structure Within (value e d : ℕ) : Prop where
  low : d * 2 ^ e ≤ value
  high : value < (d + 1) * 2 ^ e
  lt : d < 32
  full : 16 ≤ d ∨ e = 0

lemma index_of_large {value : ℕ} (hlarge : 16 ≤ value) (hsmall : value < 2 ^ 44) :
    index value = 16 * (value.log2 - 4) + value / 2 ^ (value.log2 - 4) := by
  have hne : value ≠ 0 := by omega
  have hlog : 4 ≤ value.log2 := (Nat.le_log2 hne).mpr (by omega)
  have hlog' : value.log2 < 44 := (Nat.log2_lt hne).mpr hsmall
  have hzeros : 63 - leadingZeros value = value.log2 := by
    unfold leadingZeros
    rw [if_neg hne]
    omega
  obtain ⟨e, he⟩ : ∃ e, value.log2 = e + 4 := ⟨value.log2 - 4, by omega⟩
  have hlow : 2 ^ (e + 4) ≤ value := he ▸ Nat.log2_self_le hne
  have hhigh : value < 2 ^ (e + 5) := by
    have hself : value < 2 ^ (value.log2 + 1) := Nat.lt_log2_self
    rwa [he] at hself
  rw [pow_add] at hlow hhigh
  have hpos : 0 < 2 ^ e := Nat.two_pow_pos e
  have hd : 16 ≤ value / 2 ^ e := (Nat.le_div_iff_mul_le hpos).mpr (by omega)
  have hd' : value / 2 ^ e < 32 := (Nat.div_lt_iff_lt_mul hpos).mpr (by omega)
  have hmod : (value >>> e) &&& 15 = value / 2 ^ e - 16 := by
    rw [Nat.shiftRight_eq_div_pow, show 15 = 2 ^ 4 - 1 by rfl, Nat.and_two_pow_sub_one_eq_mod]
    omega
  have hindex : index value =
      min (16 + (value.log2 - 4) * 16 + ((value >>> (value.log2 - 4)) &&& 15)) 655 := by
    unfold index
    rw [if_neg (show ¬ value < SUB by show ¬ value < 16; omega), hzeros]
    rfl
  rw [hindex, he, Nat.add_sub_cancel, hmod]
  omega

lemma exists_within {value : ℕ} (h : value < 2 ^ 44) :
    ∃ e d, Within value e d ∧ index value = 16 * e + d := by
  by_cases hsmall : value < 16
  · have hindex : index value = value := if_pos hsmall
    refine ⟨0, value, ⟨by omega, by omega, by omega, .inr rfl⟩, by omega⟩
  · have hne : value ≠ 0 := by omega
    have hpos : 0 < 2 ^ (value.log2 - 4) := Nat.two_pow_pos _
    have hlog : 4 ≤ value.log2 := (Nat.le_log2 hne).mpr (by omega)
    have hlow : 2 ^ 4 * 2 ^ (value.log2 - 4) ≤ value := by
      rw [← pow_add, Nat.add_sub_cancel' hlog]
      exact Nat.log2_self_le hne
    have hhigh : value < 2 ^ 5 * 2 ^ (value.log2 - 4) := by
      rw [← pow_add, show 5 + (value.log2 - 4) = value.log2 + 1 by omega]
      exact Nat.lt_log2_self
    refine ⟨value.log2 - 4, value / 2 ^ (value.log2 - 4), ⟨Nat.div_mul_le_self _ _, ?_, ?_, ?_⟩,
      index_of_large (by omega) h⟩
    · exact (Nat.div_lt_iff_lt_mul hpos).mp (Nat.lt_succ_self _)
    · exact (Nat.div_lt_iff_lt_mul hpos).mpr hhigh
    · exact .inl ((Nat.le_div_iff_mul_le hpos).mpr hlow)

/-- A value of a bucket lies below those of a later one. -/
lemma Within.lt_of_lt {value value' e d e' d' : ℕ} (h : Within value e d)
    (h' : Within value' e' d') (hlt : 16 * e + d < 16 * e' + d') :
    (d + 1) * 2 ^ e ≤ d' * 2 ^ e' := by
  have hd := h.lt
  have hd' := h'.lt
  rcases lt_trichotomy e e' with he | rfl | he
  · have hfull : 16 ≤ d' := h'.full.resolve_right (by omega)
    calc (d + 1) * 2 ^ e ≤ 32 * 2 ^ e := Nat.mul_le_mul_right _ (by omega)
      _ = 16 * 2 ^ (e + 1) := by ring
      _ ≤ 16 * 2 ^ e' := Nat.mul_le_mul_left _ (Nat.pow_le_pow_right (by omega) he)
      _ ≤ d' * 2 ^ e' := Nat.mul_le_mul_right _ hfull
  · exact Nat.mul_le_mul_right _ (by omega)
  · have hfull : 16 ≤ d := h.full.resolve_right (by omega)
    omega

lemma index_lt (value : ℕ) : index value < BUCKETS := by
  have hbuckets : BUCKETS = 656 := rfl
  unfold index
  split
  · next hsmall =>
      have hsub : SUB = 16 := rfl
      omega
  · have hmin := Nat.min_le_right (SUB + (63 - leadingZeros value - SUB_BITS) * SUB +
      ((value >>> (63 - leadingZeros value - SUB_BITS)) &&& (SUB - 1))) (BUCKETS - 1)
    show min _ _ < _
    omega

/-- Everything too large is in the last bucket. -/
lemma index_of_too_large {value : ℕ} (h : 2 ^ 44 ≤ value) : index value = BUCKETS - 1 := by
  have hne : value ≠ 0 := by omega
  have hlog : 44 ≤ value.log2 := (Nat.le_log2 hne).mpr h
  have hexp : 44 ≤ 63 - leadingZeros value := by
    unfold leadingZeros
    rw [if_neg hne]
    omega
  unfold index
  rw [if_neg (show ¬ value < SUB by show ¬ value < 16; omega)]
  refine min_eq_right ?_
  show 655 ≤ 16 + (63 - leadingZeros value - 4) * 16 + _
  omega

/-- The buckets come in the order of their values. -/
lemma index_mono : Monotone index := by
  intro value value' hle
  rcases lt_or_ge value' (2 ^ 44) with hsmall | hlarge
  · obtain ⟨e, d, hwithin, hindex⟩ := exists_within (hle.trans_lt hsmall)
    obtain ⟨e', d', hwithin', hindex'⟩ := exists_within hsmall
    rw [hindex, hindex']
    by_contra hlt
    have hbelow := hwithin'.lt_of_lt hwithin (not_le.mp hlt)
    have hlow := hwithin.low
    have hhigh := hwithin'.high
    omega
  · rw [index_of_too_large hlarge]
    have hlt := index_lt value
    omega

/-- The middle of the bucket of a value. -/
lemma Within.valueOf_eq {value e d : ℕ} (h : Within value e d) :
    valueOf (16 * e + d) = d * 2 ^ e + 2 ^ e / 2 := by
  have hd := h.lt
  by_cases hfull : 16 ≤ d
  · have hindex : ¬ 16 * e + d < SUB := by
      show ¬ 16 * e + d < 16
      omega
    have hgroup : (16 * e + d - 16) / 16 = e := by omega
    have hsub : (16 * e + d - 16) % 16 = d - 16 := by omega
    have hvalue : valueOf (16 * e + d) = (1 <<< ((16 * e + d - 16) / 16 + 4)) +
        (16 * e + d - 16) % 16 * (1 <<< ((16 * e + d - 16) / 16 + 4 - 4)) +
          1 <<< ((16 * e + d - 16) / 16 + 4 - 4) / 2 := by
      unfold valueOf
      rw [if_neg hindex]
      rfl
    obtain ⟨s, rfl⟩ : ∃ s, d = 16 + s := ⟨d - 16, by omega⟩
    rw [hvalue, hgroup, hsub, Nat.add_sub_cancel, Nat.one_shiftLeft, Nat.one_shiftLeft, pow_add,
      Nat.add_sub_cancel_left]
    ring
  · obtain rfl := h.full.resolve_left hfull
    have hvalue : valueOf (16 * 0 + d) = d := by
      rw [Nat.mul_zero, Nat.zero_add]
      exact if_pos (not_le.mp hfull)
    rw [hvalue]
    omega

/-- The middle of a bucket is near each of its values. -/
lemma Within.near {value e d : ℕ} (h : Within value e d) :
    16 * (d * 2 ^ e + 2 ^ e / 2 - value) ≤ value ∧
      16 * (value - (d * 2 ^ e + 2 ^ e / 2)) ≤ value := by
  have hlow := h.low
  have hhigh := h.high
  rw [Nat.add_mul, Nat.one_mul] at hhigh
  rcases h.full with hfull | rfl
  · have hwide : 16 * 2 ^ e ≤ d * 2 ^ e := Nat.mul_le_mul_right _ hfull
    generalize d * 2 ^ e = low at hlow hhigh hwide ⊢
    generalize hwidth : 2 ^ e = width at hhigh hwide ⊢
    have hhalf : width - width / 2 ≤ width / 2 + width % 2 := by omega
    have heven : width % 2 = 0 ∨ width = 1 := by
      cases e with
      | zero => exact .inr hwidth.symm
      | succ e =>
          left
          rw [← hwidth, pow_succ]
          exact Nat.mul_mod_left _ _
    omega
  · omega

/-! ## Records -/

/-- What a histogram has of the values so far. -/
structure Counts (values : List ℕ) (h : Histogram) : Prop where
  length : h.buckets.length = BUCKETS
  upTo : ∀ i, (h.buckets.take (i + 1)).sum = values.countP (fun value => index value ≤ i)
  count : h.count = values.length
  max : h.max = values.foldl Max.max 0

lemma sum_take_modify {buckets : List ℕ} {k : ℕ} (hk : k < buckets.length) (i : ℕ) :
    ((buckets.modify k (· + 1)).take (i + 1)).sum =
      (buckets.take (i + 1)).sum + if k ≤ i then 1 else 0 := by
  induction buckets generalizing k i with
  | nil => exact absurd hk (Nat.not_lt_zero k)
  | cons bucket buckets ih =>
      cases k with
      | zero =>
          rw [List.modify_zero_cons, List.take_succ_cons, List.take_succ_cons, List.sum_cons,
            List.sum_cons, if_pos (Nat.zero_le i)]
          omega
      | succ k =>
          rw [List.modify_succ_cons, List.take_succ_cons, List.take_succ_cons, List.sum_cons,
            List.sum_cons]
          cases i with
          | zero =>
              rw [List.take_zero, List.take_zero, if_neg (by omega)]
              rfl
          | succ i =>
              rw [ih (Nat.lt_of_succ_lt_succ hk) i, Nat.add_assoc]
              simp only [Nat.add_le_add_iff_right]

lemma counts_new : Counts [] new where
  length := List.length_replicate
  upTo i := by
    show ((List.replicate BUCKETS 0).take (i + 1)).sum = 0
    rw [List.take_replicate, List.sum_replicate, smul_zero]
  count := rfl
  max := rfl

lemma Counts.record {values : List ℕ} {h : Histogram} (hcounts : Counts values h) (value : ℕ) :
    Counts (values ++ [value]) (h.record value) where
  length := (List.length_modify _ _ _).trans hcounts.length
  upTo i := by
    have hindex : index value < h.buckets.length := by
      rw [hcounts.length]
      exact index_lt value
    show ((h.buckets.modify (index value) (· + 1)).take (i + 1)).sum = _
    rw [sum_take_modify hindex, hcounts.upTo, List.countP_append, List.countP_singleton]
    simp only [decide_eq_true_eq]
  count := by
    show h.count + 1 = _
    rw [hcounts.count, List.length_append, List.length_singleton]
  max := by
    show Max.max h.max value = _
    rw [hcounts.max, List.foldl_append]
    rfl

/-- A histogram of some values. -/
def recordAll (values : List ℕ) : Histogram := values.foldl record new

lemma counts_recordAll (values : List ℕ) : Counts values (recordAll values) := by
  induction values using List.reverseRecOn with
  | nil => exact counts_new
  | append_singleton values value ih =>
      unfold recordAll
      rw [List.foldl_append]
      exact ih.record value

lemma le_foldl_max {values : List ℕ} {value : ℕ} (h : value ∈ values) (first : ℕ) :
    value ≤ values.foldl Max.max first := by
  induction values generalizing first with
  | nil => exact absurd h List.not_mem_nil
  | cons head rest ih =>
      rw [List.foldl_cons]
      rcases List.mem_cons.mp h with rfl | hrest
      · have hall : ∀ (l : List ℕ) (m : ℕ), m ≤ l.foldl Max.max m := by
          intro l
          induction l with
          | nil => exact fun m => le_rfl
          | cons a l ihl => exact fun m => (le_max_left m a).trans (ihl _)
        exact (le_max_right first value).trans (hall rest _)
      · exact ih hrest _

/-! ## Quantiles -/

/-- The first bucket with enough values in and below it. -/
lemma firstWith_eq {buckets : List ℕ} {rank seen start i : ℕ} (hi : i < buckets.length)
    (hfirst : ∀ j < buckets.length, rank ≤ seen + (buckets.take (j + 1)).sum ↔ i ≤ j) :
    firstWith rank seen start buckets = some (start + i) := by
  induction buckets generalizing seen start i with
  | nil => exact absurd hi (Nat.not_lt_zero i)
  | cons bucket buckets ih =>
      have hnow : rank ≤ seen + bucket ↔ i ≤ 0 := by
        have hzero := hfirst 0 (Nat.zero_lt_succ _)
        rwa [List.take_succ_cons, List.take_zero, List.sum_singleton] at hzero
      rw [firstWith]
      by_cases hrank : rank ≤ seen + bucket
      · rw [if_pos hrank, Nat.le_zero.mp (hnow.mp hrank)]
        rfl
      · rw [if_neg hrank]
        have hpos : 0 < i := by
          by_contra hzero
          exact hrank (hnow.mpr (not_lt.mp hzero))
        have hnext := @ih (seen + bucket) (start + 1) (i - 1)
          (by rw [List.length_cons] at hi; omega) fun j hj => by
            have hlater := hfirst (j + 1) (Nat.succ_lt_succ hj)
            rw [List.take_succ_cons, List.sum_cons, ← Nat.add_assoc] at hlater
            rw [hlater]
            omega
        rw [hnext]
        congr 1
        omega

lemma rank_pos (q : ℚ) (n : ℕ) : 0 < rank q n := Nat.lt_of_lt_of_le Nat.one_pos (le_max_right _ _)

lemma rank_le {q : ℚ} {n : ℕ} (hn : 0 < n) : rank q n ≤ n := by
  refine max_le (Nat.ceil_le.mpr ?_) hn
  have hle : Max.max 0 (min q 1) ≤ (1 : ℚ) := max_le zero_le_one (min_le_right q 1)
  calc Max.max 0 (min q 1) * (n : ℚ) ≤ 1 * n := by gcongr
    _ = n := one_mul _

lemma rank_mono {q q' : ℚ} (h : q ≤ q') (n : ℕ) : rank q n ≤ rank q' n := by
  unfold rank
  gcongr

/-- The middle of the bucket of the value of the rank. -/
lemma quantile_eq {values : List ℕ} {q : ℚ} (hq : q < 1) {value : ℕ}
    (hvalue : Ranks.nth values (rank q values.length - 1) = some value) :
    (recordAll values).quantile q =
      some (min (valueOf (index value)) (values.foldl Max.max 0)) := by
  have hcounts := counts_recordAll values
  have hne : values.length ≠ 0 := by
    rw [List.length_eq_zero_iff.ne]
    rintro rfl
    exact absurd (Ranks.nth_mem hvalue) List.not_mem_nil
  have hpos := rank_pos q values.length
  have hfirst : firstWith (rank q values.length) 0 0 (recordAll values).buckets =
      some (index value) := by
    have hindex : index value < (recordAll values).buckets.length := by
      rw [hcounts.length]
      exact index_lt value
    rw [firstWith_eq hindex fun j _ => ?_, Nat.zero_add]
    rw [hcounts.upTo, Nat.zero_add, ← Ranks.lt_countP_iff hvalue index_mono j]
    omega
  unfold quantile
  rw [hcounts.count, if_neg hne, if_neg (not_le.mpr hq), hfirst, hcounts.max]

lemma exists_ranked {values : List ℕ} (hne : values ≠ []) (q : ℚ) :
    ∃ value, Ranks.nth values (rank q values.length - 1) = some value := by
  have hlength : 0 < values.length := List.length_pos_iff.mpr hne
  have hpos := rank_pos q values.length
  have hle := rank_le (q := q) hlength
  exact Ranks.exists_nth (by omega)

/-- The middles come in the order of the buckets. -/
lemma valueOf_mono {value value' : ℕ} (h' : value' < 2 ^ 44) (hle : value ≤ value') :
    valueOf (index value) ≤ valueOf (index value') := by
  obtain ⟨e, d, hwithin, hindex⟩ := exists_within (hle.trans_lt h')
  obtain ⟨e', d', hwithin', hindex'⟩ := exists_within h'
  have hindexes := index_mono hle
  rcases hindexes.eq_or_lt with heq | hlt
  · rw [heq]
  · rw [hindex, hindex'] at hlt
    have hbelow := hwithin.lt_of_lt hwithin' hlt
    rw [Nat.add_mul, Nat.one_mul] at hbelow
    rw [hindex, hindex', hwithin.valueOf_eq, hwithin'.valueOf_eq]
    calc d * 2 ^ e + 2 ^ e / 2 ≤ d * 2 ^ e + 2 ^ e :=
          Nat.add_le_add_left (Nat.div_le_self _ _) _
      _ ≤ d' * 2 ^ e' := hbelow
      _ ≤ d' * 2 ^ e' + 2 ^ e' / 2 := Nat.le_add_right _ _

lemma foldl_max_mem {values : List ℕ} (hne : values ≠ []) :
    values.foldl Max.max 0 ∈ values := by
  induction values using List.reverseRecOn with
  | nil => exact absurd rfl hne
  | append_singleton values value ih =>
      rw [List.foldl_append]
      show Max.max (values.foldl Max.max 0) value ∈ _
      by_cases hnone : values = []
      · subst hnone
        show Max.max 0 value ∈ [value]
        rw [Nat.zero_max]
        exact List.mem_cons_self
      · rcases max_cases (values.foldl Max.max 0) value with ⟨heq, -⟩ | ⟨heq, -⟩
        · rw [heq]
          exact List.mem_append_left _ (ih hnone)
        · rw [heq]
          exact List.mem_append_right _ List.mem_cons_self

/-- The middle of a bucket, if it isn't above the largest value, and else that. -/
lemma near_min {value largest : ℕ} (hsmall : value < 2 ^ 44) (hle : value ≤ largest) :
    16 * |((min (valueOf (index value)) largest : ℕ) : ℤ) - value| ≤ value := by
  obtain ⟨e, d, hwithin, hindex⟩ := exists_within hsmall
  obtain ⟨habove, hbelow⟩ := hwithin.near
  rw [hindex, hwithin.valueOf_eq]
  generalize d * 2 ^ e + 2 ^ e / 2 = middle at habove hbelow ⊢
  rcases abs_cases (((min middle largest : ℕ) : ℤ) - value) with ⟨heq, -⟩ | ⟨heq, -⟩
  · rw [heq]
    omega
  · rw [heq]
    omega

/-- A quantile is within a sixteenth of the value of its rank, not above the largest value, and
grows with `q`. -/
theorem quantile_near (values : List ℕ) (hne : values ≠ [])
    (hsmall : ∀ value ∈ values, value < 2 ^ 44) (q : ℚ) (hq : 0 ≤ q) (hq' : q < 1) :
    ∃ value micros,
      Ranks.nth values (Max.max 1 ⌈q * values.length⌉₊ - 1) = some value ∧
        (recordAll values).quantile q = some micros ∧
        16 * |(micros : ℤ) - value| ≤ value ∧
        (∃ largest ∈ values, (∀ other ∈ values, other ≤ largest) ∧ micros ≤ largest) ∧
        ∀ q', q ≤ q' → q' < 1 → ∃ micros', (recordAll values).quantile q' = some micros' ∧
          micros ≤ micros' := by
  have hrank : rank q values.length = Max.max 1 ⌈q * values.length⌉₊ := by
    unfold rank
    rw [min_eq_left hq'.le, max_eq_right hq, max_comm]
  obtain ⟨value, hvalue⟩ := exists_ranked hne q
  have hmem := Ranks.nth_mem hvalue
  refine ⟨value, _, hrank ▸ hvalue, quantile_eq hq' hvalue,
    near_min (hsmall value hmem) (le_foldl_max hmem 0),
    ⟨values.foldl Max.max 0, foldl_max_mem hne, fun other h => le_foldl_max h 0,
      min_le_right _ _⟩, ?_⟩
  intro q' hle hlt
  obtain ⟨value', hvalue'⟩ := exists_ranked hne q'
  have hranks := rank_mono hle values.length
  have hvalues : value ≤ value' := Ranks.nth_mono hvalue hvalue' (by omega)
  refine ⟨_, quantile_eq hlt hvalue', min_le_min_right _ ?_⟩
  exact valueOf_mono (hsmall value' (Ranks.nth_mem hvalue')) hvalues

/-- The median of five latencies. -/
theorem quantile_near_median :
    ∃ value micros : ℕ,
      Ranks.nth [5, 17, 33, 1000, 100000] (Max.max 1 ⌈(1 / 2 : ℚ) * (5 : ℕ)⌉₊ - 1) = some value ∧
        (recordAll [5, 17, 33, 1000, 100000]).quantile (1 / 2) = some micros ∧
        16 * |(micros : ℤ) - value| ≤ value := by
  obtain ⟨value, micros, hvalue, hmicros, hnear, -⟩ :=
    quantile_near [5, 17, 33, 1000, 100000] (by decide) (by decide) (1 / 2) (by norm_num)
      (by norm_num)
  exact ⟨value, micros, hvalue, hmicros, hnear⟩

end Histogram

end Teitunnel.Lens
