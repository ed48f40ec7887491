import Teitunnel.Lens.Pattern

/-!
# A glob matches what it says

Between the last `*` and the place in the pattern each part takes one byte, so what an earlier `*`
could still take, the last one can take as well.
-/

namespace Teitunnel.Lens

open Glob

variable {pattern text : List UInt8} {p t : ℕ} {star : Option (ℕ × ℕ)}

/-- The rest of the pattern covers the rest of the text. -/
def Rest (pattern text : List UInt8) (p t : ℕ) : Prop :=
  Matches ((pattern.drop p).map token) (text.drop t)

lemma token_star : token STAR = .run := rfl

lemma token_eq_run {c : UInt8} : token c = .run ↔ c = STAR := by
  constructor
  · intro h
    by_contra hne
    unfold token at h
    rw [if_neg hne] at h
    split at h
    · exact absurd h nofun
    · exact absurd h nofun
  · rintro rfl
    rfl

lemma covers_iff {c : UInt8} (h : c ≠ STAR) (b : UInt8) :
    (token c).Covers [b] ↔ c = QUESTION ∨ c = b := by
  unfold token
  rw [if_neg h]
  by_cases hq : c = QUESTION
  · rw [if_pos hq]
    exact ⟨fun _ => .inl hq, fun _ => ⟨b, rfl⟩⟩
  · rw [if_neg hq]
    constructor
    · intro hcovers
      exact .inr (List.singleton_injective hcovers).symm
    · rintro (hq' | rfl)
      · exact absurd hq' hq
      · rfl

lemma drop_of_getElem? {l : List UInt8} {i : ℕ} {c : UInt8} (h : l[i]? = some c) :
    l.drop i = c :: l.drop (i + 1) := by
  obtain ⟨hlength, rfl⟩ := List.getElem?_eq_some_iff.mp h
  exact List.drop_eq_getElem_cons hlength

/-- At a `*`. -/
lemma rest_star (hp : pattern[p]? = some STAR) :
    Rest pattern text p t ↔ ∃ k, t ≤ k ∧ k ≤ max t text.length ∧ Rest pattern text (p + 1) k := by
  unfold Rest
  rw [drop_of_getElem? hp, List.map_cons, token_star, matches_run, List.length_drop]
  constructor
  · rintro ⟨k, hk, hrest⟩
    rw [List.drop_drop] at hrest
    exact ⟨t + k, by omega, by omega, hrest⟩
  · rintro ⟨k, hle, hk, hrest⟩
    refine ⟨k - t, by omega, ?_⟩
    rw [List.drop_drop]
    rwa [show t + (k - t) = k by omega]

/-- At any other part, with more text. -/
lemma rest_step (hp : pattern[p]? ≠ some STAR) (ht : t < text.length) :
    Rest pattern text p t ↔
      (pattern[p]? = some QUESTION ∨ pattern[p]? = some text[t]) ∧
        Rest pattern text (p + 1) (t + 1) := by
  unfold Rest
  rw [List.drop_eq_getElem_cons ht]
  cases hc : pattern[p]? with
  | none =>
      rw [List.drop_eq_nil_of_le (List.getElem?_eq_none_iff.mp hc), List.map_nil, matches_nil]
      constructor
      · exact fun hnil => absurd hnil nofun
      · rintro ⟨hnone | hnone, -⟩
        · exact absurd hnone nofun
        · exact absurd hnone nofun
  | some c =>
      have hne : c ≠ STAR := fun heq => hp (by rw [hc, heq])
      have hrun : token c ≠ .run := fun heq => hne (token_eq_run.mp heq)
      rw [drop_of_getElem? hc, List.map_cons, matches_step hrun, Option.some_inj, Option.some_inj]
      constructor
      · rintro ⟨a, rest, heq, hcovers, hrest⟩
        obtain ⟨rfl, rfl⟩ := List.cons.inj heq
        exact ⟨(covers_iff hne _).mp hcovers, hrest⟩
      · rintro ⟨hcovers, hrest⟩
        exact ⟨text[t], _, rfl, (covers_iff hne _).mpr hcovers, hrest⟩

/-- At the end of the text. -/
lemma rest_end (ht : text.length ≤ t) :
    Rest pattern text p t ↔ (pattern.drop p).all (· == STAR) = true := by
  unfold Rest
  rw [List.drop_eq_nil_of_le ht, matches_empty, List.all_eq_true]
  constructor
  · intro h c hc
    exact beq_iff_eq.mpr (token_eq_run.mp (h (token c) (List.mem_map_of_mem hc)))
  · intro h tok htok
    obtain ⟨c, hc, rfl⟩ := List.mem_map.mp htok
    exact token_eq_run.mpr (beq_iff_eq.mp (h c hc))

/-- Since the last `*` every part took one byte. -/
structure Since (pattern : List UInt8) (p t sp st : ℕ) : Prop where
  place : st ≤ t
  count : p = sp + 1 + (t - st)
  noStar : ∀ i, sp < i → i < p → pattern[i]? ≠ some STAR
  inside : p ≤ pattern.length

lemma Since.start (hp : pattern[p]? = some STAR) (t : ℕ) : Since pattern (p + 1) t p t where
  place := le_rfl
  count := by omega
  noStar i hlow hhigh := by omega
  inside := (List.getElem?_eq_some_iff.mp hp).1

lemma Since.step {sp st : ℕ} {c : UInt8} (h : Since pattern p t sp st) (hp : pattern[p]? = some c)
    (hne : c ≠ STAR) : Since pattern (p + 1) (t + 1) sp st where
  place := h.place.trans t.le_succ
  count := by
    have := h.count
    have := h.place
    omega
  noStar i hlow hhigh := by
    by_cases hi : i = p
    · rw [hi, hp]
      exact fun heq => hne (Option.some.inj heq)
    · exact h.noStar i hlow (by omega)
  inside := (List.getElem?_eq_some_iff.mp hp).1

/-- When the last `*` takes more, the parts after it take as many bytes further on. -/
lemma Since.shift {sp st k : ℕ} (h : Since pattern p t sp st)
    (hrest : Rest pattern text (sp + 1) k) (hk : k ≤ text.length) :
    k + (t - st) ≤ text.length ∧ Rest pattern text p (k + (t - st)) := by
  have hcount := h.count
  have hinside := h.inside
  have hsplit : (pattern.drop (sp + 1)).take (t - st) ++ pattern.drop p =
      pattern.drop (sp + 1) := by
    have hcut := List.take_append_drop (t - st) (pattern.drop (sp + 1))
    rwa [List.drop_drop, ← hcount] at hcut
  have hlength : ((pattern.drop (sp + 1)).take (t - st)).length = t - st := by
    rw [List.length_take, List.length_drop]
    omega
  unfold Rest at hrest ⊢
  rw [← hsplit, List.map_append] at hrest
  have hsteps := matches_steps (fun tok htok => ?_) hrest
  · rw [List.length_map, hlength, List.length_drop, List.drop_drop] at hsteps
    exact ⟨by omega, hsteps.2⟩
  · obtain ⟨c, hc, rfl⟩ := List.mem_map.mp htok
    obtain ⟨i, hi, rfl⟩ := List.mem_iff_getElem.mp hc
    rw [List.getElem_take, List.getElem_drop]
    rw [hlength] at hi
    intro hrun
    refine h.noStar (sp + 1 + i) (by omega) (by omega) ?_
    rw [List.getElem?_eq_getElem (by omega), token_eq_run.mp hrun]

/-- The last `*` could take more. -/
def Later (pattern text : List UInt8) (star : Option (ℕ × ℕ)) : Prop :=
  ∃ sp st k, star = some (sp, st) ∧ st < k ∧ k ≤ text.length ∧ Rest pattern text (sp + 1) k

/-- The loop finds a match where there is one: at the places or where the last `*` takes more. -/
lemma globLoop_iff (hstar : ∀ sp st, star = some (sp, st) → st ≤ t)
    (hp : p ≤ pattern.length) (ht : t ≤ text.length)
    (hsince : ∀ sp st, star = some (sp, st) → Since pattern p t sp st) :
    globLoop pattern text p t star hstar = true ↔
      Rest pattern text p t ∨ Later pattern text star := by
  induction p, t, star, hstar using globLoop.induct pattern text with
  | case1 p t star hstar hinside hrun ih =>
      rw [globLoop.eq_def, dif_pos hinside, dif_pos hrun]
      have hlength : p < pattern.length := (List.getElem?_eq_some_iff.mp hrun).1
      rw [ih hlength ht (by rintro _ _ ⟨⟩; exact Since.start hrun t), rest_star hrun]
      constructor
      · rintro (hrest | ⟨sp, st, k, ⟨⟩, hk, hle, hrest⟩)
        · exact .inl ⟨t, le_rfl, le_max_left t _, hrest⟩
        · exact .inl ⟨k, hk.le, hle.trans (le_max_right _ _), hrest⟩
      · rintro (⟨k, hk, hle, hrest⟩ | ⟨sp, st, k, rfl, hk, hle, hrest⟩)
        · rcases hk.eq_or_lt with rfl | hlt
          · exact .inl hrest
          · exact .inr ⟨p, t, k, rfl, hlt, by omega, hrest⟩
        · -- what the earlier star takes, this one takes
          have hplace := (hsince sp st rfl).place
          obtain ⟨hwithin, hat⟩ := (hsince sp st rfl).shift hrest hle
          obtain ⟨k', hk', hle', hrest'⟩ := (rest_star hrun).mp hat
          exact .inr ⟨p, t, k', rfl, by omega, by omega, hrest'⟩
  | case2 p t star hstar hinside hrun htakes ih =>
      rw [globLoop.eq_def, dif_pos hinside, dif_neg hrun, if_pos htakes, rest_step hrun hinside]
      obtain ⟨c, hc⟩ : ∃ c, pattern[p]? = some c := by
        rcases htakes with hq | hb
        · exact ⟨_, hq⟩
        · exact ⟨_, hb⟩
      have hne : c ≠ STAR := fun heq => hrun (by rw [hc, heq])
      rw [ih (List.getElem?_eq_some_iff.mp hc).1 hinside
        fun sp st h => (hsince sp st h).step hc hne]
      exact or_congr_left ⟨fun hrest => ⟨htakes, hrest⟩, fun hrest => hrest.2⟩
  | case3 p t hinside hrun htakes sp st hstar hle ih =>
      rw [globLoop.eq_def, dif_pos hinside, dif_neg hrun, if_neg htakes]
      have hnow := hsince sp st rfl
      have hplace := hnow.place
      have hnoRest : ¬ Rest pattern text p t := fun hrest =>
        htakes ((rest_step hrun hinside).mp hrest).1
      have hagain : Since pattern (sp + 1) (st + 1) sp (st + 1) :=
        ⟨le_rfl, by omega, fun i hlow hhigh => by omega, by
          have := hnow.count
          have := hnow.inside
          omega⟩
      show globLoop pattern text (sp + 1) (st + 1) (some (sp, st + 1)) _ = true ↔ _
      rw [ih hagain.inside (by omega) (by rintro _ _ ⟨⟩; exact hagain)]
      constructor
      · rintro (hrest | ⟨sp', st', k, ⟨⟩, hk, hle, hrest⟩)
        · exact .inr ⟨sp, st, st + 1, rfl, st.lt_succ_self, by omega, hrest⟩
        · exact .inr ⟨sp, st, k, rfl, by omega, hle, hrest⟩
      · rintro (hrest | ⟨sp', st', k, ⟨⟩, hk, hle, hrest⟩)
        · exact absurd hrest hnoRest
        · rcases (Nat.succ_le_of_lt hk).eq_or_lt with rfl | hlt
          · exact .inl hrest
          · exact .inr ⟨sp, st + 1, k, rfl, hlt, hle, hrest⟩
  | case4 p t hinside hrun htakes hstar =>
      rw [globLoop.eq_def, dif_pos hinside, dif_neg hrun, if_neg htakes]
      constructor
      · exact fun h => absurd h Bool.false_ne_true
      · rintro (hrest | ⟨sp, st, k, hnone, -⟩)
        · exact absurd ((rest_step hrun hinside).mp hrest).1 htakes
        · exact absurd hnone nofun
  | case5 p t star hstar hend =>
      rw [globLoop.eq_def, dif_neg hend, min_eq_left hp, rest_end (by omega)]
      constructor
      · exact .inl
      · rintro (hall | ⟨sp, st, k, rfl, hk, hle, hrest⟩)
        · exact hall
        · -- there is no text left for the parts after the star
          have hplace := (hsince sp st rfl).place
          obtain ⟨hwithin, -⟩ := (hsince sp st rfl).shift hrest hle
          omega

/-- A pattern matches a text exactly when the text can be split so that each `*` stands for any
run of bytes, each `?` for one and every other byte for itself. -/
theorem globMatch_iff (pattern text : List UInt8) :
    globMatch pattern text = true ↔ Matches (pattern.map token) text := by
  unfold globMatch
  rw [globLoop_iff (by rintro _ _ ⟨⟩) (Nat.zero_le _) (Nat.zero_le _) (by rintro _ _ ⟨⟩)]
  constructor
  · rintro (hrest | ⟨sp, st, k, hnone, -⟩)
    · exact hrest
    · exact absurd hnone nofun
  · exact .inl

end Teitunnel.Lens
