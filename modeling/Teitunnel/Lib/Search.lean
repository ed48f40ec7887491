import Mathlib.Data.List.Basic
import Mathlib.Tactic

/-!
# Finding one list in another

Elements are compared by what a function says of them, such as a letter's lower case.
-/

namespace Search

variable {α β : Type} (f : α → β) (needle : List α)

/-- The needle is in the haystack at this place. -/
def OccursAt (haystack : List α) (place : ℕ) : Prop :=
  ((haystack.drop place).take needle.length).map f = needle.map f

instance [DecidableEq β] (haystack : List α) (place : ℕ) :
    Decidable (OccursAt f needle haystack place) := inferInstanceAs (Decidable (_ = _))

variable {f needle}

lemma OccursAt.add_length_le {haystack : List α} {place : ℕ}
    (h : OccursAt f needle haystack place) (hne : needle ≠ []) :
    place + needle.length ≤ haystack.length := by
  have hlength := congrArg List.length h
  rw [List.length_map, List.length_map, List.length_take, List.length_drop] at hlength
  have hpos := List.length_pos_iff.mpr hne
  omega

/-- What follows the needle doesn't matter. -/
lemma occursAt_append {haystack more : List α} {place : ℕ}
    (h : place + needle.length ≤ haystack.length) :
    OccursAt f needle (haystack ++ more) place ↔ OccursAt f needle haystack place := by
  unfold OccursAt
  rw [List.drop_append_of_le_length (by omega), List.take_append_of_le_length]
  rw [List.length_drop]
  omega

lemma OccursAt.append {haystack : List α} {place : ℕ} (h : OccursAt f needle haystack place)
    (hne : needle ≠ []) (more : List α) : OccursAt f needle (haystack ++ more) place :=
  (occursAt_append (h.add_length_le hne)).mpr h

/-- What is before the needle only moves it. -/
lemma occursAt_append_left {before haystack : List α} {place : ℕ} :
    OccursAt f needle (before ++ haystack) (before.length + place) ↔
      OccursAt f needle haystack place := by
  unfold OccursAt
  rw [List.drop_append, List.drop_eq_nil_of_le (by omega), Nat.add_sub_cancel_left,
    List.nil_append]

lemma occursAt_zero_append {a rest : List α} (h : a.map f = needle.map f) :
    OccursAt f needle (a ++ rest) 0 := by
  have hlength : a.length = needle.length := by simpa using congrArg List.length h
  rw [OccursAt, List.drop_zero, ← hlength, List.take_left, h]

variable [DecidableEq β] (f needle)

/-- The last place of the needle, which is not empty. -/
def rfind (haystack : List α) : Option ℕ :=
  if needle = [] then none
  else
    (List.range (haystack.length + 1 - needle.length)).reverse.find? fun place =>
      decide (OccursAt f needle haystack place)

variable {f needle}

lemma rfind_eq_none (hne : needle ≠ []) {haystack : List α} :
    rfind f needle haystack = none ↔ ∀ place, ¬ OccursAt f needle haystack place := by
  rw [rfind, if_neg hne, List.find?_eq_none]
  constructor
  · intro h place hplace
    have hle := hplace.add_length_le hne
    exact h place (List.mem_reverse.mpr (List.mem_range.mpr (by omega))) (decide_eq_true hplace)
  · intro h place _ hplace
    exact h place (of_decide_eq_true hplace)

/-- The last place: the needle is there and nowhere after it. -/
lemma rfind_eq_some (hne : needle ≠ []) {haystack : List α} {place : ℕ} :
    rfind f needle haystack = some place ↔
      OccursAt f needle haystack place ∧ ∀ later, place < later →
        ¬ OccursAt f needle haystack later := by
  rw [rfind, if_neg hne]
  have hrange : ∀ {n : ℕ} {p : ℕ → Bool}, (List.range n).reverse.find? p = some place ↔
      (p place = true ∧ place < n) ∧ ∀ later, place < later → later < n → p later = false := by
    intro n p
    induction n with
    | zero => simp
    | succ n ih =>
        rw [List.range_succ, List.reverse_append, List.reverse_singleton, List.singleton_append]
        cases hp : p n with
        | true =>
            rw [List.find?_cons_of_pos hp, Option.some.injEq]
            constructor
            · rintro rfl
              exact ⟨⟨hp, by omega⟩, fun later hlt hle => by omega⟩
            · rintro ⟨⟨hplace, hlt⟩, hlast⟩
              by_contra hdiffer
              have hfalse := hlast n (by omega) (by omega)
              rw [hp] at hfalse
              exact absurd hfalse nofun
        | false =>
            rw [List.find?_cons_of_neg (by rw [hp]; exact nofun), ih]
            constructor
            · rintro ⟨⟨hplace, hlt⟩, hlast⟩
              refine ⟨⟨hplace, by omega⟩, fun later hlater hle => ?_⟩
              rcases Nat.lt_succ_iff_lt_or_eq.mp hle with hbefore | rfl
              · exact hlast later hlater hbefore
              · exact hp
            · rintro ⟨⟨hplace, hlt⟩, hlast⟩
              have hdiffer : place ≠ n := by
                rintro rfl
                rw [hp] at hplace
                exact absurd hplace nofun
              exact ⟨⟨hplace, by omega⟩, fun later hlater hle => hlast later hlater (by omega)⟩
  rw [hrange, decide_eq_true_iff]
  constructor
  · rintro ⟨⟨hplace, -⟩, hlast⟩
    refine ⟨hplace, fun later hlater hoccurs => ?_⟩
    have hle := hoccurs.add_length_le hne
    exact of_decide_eq_false (hlast later hlater (by omega)) hoccurs
  · rintro ⟨hplace, hlast⟩
    have hle := hplace.add_length_le hne
    exact ⟨⟨hplace, by omega⟩, fun later hlater _ => decide_eq_false (hlast later hlater)⟩

end Search
