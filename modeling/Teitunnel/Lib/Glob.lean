import Mathlib.Tactic

/-!
# Globs

A pattern of letters, single gaps and gaps of any length, and what texts it covers.
-/

namespace Glob

variable {α : Type*}

/-- A part of a pattern. -/
inductive Token (α : Type*) where
  /-- Any run of letters, also none. -/
  | run
  /-- Any one letter. -/
  | one
  | letter (a : α)
  deriving DecidableEq

/-- The pieces of text that a part stands for. -/
def Token.Covers : Token α → List α → Prop
  | .run, _ => True
  | .one, piece => ∃ a, piece = [a]
  | .letter a, piece => piece = [a]

/-- The text can be split into pieces, one for each part. -/
def Matches (pattern : List (Token α)) (text : List α) : Prop :=
  ∃ pieces : List (List α), pieces.flatten = text ∧ List.Forall₂ Token.Covers pattern pieces

lemma matches_nil {text : List α} : Matches [] text ↔ text = [] := by
  constructor
  · rintro ⟨pieces, rfl, hcovers⟩
    rw [List.forall₂_nil_left_iff.mp hcovers]
    rfl
  · rintro rfl
    exact ⟨[], rfl, .nil⟩

lemma matches_cons {token : Token α} {pattern : List (Token α)} {text : List α} :
    Matches (token :: pattern) text ↔
      ∃ piece rest, text = piece ++ rest ∧ token.Covers piece ∧ Matches pattern rest := by
  constructor
  · rintro ⟨pieces, rfl, hcovers⟩
    obtain ⟨piece, pieces, hpiece, hrest, rfl⟩ := List.forall₂_cons_left_iff.mp hcovers
    exact ⟨piece, pieces.flatten, List.flatten_cons, hpiece, pieces, rfl, hrest⟩
  · rintro ⟨piece, rest, rfl, hpiece, pieces, rfl, hcovers⟩
    exact ⟨piece :: pieces, List.flatten_cons, .cons hpiece hcovers⟩

/-- A gap takes any beginning of the text. -/
lemma matches_run {pattern : List (Token α)} {text : List α} :
    Matches (.run :: pattern) text ↔ ∃ k ≤ text.length, Matches pattern (text.drop k) := by
  rw [matches_cons]
  constructor
  · rintro ⟨piece, rest, rfl, -, hrest⟩
    refine ⟨piece.length, ?_, ?_⟩
    · rw [List.length_append]
      omega
    · rwa [List.drop_left]
  · rintro ⟨k, -, hrest⟩
    exact ⟨text.take k, text.drop k, (List.take_append_drop k text).symm, trivial, hrest⟩

/-- Any other part takes one letter. -/
lemma matches_step {token : Token α} (h : token ≠ .run) {pattern : List (Token α)}
    {text : List α} :
    Matches (token :: pattern) text ↔
      ∃ a rest, text = a :: rest ∧ token.Covers [a] ∧ Matches pattern rest := by
  rw [matches_cons]
  constructor
  · rintro ⟨piece, rest, rfl, hpiece, hrest⟩
    cases token with
    | run => exact absurd rfl h
    | one =>
        obtain ⟨a, rfl⟩ := hpiece
        exact ⟨a, rest, rfl, ⟨a, rfl⟩, hrest⟩
    | letter a =>
        obtain rfl : piece = [a] := hpiece
        exact ⟨a, rest, rfl, rfl, hrest⟩
  · rintro ⟨a, rest, rfl, hpiece, hrest⟩
    exact ⟨[a], rest, rfl, hpiece, hrest⟩

/-- Only gaps stand for nothing. -/
lemma matches_empty {pattern : List (Token α)} :
    Matches pattern ([] : List α) ↔ ∀ token ∈ pattern, token = .run := by
  induction pattern with
  | nil => exact ⟨fun _ => nofun, fun _ => matches_nil.mpr rfl⟩
  | cons token pattern ih =>
      by_cases h : token = .run
      · subst h
        rw [matches_run, List.forall_mem_cons, ← ih]
        constructor
        · rintro ⟨k, -, hrest⟩
          rw [List.drop_nil] at hrest
          exact ⟨rfl, hrest⟩
        · rintro ⟨-, hrest⟩
          exact ⟨0, le_rfl, hrest⟩
      · rw [matches_step h]
        constructor
        · rintro ⟨a, rest, hnil, -⟩
          exact absurd hnil nofun
        · intro hall
          exact absurd (hall token List.mem_cons_self) h

/-- Parts that take one letter each take as many as they are. -/
lemma matches_steps {front pattern : List (Token α)} (h : ∀ token ∈ front, token ≠ .run)
    {text : List α} (hmatches : Matches (front ++ pattern) text) :
    front.length ≤ text.length ∧ Matches pattern (text.drop front.length) := by
  induction front generalizing text with
  | nil => exact ⟨Nat.zero_le _, hmatches⟩
  | cons token front ih =>
      obtain ⟨hhead, hfront⟩ := List.forall_mem_cons.mp h
      obtain ⟨a, rest, rfl, -, hrest⟩ := (matches_step hhead).mp hmatches
      obtain ⟨hlength, hmatches'⟩ := ih hfront hrest
      exact ⟨Nat.succ_le_succ hlength, hmatches'⟩

end Glob
