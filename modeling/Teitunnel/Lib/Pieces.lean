import Mathlib.Tactic
import Mathlib.Data.List.DropRight
import Mathlib.Data.List.TakeWhile

/-!
# Pieces of a line

A line cut at a separator, the pieces trimmed and put together with the separator and a filler.
-/

namespace Pieces

variable {α : Type*} {p q : α → Bool} {l : List α}

/-! ## Trimming -/

/-- Without what satisfies `p` at both ends. -/
def trim (p : α → Bool) (l : List α) : List α := (l.dropWhile p).rdropWhile p

lemma trim_sublist (p : α → Bool) (l : List α) : ∀ a ∈ trim p l, a ∈ l := fun _ ha =>
  (List.dropWhile_suffix p).mem ((List.rdropWhile_prefix p _).mem ha)

lemma dropWhile_congr (h : ∀ a ∈ l, p a = q a) : l.dropWhile p = l.dropWhile q := by
  induction l with
  | nil => rfl
  | cons a l ih =>
      rw [List.dropWhile_cons, List.dropWhile_cons, h a List.mem_cons_self,
        ih fun b hb => h b (List.mem_cons_of_mem a hb)]

lemma trim_congr (h : ∀ a ∈ l, p a = q a) : trim p l = trim q l := by
  unfold trim List.rdropWhile
  rw [dropWhile_congr h, dropWhile_congr fun a ha => ?_]
  exact h a ((List.dropWhile_suffix q).mem (List.mem_reverse.mp ha))

/-- What is trimmed stays as it is. -/
lemma trim_trim (p : α → Bool) (l : List α) : trim p (trim p l) = trim p l := by
  have hstart : (trim p l).dropWhile p = trim p l := by
    rw [List.dropWhile_eq_self_iff]
    intro hlength
    have hbegins : trim p l <+: l.dropWhile p := List.rdropWhile_prefix p _
    have hlength' : 0 < (l.dropWhile p).length := hlength.trans_le hbegins.length_le
    rw [hbegins.getElem hlength]
    exact List.dropWhile_eq_self_iff.mp (List.dropWhile_idempotent p l) hlength'
  show ((trim p l).dropWhile p).rdropWhile p = trim p l
  rw [hstart]
  exact List.rdropWhile_idempotent p _

lemma trim_cons {a : α} (h : p a = true) (l : List α) : trim p (a :: l) = trim p l := by
  unfold trim
  rw [List.dropWhile_cons_of_pos h]

/-! ## Cutting -/

variable [DecidableEq α] {sep filler : α}

/-- A piece has no separator, and nothing that the line hasn't. -/
lemma mem_splitOn {piece : List α} (h : piece ∈ l.splitOn sep) :
    sep ∉ piece ∧ ∀ a ∈ piece, a ∈ l := by
  induction l generalizing piece with
  | nil =>
      rw [List.splitOn_nil, List.mem_singleton] at h
      subst h
      exact ⟨List.not_mem_nil, fun a ha => ha⟩
  | cons b l ih =>
      rw [List.splitOn_cons_eq_if_modifyHead] at h
      split at h
      · rcases List.mem_cons.mp h with rfl | hrest
        · exact ⟨List.not_mem_nil, fun a ha => absurd ha List.not_mem_nil⟩
        · obtain ⟨hsep, hall⟩ := ih hrest
          exact ⟨hsep, fun a ha => List.mem_cons_of_mem b (hall a ha)⟩
      · next hne =>
          obtain ⟨first, rest, hsplit⟩ := List.exists_cons_of_ne_nil (List.splitOn_ne_nil sep l)
          rw [hsplit, List.modifyHead_cons] at h
          rcases List.mem_cons.mp h with rfl | hrest
          · obtain ⟨hsep, hall⟩ := ih (hsplit ▸ List.mem_cons_self)
            constructor
            · intro hmem
              rcases List.mem_cons.mp hmem with rfl | hmem
              · exact hne (beq_self_eq_true _)
              · exact hsep hmem
            · intro a ha
              rcases List.mem_cons.mp ha with rfl | ha
              · exact List.mem_cons_self
              · exact List.mem_cons_of_mem b (hall a ha)
          · obtain ⟨hsep, hall⟩ := ih (hsplit ▸ List.mem_cons_of_mem first hrest)
            exact ⟨hsep, fun a ha => List.mem_cons_of_mem b (hall a ha)⟩

omit [DecidableEq α] in
/-- Putting together with a separator and a filler is putting together with the separator, with
the filler before each piece but the first. -/
lemma intercalate_filler (first : List α) (rest : List (List α)) :
    [sep, filler].intercalate (first :: rest) =
      [sep].intercalate (first :: rest.map (filler :: ·)) := by
  induction rest generalizing first with
  | nil => rw [List.map_nil, List.intercalate_singleton, List.intercalate_singleton]
  | cons second rest ih =>
      rw [List.map_cons, List.intercalate_cons_cons, List.intercalate_cons_cons, ih second]
      cases rest with
      | nil =>
          rw [List.map_nil, List.intercalate_singleton, List.intercalate_singleton]
          simp
      | cons third rest =>
          rw [List.map_cons, List.intercalate_cons_cons, List.intercalate_cons_cons]
          simp

/-- Trimmed pieces put together with a separator and a filler come apart again. -/
lemma trim_splitOn_intercalate {pieces : List (List α)} (hne : pieces ≠ [])
    (hsep : ∀ l ∈ pieces, sep ∉ l) (htrim : ∀ l ∈ pieces, trim p l = l) (hfiller : p filler = true)
    (hfiller' : sep ≠ filler) :
    (([sep, filler].intercalate pieces).splitOn sep).map (trim p) = pieces := by
  obtain ⟨first, rest, rfl⟩ := List.exists_cons_of_ne_nil hne
  rw [intercalate_filler, List.splitOn_intercalate, List.map_cons, List.map_map,
    htrim first List.mem_cons_self]
  · congr 1
    refine (List.map_congr_left fun l hl => ?_).trans (List.map_id rest)
    exact (trim_cons hfiller l).trans (htrim l (List.mem_cons_of_mem first hl))
  · intro l hl
    rcases List.mem_cons.mp hl with rfl | hl
    · exact hsep l List.mem_cons_self
    · obtain ⟨m, hm, rfl⟩ := List.mem_map.mp hl
      intro hmem
      rcases List.mem_cons.mp hmem with heq | hmem
      · exact hfiller' heq
      · exact hsep m (List.mem_cons_of_mem first hm) hmem
  · exact List.cons_ne_nil _ _

omit [DecidableEq α] in
/-- What is put together. -/
lemma mem_intercalate {a : α} {s : List α} {pieces : List (List α)}
    (h : a ∈ s.intercalate pieces) : a ∈ s ∨ ∃ l ∈ pieces, a ∈ l := by
  induction pieces with
  | nil => exact absurd h (by simp)
  | cons l rest ih =>
      cases rest with
      | nil =>
          rw [List.intercalate_singleton] at h
          exact .inr ⟨l, List.mem_cons_self, h⟩
      | cons m rest =>
          rw [List.intercalate_cons_cons, List.append_assoc] at h
          rcases List.mem_append.mp h with h | h
          · exact .inr ⟨l, List.mem_cons_self, h⟩
          · rcases List.mem_append.mp h with h | h
            · exact .inl h
            · rcases ih h with h | ⟨x, hx, hc⟩
              · exact .inl h
              · exact .inr ⟨x, List.mem_cons_of_mem l hx, hc⟩

end Pieces
