import Teitunnel.Lib.Table

/-!
# Tickets

A ticket that is in one place at a time is never used twice.  What a place is differs (an entry of a
table, an element of a list), so a ticket's places are counted; a step moves tickets, drops them or
draws ones that nobody knew.
-/

namespace Table

variable {κ ν : Type*} {t : Table κ ν} {k : κ} {v old : ν} {f : ν → ℕ}

/-- What the values of a table weigh. -/
def weigh (f : ν → ℕ) (t : Table κ ν) : ℕ := (t.entries.map fun entry => f entry.2).sum

@[simp] lemma weigh_empty : (empty : Table κ ν).weigh f = 0 := rfl

variable [DecidableEq κ]

lemma weigh_erase_of_none (h : t.find k = none) : (t.erase k).weigh f = t.weigh f := by
  have hall : ∀ entry ∈ t.entries, decide (entry.1 ≠ k) = true := by
    rintro ⟨k', w⟩ hmem
    refine decide_eq_true fun hkey => ?_
    exact find_eq_none_iff.mp h w ((show k' = k from hkey) ▸ hmem)
  have heq : (t.erase k).entries = t.entries := List.filter_eq_self.mpr hall
  rw [weigh, weigh, heq]

lemma weigh_erase_of_some (h : t.find k = some old) : (t.erase k).weigh f + f old = t.weigh f := by
  obtain ⟨before, after, hsplit⟩ := List.append_of_mem (find_eq_some_iff.mp h)
  have hkeys := t.distinct
  rw [hsplit, List.map_append, List.map_cons] at hkeys
  have hnot := List.nodup_middle.mp hkeys
  rw [List.nodup_cons, List.mem_append, not_or] at hnot
  have hkeep : ∀ part : List (κ × ν), k ∉ part.map Prod.fst →
      part.filter (fun entry => decide (entry.1 ≠ k)) = part := by
    intro part hpart
    refine List.filter_eq_self.mpr fun entry hentry => decide_eq_true fun hkey => ?_
    exact hpart (hkey ▸ List.mem_map_of_mem hentry)
  have hentries : (t.erase k).entries = before ++ after := by
    show t.entries.filter (fun entry => decide (entry.1 ≠ k)) = _
    rw [hsplit, List.filter_append, List.filter_cons_of_neg (by simp), hkeep before hnot.1.1,
      hkeep after hnot.1.2]
  rw [weigh, weigh, hentries, hsplit]
  simp only [List.map_append, List.map_cons, List.sum_append, List.sum_cons]
  omega

lemma weigh_insert_of_none (h : t.find k = none) : (t.insert k v).weigh f = f v + t.weigh f := by
  rw [← weigh_erase_of_none h]
  rfl

lemma weigh_insert_of_some (h : t.find k = some old) :
    (t.insert k v).weigh f + f old = f v + t.weigh f := by
  rw [← weigh_erase_of_some h, ← Nat.add_assoc]
  rfl

lemma weigh_erase_le : (t.erase k).weigh f ≤ t.weigh f := by
  cases h : t.find k with
  | none => exact (weigh_erase_of_none h).le
  | some old =>
      rw [← weigh_erase_of_some h]
      exact Nat.le_add_right _ _

/-- A value in the place of one that weighs as much. -/
lemma weigh_insert_le (h : t.find k = some old) (hle : f v ≤ f old) :
    (t.insert k v).weigh f ≤ t.weigh f := by
  have heq := weigh_insert_of_some  (v := v) (f := f) h
  omega

end Table

namespace Tickets

variable {σ κ : Type*} {places : σ → κ → ℕ} {known : σ → κ → Prop} {s t : σ}

/-- Every ticket is in one place at most, and one that is anywhere is known. -/
def Single (places : σ → κ → ℕ) (known : σ → κ → Prop) (s : σ) : Prop :=
  ∀ k, places s k ≤ 1 ∧ (0 < places s k → known s k)

/-- A step that leaves a ticket where it is, moves it, drops it or draws a new one. -/
def Moved (places : σ → κ → ℕ) (known : σ → κ → Prop) (s t : σ) (k : κ) : Prop :=
  places t k ≤ places s k ∨ ¬ known s k ∧ known t k ∧ places t k ≤ places s k + 1

lemma Single.step (h : Single places known s) (hknown : ∀ k, known s k → known t k)
    (hmoved : ∀ k, Moved places known s t k) : Single places known t := by
  intro k
  obtain ⟨hone, hsome⟩ := h k
  rcases hmoved k with hle | ⟨hnew, hnow, hle⟩
  · exact ⟨hle.trans hone, fun hpos => hknown k (hsome (hpos.trans_le hle))⟩
  · have hzero : places s k = 0 := by
      by_contra hne
      exact hnew (hsome (Nat.pos_of_ne_zero hne))
    rw [hzero] at hle
    exact ⟨hle, fun _ => hnow⟩

end Tickets
