import Mathlib

/-!
# Lists of keyed entries

Lists whose entries are found by a test and changed in place: the first match is replaced, all
matches are dropped, and everything else stays where it is.
-/

namespace List

variable {α β : Type*} {p : α → Bool} {f : α → α}

/-- The list with its first element satisfying `p` replaced by its image under `f`. -/
def modifyFirst (p : α → Bool) (f : α → α) : List α → List α
  | [] => []
  | a :: l => if p a then f a :: l else a :: modifyFirst p f l

@[simp] lemma modifyFirst_nil : modifyFirst p f [] = [] := rfl

lemma modifyFirst_cons (a : α) (l : List α) :
    modifyFirst p f (a :: l) = if p a then f a :: l else a :: modifyFirst p f l := rfl

/-- Nothing changes when nothing satisfies the test. -/
lemma modifyFirst_of_forall {l : List α} (h : ∀ a ∈ l, p a = false) :
    modifyFirst p f l = l := by
  induction l with
  | nil => rfl
  | cons a l ih =>
      rw [modifyFirst_cons, h a mem_cons_self, if_neg (by decide),
        ih fun b hb => h b (mem_cons_of_mem a hb)]

/-- A projection that `f` keeps is kept all along the list. -/
lemma map_modifyFirst {g : α → β} {l : List α} (h : ∀ a ∈ l, p a → g (f a) = g a) :
    (modifyFirst p f l).map g = l.map g := by
  induction l with
  | nil => rfl
  | cons a l ih =>
      rw [modifyFirst_cons]
      split_ifs with hp
      · rw [map_cons, h a mem_cons_self hp, map_cons]
      · rw [map_cons, ih fun b hb => h b (mem_cons_of_mem a hb), map_cons]

@[simp] lemma length_modifyFirst {l : List α} : (modifyFirst p f l).length = l.length := by
  simpa using congrArg length (map_modifyFirst (g := fun _ => ()) (p := p) (f := f) (l := l)
    fun _ _ _ => rfl)

/-- An element of the changed list is one of before, or the image of the first match. -/
lemma mem_modifyFirst {a : α} {l : List α} (h : a ∈ modifyFirst p f l) :
    a ∈ l ∨ ∃ b ∈ l, p b ∧ a = f b := by
  induction l with
  | nil => exact absurd h not_mem_nil
  | cons b l ih =>
      rw [modifyFirst_cons] at h
      split_ifs at h with hp
      · rcases mem_cons.mp h with rfl | h
        · exact .inr ⟨b, mem_cons_self, hp, rfl⟩
        · exact .inl (mem_cons_of_mem b h)
      · rcases mem_cons.mp h with rfl | h
        · exact .inl mem_cons_self
        · rcases ih h with h | ⟨c, hc, hpc, rfl⟩
          · exact .inl (mem_cons_of_mem b h)
          · exact .inr ⟨c, mem_cons_of_mem b hc, hpc, rfl⟩

/-- With at most one match, the change is a change of every match. -/
lemma modifyFirst_eq_map {l : List α} (h : (l.filter p).length ≤ 1) :
    modifyFirst p f l = l.map fun a => if p a then f a else a := by
  induction l with
  | nil => rfl
  | cons a l ih =>
      rw [modifyFirst_cons, map_cons]
      split_ifs with hp
      · rw [filter_cons_of_pos hp, length_cons] at h
        have hnil : l.filter p = [] := length_eq_zero_iff.mp (by omega)
        have hl : ∀ b ∈ l, ¬ p b := filter_eq_nil_iff.mp hnil
        congr 1
        exact (map_id'' (fun b => rfl) l).symm.trans
          (map_congr_left fun b hb => (if_neg (hl b hb)).symm)
      · rw [filter_cons_of_neg hp] at h
        rw [ih h]

/-- Where an element stands in a list with one more: it is the new one, or stood there before. -/
lemma split_snoc {l pre mid : List α} {a b : α} (h : l ++ [b] = pre ++ a :: mid) :
    (mid = [] ∧ b = a ∧ l = pre) ∨ ∃ mid', mid = mid' ++ [b] ∧ l = pre ++ a :: mid' := by
  rcases eq_nil_or_concat mid with rfl | ⟨mid', c, rfl⟩
  · obtain ⟨hl, hlast⟩ := append_inj' h rfl
    exact .inl ⟨rfl, by simpa using hlast, hl⟩
  · have h' : l ++ [b] = (pre ++ a :: mid') ++ [c] := by simpa using h
    obtain ⟨hl, hlast⟩ := append_inj' h' rfl
    have hbc : b = c := by simpa using hlast
    exact .inr ⟨mid', by rw [hbc, concat_eq_append], hl⟩

/-- What a list holds after one place of it has been changed. -/
lemma getElem?_modify_eq_some {l : List α} {i j : ℕ} {b : α} (h : (l.modify i f)[j]? = some b) :
    (j = i ∧ ∃ a, l[i]? = some a ∧ b = f a) ∨ (j ≠ i ∧ l[j]? = some b) := by
  rw [getElem?_modify, Option.map_eq_map, Option.map_eq_some_iff] at h
  obtain ⟨a, ha, rfl⟩ := h
  by_cases hij : i = j
  · subst hij
    exact .inl ⟨rfl, a, ha, if_pos rfl⟩
  · exact .inr ⟨Ne.symm hij, by rw [if_neg hij]; exact ha⟩

/-- What a list holds after something was put at its end. -/
lemma getElem?_snoc_eq_some {l : List α} {a b : α} {i : ℕ} (h : (l ++ [a])[i]? = some b) :
    (i = l.length ∧ b = a) ∨ (i < l.length ∧ l[i]? = some b) := by
  rcases lt_trichotomy i l.length with hlt | rfl | hgt
  · rw [getElem?_append_left hlt] at h
    exact .inr ⟨hlt, h⟩
  · rw [getElem?_concat_length] at h
    exact .inl ⟨rfl, (Option.some.inj h).symm⟩
  · rw [getElem?_eq_none (by rw [length_append, length_singleton]; omega)] at h
    cases h

/-- A fallible loop that pushes what it reads: if it pushes each entry, it pushes them all. -/
lemma foldlM_push {σ ι κ : Type*} {m : Type _ → Type*} [Monad m] [LawfulMonad m]
    {step : σ → ι → m σ} {push : σ → List κ → σ} {entry : κ → ι} (hnil : ∀ s, push s [] = s)
    (hcons : ∀ s k l, push (push s [k]) l = push s (k :: l)) {l : List κ}
    (hstep : ∀ s, ∀ k ∈ l, step s (entry k) = pure (push s [k])) (s : σ) :
    (l.map entry).foldlM step s = pure (push s l) := by
  induction l generalizing s with
  | nil => rw [hnil, map_nil, foldlM_nil]
  | cons k l ih =>
      rw [map_cons, foldlM_cons, hstep s k mem_cons_self, pure_bind,
        ih fun s x hx => hstep s x (mem_cons_of_mem k hx), hcons]

/-! ## The first match -/

/-- What a list maps to comes from its elements. -/
lemma mem_of_mapM {α β : Type*} {f : α → Option β} {l : List α} {ys : List β}
    (h : l.mapM f = some ys) {y : β} (hy : y ∈ ys) : ∃ x ∈ l, f x = some y := by
  induction l generalizing ys with
  | nil =>
      obtain rfl := Option.some.inj h
      cases hy
  | cons a l ih =>
      rw [List.mapM_cons] at h
      obtain ⟨b, hb, h⟩ := Option.bind_eq_some_iff.mp h
      obtain ⟨bs, hbs, h⟩ := Option.bind_eq_some_iff.mp h
      obtain rfl := Option.some.inj h
      rcases List.mem_cons.mp hy with rfl | hy
      · exact ⟨a, List.mem_cons_self, hb⟩
      · obtain ⟨x, hx, hfx⟩ := ih hbs hy
        exact ⟨x, List.mem_cons_of_mem a hx, hfx⟩

end List
