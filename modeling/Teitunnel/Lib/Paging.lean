import Mathlib.Data.List.Basic
import Mathlib.Order.WellFounded
import Mathlib.Tactic

/-!
# Pages

A reader asks for one page after the other, greatest key first; each page says after which key
the next begins.  What is on offer may be another at each request.
-/

namespace Paging

variable {α κ : Type} [LinearOrder κ]

/-- One page, and after which key the next begins. -/
structure Page (α κ : Type) where
  items : List α
  next : Option κ
  deriving DecidableEq

/-- A key that comes after the cursor. -/
def After (before : Option κ) (k : κ) : Prop := ∀ c ∈ before, k < c

/-- A page answers a request: greatest key first, nothing that is not offered, and what it leaves
out comes after its cursor. -/
structure Answers (key : α → κ) (offered : α → Prop) (before : Option κ) (page : Page α κ) :
    Prop where
  offers : ∀ x ∈ page.items, offered x ∧ After before (key x)
  sorted : page.items.Pairwise fun x y => key y < key x
  cursor : ∀ c ∈ page.next, ∃ x ∈ page.items.getLast?, key x = c
  complete : ∀ x, offered x → After before (key x) → x ∈ page.items ∨
    ∃ c ∈ page.next, key x < c

/-- The pages of a reader who asks until there is no cursor. -/
inductive Follows (ask : ℕ → Option κ → Page α κ) : ℕ → Option κ → List (Page α κ) → Prop
  | last {n before} (h : (ask n before).next = none) : Follows ask n before [ask n before]
  | more {n before c pages} (h : (ask n before).next = some c)
      (rest : Follows ask (n + 1) (some c) pages) : Follows ask n before (ask n before :: pages)

/-- All that the pages show. -/
def shown (pages : List (Page α κ)) : List α := pages.flatMap Page.items

variable {key : α → κ} {offered : ℕ → α → Prop} {ask : ℕ → Option κ → Page α κ}

lemma Answers.congr {offered offered' : α → Prop} {before : Option κ} {page : Page α κ}
    (h : Answers key offered before page) (hoffered : ∀ x, offered x ↔ offered' x) :
    Answers key offered' before page := by
  obtain rfl : offered = offered' := funext fun x => propext (hoffered x)
  exact h

/-- The last entry has the least key. -/
lemma Answers.cursor_le {offered : α → Prop} {before : Option κ} {page : Page α κ}
    (h : Answers key offered before page) {c : κ} (hc : c ∈ page.next) {x : α}
    (hx : x ∈ page.items) : c ≤ key x := by
  obtain ⟨y, hy, rfl⟩ := h.cursor c hc
  obtain ⟨front, hfront⟩ := List.getLast?_eq_some_iff.mp hy
  have hsorted := h.sorted
  rw [hfront] at hx hsorted
  rcases List.mem_append.mp hx with hx | hx
  · exact ((List.pairwise_append.mp hsorted).2.2 x hx y (List.mem_singleton_self y)).le
  · rw [List.mem_singleton.mp hx]

/-- Each cursor comes after the one before it. -/
lemma Answers.next_after {offered : α → Prop} {before : Option κ} {page : Page α κ}
    (h : Answers key offered before page) {c : κ} (hc : c ∈ page.next) : After before c := by
  obtain ⟨x, hx, rfl⟩ := h.cursor c hc
  exact (h.offers x (List.mem_of_getLast? hx)).2

/-- The front of a list in order, with its last key if there is more, is a page. -/
lemma answers_take {offered : α → Prop} {before : Option κ} {l : List α} {limit : ℕ}
    (hsorted : l.Pairwise fun x y => key y < key x)
    (hmem : ∀ x, x ∈ l ↔ offered x ∧ After before (key x)) (hlimit : 0 < limit) :
    Answers key offered before
      ⟨l.take limit, if limit < l.length then (l.take limit).getLast?.map key else none⟩ where
  offers x hx := (hmem x).mp (List.mem_of_mem_take hx)
  sorted := hsorted.sublist (List.take_sublist _ _)
  cursor c hc := by
    by_cases hmore : limit < l.length
    · rw [if_pos hmore] at hc
      obtain ⟨x, hx, rfl⟩ := Option.map_eq_some_iff.mp hc
      exact ⟨x, hx, rfl⟩
    · rw [if_neg hmore] at hc
      exact absurd hc (by simp)
  complete x hx hafter := by
    have hl : x ∈ l := (hmem x).mpr ⟨hx, hafter⟩
    rw [← List.take_append_drop limit l, List.mem_append] at hl
    rcases hl with hfront | hback
    · exact .inl hfront
    · have hmore : limit < l.length := by
        by_contra hle
        rw [List.drop_eq_nil_of_le (by omega)] at hback
        exact List.not_mem_nil hback
      have hne : l.take limit ≠ [] := by
        rw [← List.length_pos_iff, List.length_take]
        omega
      refine .inr ⟨key ((l.take limit).getLast hne), ?_, ?_⟩
      · rw [if_pos hmore, List.getLast?_eq_some_getLast hne]
        rfl
      · rw [← List.take_append_drop limit l] at hsorted
        exact (List.pairwise_append.mp hsorted).2.2 _ (List.getLast_mem hne) x hback

omit [LinearOrder κ] in
/-- There is one way to follow the cursors. -/
lemma Follows.unique {n : ℕ} {before : Option κ} {pages pages' : List (Page α κ)}
    (h : Follows ask n before pages) (h' : Follows ask n before pages') : pages = pages' := by
  induction h generalizing pages' with
  | last hnext =>
      cases h' with
      | last _ => rfl
      | more hnext' _ =>
          rw [hnext] at hnext'
          exact absurd hnext' (by simp)
  | more hnext rest ih =>
      cases h' with
      | last hnext' =>
          rw [hnext] at hnext'
          exact absurd hnext' (by simp)
      | more hnext' rest' =>
          rw [hnext] at hnext'
          obtain rfl := Option.some.inj hnext'
          rw [ih rest']

section

variable (h : ∀ n before, Answers key (offered n) before (ask n before))
include h

/-- The reader comes to an end, as cursors only go down. -/
lemma follows_ends [WellFoundedLT κ] (n : ℕ) (before : Option κ) :
    ∃ pages, Follows ask n before pages := by
  have hsome : ∀ c : κ, ∀ n, ∃ pages, Follows ask n (some c) pages := by
    intro c
    induction c using WellFoundedLT.induction with
    | ind c ih =>
        intro n
        rcases hnext : (ask n (some c)).next with _ | c'
        · exact ⟨_, .last hnext⟩
        · have hlt : c' < c := (h n (some c)).next_after hnext c rfl
          obtain ⟨pages, hpages⟩ := ih c' hlt (n + 1)
          exact ⟨_, .more hnext hpages⟩
  rcases hnext : (ask n before).next with _ | c
  · exact ⟨_, .last hnext⟩
  · obtain ⟨pages, hpages⟩ := hsome c (n + 1)
    exact ⟨_, .more hnext hpages⟩

lemma Follows.after {n : ℕ} {before : Option κ} {pages : List (Page α κ)}
    (hpages : Follows ask n before pages) : ∀ x ∈ shown pages, After before (key x) := by
  induction hpages with
  | last hnext =>
      intro x hx
      rw [shown, List.flatMap_singleton] at hx
      exact ((h _ _).offers x hx).2
  | @more n before c pages hnext rest ih =>
      intro x hx
      rw [shown, List.flatMap_cons, List.mem_append] at hx
      rcases hx with hx | hx
      · exact ((h _ _).offers x hx).2
      · intro b hb
        have hlt : c < b := (h n before).next_after hnext b hb
        exact (ih x hx c rfl).trans hlt

/-- Over all pages the keys only go down. -/
lemma Follows.sorted {n : ℕ} {before : Option κ} {pages : List (Page α κ)}
    (hpages : Follows ask n before pages) :
    (shown pages).Pairwise fun x y => key y < key x := by
  induction hpages with
  | last hnext =>
      rw [shown, List.flatMap_singleton]
      exact (h _ _).sorted
  | @more n before c pages hnext rest ih =>
      rw [shown, List.flatMap_cons, List.pairwise_append]
      refine ⟨(h n before).sorted, ih, ?_⟩
      intro x hx y hy
      have hc : c ≤ key x := (h n before).cursor_le hnext hx
      exact (rest.after h y hy c rfl).trans_le hc

/-- A page shows what was offered when it was asked for. -/
lemma Follows.sound {n : ℕ} {before : Option κ} {pages : List (Page α κ)}
    (hpages : Follows ask n before pages) {i : ℕ} {page : Page α κ} (hi : pages[i]? = some page)
    {x : α} (hx : x ∈ page.items) : offered (n + i) x := by
  induction hpages generalizing i with
  | last hnext =>
      rcases i with _ | i
      · obtain rfl := Option.some.inj hi
        exact ((h _ _).offers x hx).1
      · simp at hi
  | @more n before c pages hnext rest ih =>
      rcases i with _ | i
      · obtain rfl := Option.some.inj hi
        exact ((h _ _).offers x hx).1
      · rw [List.getElem?_cons_succ] at hi
        have := ih hi
        rwa [Nat.add_right_comm] at this

/-- What is offered at every request under one key is shown. -/
lemma Follows.complete {n : ℕ} {before : Option κ} {pages : List (Page α κ)}
    (hpages : Follows ask n before pages) {k : κ} (hk : After before k)
    (hoffered : ∀ i < pages.length, ∃ x, offered (n + i) x ∧ key x = k) :
    ∃ x ∈ shown pages, key x = k := by
  induction hpages with
  | @last n before hnext =>
      obtain ⟨x, hx, rfl⟩ := hoffered 0 (by simp)
      rcases (h n before).complete x hx hk with hx | ⟨c, hc, -⟩
      · exact ⟨x, by rwa [shown, List.flatMap_singleton], rfl⟩
      · rw [hnext] at hc
        exact absurd hc (by simp)
  | @more n before c pages hnext rest ih =>
      obtain ⟨x, hx, rfl⟩ := hoffered 0 (by simp)
      rcases (h n before).complete x hx hk with hx | ⟨c', hc', hlt⟩
      · exact ⟨x, by rw [shown, List.flatMap_cons]; exact List.mem_append_left _ hx, rfl⟩
      · have hafter : After (some c) (key x) := by
          rw [← hnext]
          intro d hd
          rwa [Option.mem_unique hd hc']
        obtain ⟨y, hy, hkey⟩ := ih hafter fun i hi => by
          have := hoffered (i + 1) (by simpa using hi)
          rwa [Nat.add_right_comm]
        refine ⟨y, ?_, hkey⟩
        rw [shown, List.flatMap_cons]
        exact List.mem_append_right _ hy

end

end Paging
