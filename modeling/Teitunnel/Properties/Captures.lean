import Teitunnel.Lens.Store
import Teitunnel.Lib.Runs

/-!
# Every exchange under its own id

The rings are ordered by number, the index goes from ids to numbers.  `Indexed` ties the two
together; every operation of the store keeps it, a `put` only when the ring holds no other
exchange under the same number (`Indexed.put`).  Numbers are handed out by a tap's runtime, and
a tap that is added again starts over: what a `put` needs is that the ring holds exchanges of
one life of the tap only.
-/

namespace Teitunnel.Lens

open Runs

/-! ## Rings and index -/

/-- The exchanges kept of `tap`. -/
def MemoryStore.items (store : MemoryStore) (tap : TapId) : List Exchange :=
  (store.ring tap).items

/-- How many exchanges of `tap` are kept. -/
def MemoryStore.capacity (store : MemoryStore) (tap : TapId) : ℕ :=
  (store.ring tap).capacity

/-- Rings ordered by number, and an index that finds exactly what they hold. -/
structure Indexed (items : TapId → List Exchange) (index : ExchangeId → Option (TapId × ℕ)) :
    Prop where
  sorted : ∀ tap, (items tap).Pairwise fun a b => a.seq < b.seq
  own : ∀ tap, ∀ x ∈ items tap, x.tap = tap
  found : ∀ id tap seq, index id = some (tap, seq) ↔ ∃ x ∈ items tap, x.id = id ∧ x.seq = seq

variable {items : TapId → List Exchange} {index : ExchangeId → Option (TapId × ℕ)}

/-- In a sorted ring a number belongs to one exchange. -/
lemma eq_of_seq {l : List Exchange} (hl : l.Pairwise fun a b => a.seq < b.seq) {x y : Exchange}
    (hx : x ∈ l) (hy : y ∈ l) (h : x.seq = y.seq) : x = y := by
  have hnodup : (l.map Exchange.seq).Nodup :=
    List.pairwise_map.mpr (hl.imp fun hlt => Nat.ne_of_lt hlt)
  exact List.inj_on_of_nodup_map hnodup hx hy h

/-- An id stands in one place. -/
lemma Indexed.unique (h : Indexed items index) {tap tap' : TapId} {x y : Exchange}
    (hx : x ∈ items tap) (hy : y ∈ items tap') (hid : x.id = y.id) : tap = tap' ∧ x = y := by
  have hindex := (h.found x.id tap x.seq).mpr ⟨x, hx, rfl, rfl⟩
  have hindex' := (h.found y.id tap' y.seq).mpr ⟨y, hy, rfl, rfl⟩
  rw [← hid, hindex] at hindex'
  obtain ⟨rfl, hseq⟩ := Prod.mk.inj (Option.some.inj hindex')
  exact ⟨rfl, eq_of_seq (h.sorted tap) hx hy hseq⟩

/-- The oldest exchange of a ring goes, out of the index as well. -/
lemma Indexed.dropFront {tap : TapId} {old : Exchange} {rest : List Exchange}
    (h : Indexed (Function.update items tap (old :: rest)) index) :
    Indexed (Function.update items tap rest) (Function.update index old.id none) := by
  have hself : Function.update items tap (old :: rest) tap = old :: rest := Function.update_self ..
  have hsorted := h.sorted tap
  rw [hself] at hsorted
  -- what stays is what was there without the oldest
  have hmem : ∀ tap' x, x ∈ Function.update items tap rest tap' ↔
      x ∈ Function.update items tap (old :: rest) tap' ∧ x.id ≠ old.id := by
    intro tap' x
    have hold : old ∈ Function.update items tap (old :: rest) tap := by
      rw [hself]
      exact List.mem_cons_self
    by_cases htap : tap' = tap
    · subst htap
      rw [Function.update_self, Function.update_self, List.mem_cons]
      constructor
      · intro hx
        refine ⟨.inr hx, fun hid => ?_⟩
        have hx' : x ∈ Function.update items tap' (old :: rest) tap' := by
          rw [hself]
          exact List.mem_cons_of_mem old hx
        have heq := (h.unique hx' hold hid).2
        have hlt := (List.pairwise_cons.mp hsorted).1 x hx
        rw [heq] at hlt
        exact lt_irrefl _ hlt
      · rintro ⟨rfl | hx, hid⟩
        · exact absurd rfl hid
        · exact hx
    · rw [Function.update_of_ne htap, Function.update_of_ne htap]
      refine ⟨fun hx => ⟨hx, fun hid => htap ?_⟩, fun hx => hx.1⟩
      have hx' : x ∈ Function.update items tap (old :: rest) tap' := by
        rwa [Function.update_of_ne htap]
      exact (h.unique hx' hold hid).1
  refine ⟨fun tap' => ?_, fun tap' x hx => h.own tap' x ((hmem tap' x).mp hx).1, fun id tap' seq => ?_⟩
  · have hold := h.sorted tap'
    by_cases htap : tap' = tap
    · subst htap
      rw [Function.update_self]
      exact (List.pairwise_cons.mp hsorted).2
    · rwa [Function.update_of_ne htap] at hold ⊢
  · by_cases hid : id = old.id
    · subst hid
      rw [Function.update_self]
      refine iff_of_false (by simp) ?_
      rintro ⟨x, hx, hid, -⟩
      exact ((hmem tap' x).mp hx).2 hid
    · rw [Function.update_of_ne hid, h.found]
      refine exists_congr fun x => ?_
      rw [hmem]
      constructor
      · rintro ⟨hx, rfl, hseq⟩
        exact ⟨⟨hx, hid⟩, rfl, hseq⟩
      · rintro ⟨⟨hx, -⟩, hx', hseq⟩
        exact ⟨hx, hx', hseq⟩

/-- Eviction keeps the index true. -/
lemma Indexed.evict {tap : TapId} {l : List Exchange} (capacity : ℕ)
    (h : Indexed (Function.update items tap l) index) :
    Indexed (Function.update items tap (Lens.evict capacity index l).1)
      (Lens.evict capacity index l).2 := by
  induction l generalizing index with
  | nil => exact h
  | cons old rest ih =>
      rw [Lens.evict]
      split_ifs with hlong
      · exact ih h.dropFront
      · exact h

/-- Eviction leaves the newest. -/
lemma evict_spec (capacity : ℕ) (index : ExchangeId → Option (TapId × ℕ)) (l : List Exchange) :
    ∃ gone, l = gone ++ (evict capacity index l).1 ∧ (evict capacity index l).1.length ≤ capacity ∧
      (gone ≠ [] → (evict capacity index l).1.length = capacity) := by
  induction l generalizing index with
  | nil => exact ⟨[], rfl, Nat.zero_le _, fun h => absurd rfl h⟩
  | cons old rest ih =>
      rw [evict]
      split_ifs with hlong
      · obtain ⟨gone, hgone, hle, hfull⟩ := ih (Function.update index old.id none)
        refine ⟨old :: gone, ?_, hle, fun _ => ?_⟩
        · rw [List.cons_append, ← hgone]
        · cases gone with
          | nil =>
              rw [List.nil_append] at hgone
              rw [List.length_cons, hgone] at hlong
              omega
          | cons _ _ => exact hfull (List.cons_ne_nil _ _)
      · exact ⟨[], rfl, not_lt.mp hlong, fun h => absurd rfl h⟩

/-- An exchange that goes leaves a full ring of later ones. -/
lemma evict_gone (capacity : ℕ) (index : ExchangeId → Option (TapId × ℕ)) {l : List Exchange}
    (hl : l.Pairwise fun a b => a.seq < b.seq) {x : Exchange} (hx : x ∈ l) :
    x ∈ (evict capacity index l).1 ∨
      ((evict capacity index l).1.length = capacity ∧
        ∀ y ∈ (evict capacity index l).1, x.seq < y.seq) := by
  obtain ⟨gone, hgone, -, hfull⟩ := evict_spec capacity index l
  rw [hgone] at hx hl
  rcases List.mem_append.mp hx with hx | hx
  · refine .inr ⟨hfull (List.ne_nil_of_mem hx), fun y hy => ?_⟩
    exact (List.pairwise_append.mp hl).2.2 x hx y hy
  · exact .inl hx

/-! ## Searching and inserting -/

lemma search_ok {l : List Exchange} {seq position : ℕ} (h : search l seq = .ok position) :
    ∃ y, l[position]? = some y ∧ y.seq = seq := by
  unfold search at h
  cases hfind : l.findIdx? (fun probe => decide (probe.seq = seq)) with
  | none => rw [hfind] at h; cases h
  | some i =>
      rw [hfind] at h
      cases h
      obtain ⟨hlt, hpos, -⟩ := List.findIdx?_eq_some_iff_getElem.mp hfind
      exact ⟨l[position], List.getElem?_eq_getElem hlt, of_decide_eq_true hpos⟩

lemma search_error {l : List Exchange} {seq position : ℕ} (h : search l seq = .error position) :
    (∀ x ∈ l, x.seq ≠ seq) ∧ position = l.countP fun probe => probe.seq < seq := by
  unfold search at h
  cases hfind : l.findIdx? (fun probe => decide (probe.seq = seq)) with
  | none =>
      rw [hfind] at h
      cases h
      refine ⟨fun x hx hseq => ?_, rfl⟩
      have hnot := List.findIdx?_eq_none_iff.mp hfind x hx
      exact absurd hseq (of_decide_eq_false hnot)
  | some i => rw [hfind] at h; cases h

/-- An exchange with a new number goes to its place. -/
lemma insertIdx_sorted {l : List Exchange} (hl : l.Pairwise fun a b => a.seq < b.seq) {e : Exchange}
    (hnew : ∀ x ∈ l, x.seq ≠ e.seq) :
    (l.insertIdx (l.countP fun probe => probe.seq < e.seq) e).Pairwise fun a b => a.seq < b.seq := by
  induction l with
  | nil => exact List.pairwise_singleton _ _
  | cons a rest ih =>
      obtain ⟨ha, hrest⟩ := List.pairwise_cons.mp hl
      have hne := hnew a List.mem_cons_self
      by_cases hlt : a.seq < e.seq
      · rw [List.countP_cons_of_pos (by simpa using hlt), List.insertIdx_succ_cons]
        refine List.pairwise_cons.mpr ⟨fun y hy => ?_, ih hrest fun x hx =>
          hnew x (List.mem_cons_of_mem a hx)⟩
        rcases (List.mem_insertIdx List.countP_le_length).mp hy with rfl | hy
        · exact hlt
        · exact ha y hy
      · have hgt : e.seq < a.seq := by omega
        have hnone : (a :: rest).countP (fun probe => decide (probe.seq < e.seq)) = 0 := by
          refine List.countP_eq_zero.mpr fun x hx => ?_
          rcases List.mem_cons.mp hx with rfl | hx
          · simpa using hlt
          · have hax := ha x hx
            simp only [decide_eq_true_eq]
            omega
        rw [hnone, List.insertIdx_zero]
        refine List.pairwise_cons.mpr ⟨fun y hy => ?_, hl⟩
        rcases List.mem_cons.mp hy with rfl | hy
        · exact hgt
        · exact hgt.trans (ha y hy)

lemma mem_insertIdx_countP {l : List Exchange} {e x : Exchange} :
    x ∈ l.insertIdx (l.countP fun probe => probe.seq < e.seq) e ↔ x = e ∨ x ∈ l :=
  List.mem_insertIdx List.countP_le_length

/-- A new exchange, under its number and its id. -/
lemma Indexed.insert {e : Exchange} (h : Indexed items index)
    (hnew : ∀ x ∈ items e.tap, x.seq ≠ e.seq) (hid : ∀ tap, ∀ x ∈ items tap, x.id ≠ e.id) :
    Indexed (Function.update items e.tap
        ((items e.tap).insertIdx ((items e.tap).countP fun probe => probe.seq < e.seq) e))
      (Function.update index e.id (some (e.tap, e.seq))) := by
  have hmem : ∀ tap x, x ∈ Function.update items e.tap
      ((items e.tap).insertIdx ((items e.tap).countP fun probe => probe.seq < e.seq) e) tap ↔
      (tap = e.tap ∧ x = e) ∨ x ∈ items tap := by
    intro tap x
    by_cases htap : tap = e.tap
    · rw [htap, Function.update_self, mem_insertIdx_countP]
      simp
    · rw [Function.update_of_ne htap]
      simp [htap]
  refine ⟨fun tap => ?_, fun tap x hx => ?_, fun id tap seq => ?_⟩
  · by_cases htap : tap = e.tap
    · rw [htap, Function.update_self]
      exact insertIdx_sorted (h.sorted e.tap) hnew
    · rw [Function.update_of_ne htap]
      exact h.sorted tap
  · rcases (hmem tap x).mp hx with ⟨rfl, rfl⟩ | hx
    · rfl
    · exact h.own tap x hx
  · by_cases heq : id = e.id
    · subst heq
      rw [Function.update_self]
      constructor
      · intro hsome
        obtain ⟨rfl, rfl⟩ := Prod.mk.inj (Option.some.inj hsome)
        exact ⟨e, (hmem _ e).mpr (.inl ⟨rfl, rfl⟩), rfl, rfl⟩
      · rintro ⟨x, hx, hxid, hseq⟩
        rcases (hmem tap x).mp hx with ⟨rfl, rfl⟩ | hx
        · rw [hseq]
        · exact absurd hxid (hid tap x hx)
    · rw [Function.update_of_ne heq, h.found]
      refine exists_congr fun x => ?_
      rw [hmem]
      constructor
      · rintro ⟨hx, hrest⟩
        exact ⟨.inr hx, hrest⟩
      · rintro ⟨⟨rfl, rfl⟩ | hx, hxid, hseq⟩
        · exact absurd hxid.symm heq
        · exact ⟨hx, hxid, hseq⟩

/-- An exchange replaced by one with the same numbers leaves the numbers of the ring. -/
lemma map_set_of_eq {α : Type} {f : Exchange → α} {l : List Exchange} {position : ℕ}
    {y e : Exchange} (hy : l[position]? = some y) (hf : f y = f e) :
    (l.set position e).map f = l.map f := by
  rw [List.map_set]
  refine List.ext_getElem? fun i => ?_
  by_cases hi : position = i
  · subst hi
    have hlt : position < (l.map f).length := by
      rw [List.length_map]
      exact (List.getElem?_eq_some_iff.mp hy).1
    rw [List.getElem?_set_self hlt, List.getElem?_map, hy, Option.map_some, hf]
  · rw [List.getElem?_set_ne hi]

/-- A newer state of an exchange, in its place. -/
lemma Indexed.replace {e y : Exchange} {position : ℕ} (h : Indexed items index)
    (hy : (items e.tap)[position]? = some y) (hseq : y.seq = e.seq) (hid : y.id = e.id) :
    Indexed (Function.update items e.tap ((items e.tap).set position e)) index := by
  have hpairs := map_set_of_eq (e := e) (f := fun x => (x.id, x.seq)) hy (by rw [hid, hseq])
  refine ⟨fun tap => ?_, fun tap x hx => ?_, fun id tap seq => ?_⟩
  · by_cases htap : tap = e.tap
    · rw [htap, Function.update_self]
      have hsorted := List.pairwise_map.mpr (h.sorted e.tap)
      rw [← map_set_of_eq hy hseq] at hsorted
      exact List.pairwise_map.mp hsorted
    · rw [Function.update_of_ne htap]
      exact h.sorted tap
  · by_cases htap : tap = e.tap
    · rw [htap, Function.update_self] at hx
      rw [htap]
      rcases List.mem_or_eq_of_mem_set hx with hx | rfl
      · exact h.own e.tap x hx
      · rfl
    · rw [Function.update_of_ne htap] at hx
      exact h.own tap x hx
  · have hplace : ∀ l : List Exchange, (∃ x ∈ l, x.id = id ∧ x.seq = seq) ↔
        (id, seq) ∈ l.map fun x => (x.id, x.seq) := by
      intro l
      simp only [List.mem_map, Prod.mk.injEq]
    rw [h.found, hplace, hplace]
    by_cases htap : tap = e.tap
    · rw [htap, Function.update_self, hpairs]
    · rw [Function.update_of_ne htap]

/-! ## The store's operations -/

/-- The index finds what the store holds. -/
def MemoryStore.Sound (store : MemoryStore) : Prop :=
  Indexed store.items store.index

/-- No ring holds more than it may. -/
def MemoryStore.Bounded (store : MemoryStore) : Prop :=
  1 ≤ store.defaultCapacity ∧
    ∀ tap, 1 ≤ store.capacity tap ∧ (store.items tap).length ≤ store.capacity tap

/-- Rings ordered by number, each number once. -/
def MemoryStore.Ordered (store : MemoryStore) : Prop :=
  ∀ tap, (store.items tap).Pairwise fun a b => a.seq < b.seq

namespace MemoryStore

variable {store : MemoryStore}

/-- The store with another ring for `tap`. -/
lemma ring_update (store : MemoryStore) (tap tap' : TapId) (ring : Ring)
    (index : ExchangeId → Option (TapId × ℕ)) :
    ({ store with rings := Function.update store.rings tap (some ring), index } :
      MemoryStore).ring tap' = if tap' = tap then ring else store.ring tap' := by
  by_cases htap : tap' = tap
  · rw [if_pos htap, htap, MemoryStore.ring]
    show (Function.update store.rings tap (some ring) tap).getD _ = ring
    rw [Function.update_self]
    rfl
  · rw [if_neg htap, MemoryStore.ring]
    show (Function.update store.rings tap (some ring) tap').getD _ = _
    rw [Function.update_of_ne htap]
    rfl

lemma items_update (store : MemoryStore) (tap : TapId) (ring : Ring)
    (index : ExchangeId → Option (TapId × ℕ)) :
    ({ store with rings := Function.update store.rings tap (some ring), index } :
      MemoryStore).items = Function.update store.items tap ring.items := by
  funext tap'
  rw [MemoryStore.items, ring_update]
  by_cases htap : tap' = tap
  · rw [if_pos htap, htap, Function.update_self]
  · rw [if_neg htap, Function.update_of_ne htap]
    rfl

lemma capacity_update (store : MemoryStore) (tap : TapId) (ring : Ring)
    (index : ExchangeId → Option (TapId × ℕ)) :
    ({ store with rings := Function.update store.rings tap (some ring), index } :
      MemoryStore).capacity = Function.update store.capacity tap ring.capacity := by
  funext tap'
  rw [MemoryStore.capacity, ring_update]
  by_cases htap : tap' = tap
  · rw [if_pos htap, htap, Function.update_self]
  · rw [if_neg htap, Function.update_of_ne htap]
    rfl

/-- What a `put` can do to the ring of the exchange's tap and to the index. -/
inductive PutTo (store : MemoryStore) (e : Exchange) :
    List Exchange → (ExchangeId → Option (TapId × ℕ)) → Prop where
  /-- An exchange under the same number is replaced. -/
  | replaced {position : ℕ} {y : Exchange} (hy : (store.items e.tap)[position]? = some y)
      (hseq : y.seq = e.seq) : PutTo store e ((store.items e.tap).set position e) store.index
  /-- It is older than everything in a full ring. -/
  | refused (hnew : ∀ x ∈ store.items e.tap, e.seq < x.seq)
      (hfull : store.capacity e.tap ≤ (store.items e.tap).length) :
      PutTo store e (store.items e.tap) store.index
  /-- It goes to its place, and the oldest ones go. -/
  | inserted (hnew : ∀ x ∈ store.items e.tap, x.seq ≠ e.seq) :
      PutTo store e
        (evict (store.capacity e.tap) (Function.update store.index e.id (some (e.tap, e.seq)))
          ((store.items e.tap).insertIdx
            ((store.items e.tap).countP fun probe => probe.seq < e.seq) e)).1
        (evict (store.capacity e.tap) (Function.update store.index e.id (some (e.tap, e.seq)))
          ((store.items e.tap).insertIdx
            ((store.items e.tap).countP fun probe => probe.seq < e.seq) e)).2

lemma put_cases (store : MemoryStore) (e : Exchange) :
    ∃ l index, PutTo store e l index ∧ store.put e =
      { store with
        rings := Function.update store.rings e.tap (some ⟨store.capacity e.tap, l⟩), index } := by
  cases hsearch : search (store.ring e.tap).items e.seq with
  | ok position =>
      obtain ⟨y, hy, hseq⟩ := search_ok hsearch
      simp only [MemoryStore.put, hsearch]
      exact ⟨_, _, .replaced hy hseq, rfl⟩
  | error position =>
      obtain ⟨hnew, rfl⟩ := search_error hsearch
      simp only [MemoryStore.put, hsearch]
      by_cases hfull : (store.ring e.tap).items.countP (fun probe => decide (probe.seq < e.seq)) = 0 ∧
          (store.ring e.tap).items.length ≥ (store.ring e.tap).capacity
      · refine ⟨_, _, .refused (fun x hx => ?_) hfull.2, if_pos hfull⟩
        have hnot := List.countP_eq_zero.mp hfull.1 x hx
        have hne := hnew x hx
        simp only [decide_eq_true_eq] at hnot
        omega
      · exact ⟨_, _, .inserted hnew, if_neg hfull⟩

lemma items_put {e : Exchange} {l : List Exchange} {index : ExchangeId → Option (TapId × ℕ)}
    (h : store.put e = { store with
      rings := Function.update store.rings e.tap (some ⟨store.capacity e.tap, l⟩), index }) :
    (store.put e).items = Function.update store.items e.tap l := by
  rw [h, items_update]

lemma capacity_put (store : MemoryStore) (e : Exchange) :
    (store.put e).capacity = store.capacity := by
  obtain ⟨l, index, -, h⟩ := put_cases store e
  rw [h, capacity_update, Function.update_eq_self]

lemma items_put_of_ne {e : Exchange} {tap : TapId} (htap : tap ≠ e.tap) :
    (store.put e).items tap = store.items tap := by
  obtain ⟨l, index, -, h⟩ := put_cases store e
  rw [items_put h, Function.update_of_ne htap]

/-- Nothing else comes into a ring. -/
lemma mem_items_put {e x : Exchange} {tap : TapId} (hx : x ∈ (store.put e).items tap) :
    x = e ∨ x ∈ store.items tap := by
  by_cases htap : tap = e.tap
  · subst htap
    obtain ⟨l, index, hput, h⟩ := put_cases store e
    rw [items_put h, Function.update_self] at hx
    cases hput with
    | replaced hy hseq =>
        rcases List.mem_or_eq_of_mem_set hx with hx | rfl
        · exact .inr hx
        · exact .inl rfl
    | refused hnew hfull => exact .inr hx
    | inserted hnew =>
        obtain ⟨gone, hgone, -, -⟩ := evict_spec (store.capacity e.tap)
          (Function.update store.index e.id (some (e.tap, e.seq)))
          ((store.items e.tap).insertIdx
            ((store.items e.tap).countP fun probe => probe.seq < e.seq) e)
        refine mem_insertIdx_countP.mp ?_
        rw [hgone]
        exact List.mem_append_right gone hx
  · rw [items_put_of_ne htap] at hx
    exact .inr hx

lemma Ordered.put (h : store.Ordered) (e : Exchange) : (store.put e).Ordered := by
  intro tap
  by_cases htap : tap = e.tap
  · subst htap
    obtain ⟨l, index, hput, heq⟩ := put_cases store e
    rw [items_put heq, Function.update_self]
    cases hput with
    | replaced hy hseq =>
        have hsorted := List.pairwise_map.mpr (h e.tap)
        rw [← map_set_of_eq hy hseq] at hsorted
        exact List.pairwise_map.mp hsorted
    | refused hnew hfull => exact h e.tap
    | inserted hnew =>
        obtain ⟨gone, hgone, -, -⟩ := evict_spec (store.capacity e.tap)
          (Function.update store.index e.id (some (e.tap, e.seq)))
          ((store.items e.tap).insertIdx
            ((store.items e.tap).countP fun probe => probe.seq < e.seq) e)
        have hsorted := insertIdx_sorted (h e.tap) hnew
        rw [hgone] at hsorted
        exact (List.pairwise_append.mp hsorted).2.1
  · rw [items_put_of_ne htap]
    exact h tap

lemma Bounded.put (h : store.Bounded) (e : Exchange) : (store.put e).Bounded := by
  obtain ⟨l, index, hput, heq⟩ := put_cases store e
  refine ⟨by rw [heq]; exact h.1, fun tap => ?_⟩
  rw [capacity_put]
  refine ⟨(h.2 tap).1, ?_⟩
  by_cases htap : tap = e.tap
  · subst htap
    rw [items_put heq, Function.update_self]
    cases hput with
    | replaced hy hseq =>
        rw [List.length_set]
        exact (h.2 e.tap).2
    | refused hnew hfull => exact (h.2 e.tap).2
    | inserted hnew =>
        obtain ⟨_, -, hle, -⟩ := evict_spec (store.capacity e.tap)
          (Function.update store.index e.id (some (e.tap, e.seq)))
          ((store.items e.tap).insertIdx
            ((store.items e.tap).countP fun probe => probe.seq < e.seq) e)
        exact hle
  · rw [items_put_of_ne htap]
    exact (h.2 tap).2

/-- Where no other exchange has its number or its id, a `put` keeps the index true. -/
lemma Sound.put {e : Exchange} (h : store.Sound)
    (hseq : ∀ x ∈ store.items e.tap, x.seq = e.seq → x.id = e.id)
    (hid : ∀ tap, ∀ x ∈ store.items tap, x.id = e.id → x.tap = e.tap ∧ x.seq = e.seq) :
    (store.put e).Sound := by
  obtain ⟨l, index, hput, heq⟩ := put_cases store e
  rw [Sound, items_put heq]
  have hindex : (store.put e).index = index := by rw [heq]
  rw [hindex]
  cases hput with
  | replaced hy hyseq =>
      exact Indexed.replace h hy hyseq (hseq _ (List.mem_of_getElem? hy) hyseq)
  | refused hnew hfull =>
      rw [Function.update_eq_self]
      exact h
  | inserted hnew =>
      refine Indexed.evict _ (Indexed.insert h hnew fun tap x hx hxid => ?_)
      obtain ⟨htap, hxseq⟩ := hid tap x hx hxid
      have hown : x.tap = tap := Indexed.own h tap x hx
      rw [← hown, htap] at hx
      exact hnew x hx hxseq

/-- What was in the ring, or is put into it, is found there under its number, or the ring is full
of later ones. -/
lemma put_kept {e x : Exchange} (h : store.Ordered) (hbound : store.Bounded)
    (hx : x = e ∨ x ∈ store.items e.tap) :
    (∃ y ∈ (store.put e).items e.tap, y.seq = x.seq) ∨
      (((store.put e).items e.tap).length = store.capacity e.tap ∧
        ∀ y ∈ (store.put e).items e.tap, x.seq < y.seq) := by
  obtain ⟨l, index, hput, heq⟩ := put_cases store e
  rw [items_put heq, Function.update_self]
  cases hput with
  | @replaced position y hy hseq =>
      have hlt := (List.getElem?_eq_some_iff.mp hy).1
      have hmem : e ∈ (store.items e.tap).set position e := List.mem_set hlt e
      left
      rcases hx with rfl | hx
      · exact ⟨x, hmem, rfl⟩
      · by_cases hxe : x.seq = e.seq
        · exact ⟨e, hmem, hxe.symm⟩
        · obtain ⟨i, hi, hget⟩ := List.mem_iff_getElem.mp hx
          have hne : position ≠ i := by
            rintro rfl
            rw [List.getElem?_eq_getElem hi, hget] at hy
            exact hxe (Option.some.inj hy ▸ hseq)
          refine ⟨x, List.mem_iff_getElem?.mpr ⟨i, ?_⟩, rfl⟩
          rw [List.getElem?_set_ne hne, List.getElem?_eq_getElem hi, hget]
  | refused hnew hfull =>
      rcases hx with rfl | hx
      · exact .inr ⟨le_antisymm (hbound.2 _).2 hfull, hnew⟩
      · exact .inl ⟨x, hx, rfl⟩
  | inserted hnew =>
      rcases evict_gone (store.capacity e.tap)
        (Function.update store.index e.id (some (e.tap, e.seq)))
        (insertIdx_sorted (h e.tap) hnew) (mem_insertIdx_countP.mpr hx) with hkept | hgone
      · exact .inl ⟨x, hkept, rfl⟩
      · exact .inr hgone

/-! ### Capacities -/

lemma configure_eq (store : MemoryStore) (tap : TapId) (capacity : ℕ) :
    store.configure tap capacity = { store with
      rings := Function.update store.rings tap
        (some ⟨max capacity 1, (evict (max capacity 1) store.index (store.items tap)).1⟩)
      index := (evict (max capacity 1) store.index (store.items tap)).2 } := by
  have hitems : ((store.rings tap).map Ring.items).getD [] = store.items tap := by
    rw [items, ring]
    cases store.rings tap <;> rfl
  simp only [configure, hitems]

lemma items_configure (store : MemoryStore) (tap : TapId) (capacity : ℕ) :
    (store.configure tap capacity).items = Function.update store.items tap
      (evict (max capacity 1) store.index (store.items tap)).1 := by
  rw [configure_eq, items_update]

lemma capacity_configure (store : MemoryStore) (tap : TapId) (capacity : ℕ) :
    (store.configure tap capacity).capacity = Function.update store.capacity tap (max capacity 1) := by
  rw [configure_eq, capacity_update]

lemma mem_items_configure {tap tap' : TapId} {capacity : ℕ} {x : Exchange}
    (hx : x ∈ (store.configure tap capacity).items tap') : x ∈ store.items tap' := by
  rw [items_configure] at hx
  by_cases htap : tap' = tap
  · rw [htap, Function.update_self] at hx
    obtain ⟨gone, hgone, -, -⟩ := evict_spec (max capacity 1) store.index (store.items tap)
    rw [htap, hgone]
    exact List.mem_append_right gone hx
  · rwa [Function.update_of_ne htap] at hx

lemma Ordered.configure (h : store.Ordered) (tap : TapId) (capacity : ℕ) :
    (store.configure tap capacity).Ordered := by
  intro tap'
  rw [items_configure]
  by_cases htap : tap' = tap
  · rw [htap, Function.update_self]
    obtain ⟨gone, hgone, -, -⟩ := evict_spec (max capacity 1) store.index (store.items tap)
    have hsorted := h tap
    rw [hgone] at hsorted
    exact (List.pairwise_append.mp hsorted).2.1
  · rw [Function.update_of_ne htap]
    exact h tap'

lemma Bounded.configure (h : store.Bounded) (tap : TapId) (capacity : ℕ) :
    (store.configure tap capacity).Bounded := by
  refine ⟨by rw [configure_eq]; exact h.1, fun tap' => ?_⟩
  rw [items_configure, capacity_configure]
  by_cases htap : tap' = tap
  · rw [htap, Function.update_self, Function.update_self]
    obtain ⟨_, -, hle, -⟩ := evict_spec (max capacity 1) store.index (store.items tap)
    exact ⟨le_max_right _ _, hle⟩
  · rw [Function.update_of_ne htap, Function.update_of_ne htap]
    exact h.2 tap'

lemma Sound.configure (h : store.Sound) (tap : TapId) (capacity : ℕ) :
    (store.configure tap capacity).Sound := by
  have hindex : (store.configure tap capacity).index =
      (evict (max capacity 1) store.index (store.items tap)).2 := by rw [configure_eq]
  rw [Sound, items_configure, hindex]
  refine Indexed.evict _ ?_
  rw [Function.update_eq_self]
  exact h

/-- What was in a ring is still there after a change of capacity, or the ring is full of later
ones. -/
lemma configure_kept {x : Exchange} {tap tap' : TapId} {capacity : ℕ} (h : store.Ordered)
    (hx : x ∈ store.items tap') :
    x ∈ (store.configure tap capacity).items tap' ∨
      (((store.configure tap capacity).items tap').length =
          (store.configure tap capacity).capacity tap' ∧
        ∀ y ∈ (store.configure tap capacity).items tap', x.seq < y.seq) := by
  rw [items_configure, capacity_configure]
  by_cases htap : tap' = tap
  · subst htap
    rw [Function.update_self, Function.update_self]
    exact evict_gone _ _ (h tap') hx
  · rw [Function.update_of_ne htap, Function.update_of_ne htap]
    exact .inl hx

/-! ### Clearing -/

/-- Whether clearing `cleared` empties the ring of `tap`. -/
def Clears (cleared : Option TapId) (tap : TapId) : Prop :=
  ∀ other, cleared = some other → tap = other

instance (cleared : Option TapId) (tap : TapId) : Decidable (Clears cleared tap) :=
  match cleared with
  | none => .isTrue nofun
  | some other =>
      decidable_of_iff (tap = other) ⟨fun h _ ho => h.trans (Option.some.inj ho), fun h => h other rfl⟩

lemma items_clear (store : MemoryStore) (cleared : Option TapId) (tap : TapId) :
    (store.clear cleared).items tap = if Clears cleared tap then [] else store.items tap := by
  cases cleared with
  | none =>
      rw [if_pos nofun]
      show (((store.rings tap).map fun r : Ring => { r with items := [] }).getD _).items = []
      cases store.rings tap <;> rfl
  | some other =>
      have hiff : Clears (some other) tap ↔ tap = other :=
        ⟨fun h => h other rfl, fun h _ ho => h.trans (Option.some.inj ho)⟩
      rw [if_congr hiff rfl rfl]
      cases hring : store.rings other with
      | none =>
          have hsame : store.clear (some other) = store := by
            simp only [clear, hring]
          rw [hsame]
          split_ifs with htap
          · rw [htap, items, ring, hring]
            rfl
          · rfl
      | some ring =>
          simp only [clear, hring]
          rw [items_update]
          split_ifs with htap
          · rw [htap, Function.update_self]
          · rw [Function.update_of_ne htap]

lemma capacity_clear (store : MemoryStore) (cleared : Option TapId) :
    (store.clear cleared).capacity = store.capacity := by
  funext tap
  cases cleared with
  | none =>
      show (((store.rings tap).map fun r : Ring => { r with items := [] }).getD _).capacity = _
      rw [capacity, ring]
      cases store.rings tap <;> rfl
  | some other =>
      cases hring : store.rings other with
      | none =>
          have hsame : store.clear (some other) = store := by
            simp only [clear, hring]
          rw [hsame]
      | some ring =>
          have hcapacity : ring.capacity = store.capacity other := by
            rw [capacity, MemoryStore.ring, hring]
            rfl
          simp only [clear, hring]
          rw [capacity_update, hcapacity, Function.update_eq_self]

lemma Ordered.clear (h : store.Ordered) (cleared : Option TapId) : (store.clear cleared).Ordered := by
  intro tap
  rw [items_clear]
  split_ifs
  · exact List.Pairwise.nil
  · exact h tap

lemma Bounded.clear (h : store.Bounded) (cleared : Option TapId) : (store.clear cleared).Bounded := by
  have hdefault : (store.clear cleared).defaultCapacity = store.defaultCapacity := by
    cases cleared with
    | none => rfl
    | some other =>
        simp only [MemoryStore.clear]
        cases store.rings other <;> rfl
  refine ⟨by rw [hdefault]; exact h.1, fun tap => ?_⟩
  rw [capacity_clear, items_clear]
  refine ⟨(h.2 tap).1, ?_⟩
  split_ifs
  · exact Nat.zero_le _
  · exact (h.2 tap).2

/-- The index without the ids of a list of exchanges. -/
lemma foldl_erase (l : List Exchange) (index : ExchangeId → Option (TapId × ℕ)) (id : ExchangeId) :
    (l.foldl (fun index e => Function.update index e.id none) index : ExchangeId → _) id =
      if ∃ x ∈ l, x.id = id then none else index id := by
  induction l generalizing index with
  | nil => simp
  | cons a rest ih =>
      rw [List.foldl_cons, ih]
      by_cases hrest : ∃ x ∈ rest, x.id = id
      · obtain ⟨x, hx, hid⟩ := hrest
        rw [if_pos ⟨x, hx, hid⟩, if_pos ⟨x, List.mem_cons_of_mem a hx, hid⟩]
      · rw [if_neg hrest]
        by_cases ha : a.id = id
        · rw [if_pos ⟨a, List.mem_cons_self, ha⟩, ha, Function.update_self]
        · rw [Function.update_of_ne (Ne.symm ha), if_neg]
          rintro ⟨x, hx, hid⟩
          rcases List.mem_cons.mp hx with rfl | hx
          · exact ha hid
          · exact hrest ⟨x, hx, hid⟩

lemma Sound.clear (h : store.Sound) (cleared : Option TapId) : (store.clear cleared).Sound := by
  classical
  have hindex : ∀ id, (store.clear cleared).index id =
      if ∃ tap, Clears cleared tap ∧ ∃ x ∈ store.items tap, x.id = id then none
      else store.index id := by
    intro id
    cases cleared with
    | none =>
        show none = _
        split_ifs with hcleared
        · rfl
        · cases hfind : store.index id with
          | none => rfl
          | some place =>
              obtain ⟨tap, seq⟩ := place
              obtain ⟨x, hx, hid, -⟩ := (h.found id tap seq).mp hfind
              exact absurd ⟨tap, nofun, x, hx, hid⟩ hcleared
    | some other =>
        have hiff : (∃ tap, Clears (some other) tap ∧ ∃ x ∈ store.items tap, x.id = id) ↔
            ∃ x ∈ store.items other, x.id = id := by
          constructor
          · rintro ⟨tap, htap, hx⟩
            exact htap other rfl ▸ hx
          · exact fun hx => ⟨other, fun _ ho => Option.some.inj ho, hx⟩
        rw [if_congr hiff rfl rfl]
        cases hring : store.rings other with
        | none =>
            have hempty : store.items other = [] := by
              rw [items, ring, hring]
              rfl
            simp only [MemoryStore.clear, hring, hempty]
            rw [if_neg (by simp)]
        | some ring =>
            have hitems : store.items other = ring.items := by
              rw [items, MemoryStore.ring, hring]
              rfl
            simp only [MemoryStore.clear, hring]
            rw [foldl_erase, hitems]
  refine ⟨Ordered.clear h.sorted cleared, fun tap x hx => ?_, fun id tap seq => ?_⟩
  · rw [items_clear] at hx
    split_ifs at hx
    · cases hx
    · exact h.own tap x hx
  · rw [hindex, items_clear]
    by_cases hgone : ∃ tap, Clears cleared tap ∧ ∃ x ∈ store.items tap, x.id = id
    · rw [if_pos hgone]
      refine iff_of_false nofun ?_
      rintro ⟨x, hx, hid, -⟩
      obtain ⟨tap', hclears, y, hy, hyid⟩ := hgone
      split_ifs at hx with htap
      · cases hx
      · exact htap ((h.unique hx hy (hid.trans hyid.symm)).1 ▸ hclears)
    · rw [if_neg hgone, h.found]
      split_ifs with htap
      · refine iff_of_false ?_ (by simp)
        rintro ⟨x, hx, hid, -⟩
        exact hgone ⟨tap, htap, x, hx, hid⟩
      · rfl

/-! ### Finding -/

/-- Of a sound store, the exchange found is the one with the id. -/
lemma get_eq_some_iff (h : store.Sound) {id : ExchangeId} {x : Exchange} :
    store.get id = some x ↔ x ∈ store.items x.tap ∧ x.id = id := by
  have hring : ∀ tap ring, store.rings tap = some ring → store.items tap = ring.items := by
    intro tap ring hring
    rw [items, MemoryStore.ring, hring]
    rfl
  constructor
  · intro hget
    simp only [get, Option.bind_eq_bind, Option.bind_eq_some_iff] at hget
    obtain ⟨⟨tap, seq⟩, hplace, ring, hsome, hget⟩ := hget
    obtain ⟨y, hy, hid, hyseq⟩ := (h.found id tap seq).mp hplace
    cases hsearch : search ring.items seq with
    | error position => rw [hsearch] at hget; cases hget
    | ok position =>
        rw [hsearch] at hget
        obtain ⟨z, hz, hzseq⟩ := search_ok hsearch
        have hxz : x = z := Option.some.inj (hget.symm.trans hz)
        have hxmem : x ∈ store.items tap := by
          rw [hring tap ring hsome]
          exact List.mem_of_getElem? hget
        have hxy : x = y := eq_of_seq (h.sorted tap) hxmem hy (by rw [hxz, hzseq, hyseq])
        exact ⟨by rwa [h.own tap x hxmem], hxy ▸ hid⟩
  · rintro ⟨hx, rfl⟩
    have hplace := (h.found x.id x.tap x.seq).mpr ⟨x, hx, rfl, rfl⟩
    cases hsome : store.rings x.tap with
    | none =>
        rw [items, ring, hsome] at hx
        cases hx
    | some ring =>
        rw [hring _ ring hsome] at hx
        simp only [get, hplace, hsome, Option.bind_eq_bind, Option.bind_some]
        cases hsearch : search ring.items x.seq with
        | error position => exact absurd rfl ((search_error hsearch).1 x hx)
        | ok position =>
            obtain ⟨y, hy, hyseq⟩ := search_ok hsearch
            have hsorted := h.sorted x.tap
            rw [hring _ ring hsome] at hsorted
            rw [eq_of_seq hsorted (List.mem_of_getElem? hy) hx hyseq] at hy
            exact hy

end MemoryStore

/-! ## Runs -/

/-- What an action does to the store. -/
def Action.onStore : Action → MemoryStore → MemoryStore
  | .addTap id capacity, store => store.configureIf id capacity
  | .updateTap id capacity, store => store.configureIf id capacity
  | .publish exchange, store => store.put exchange
  | .clear tap, store => store.clear tap
  | _, store => store

namespace Runtime

variable {lens t : Runtime} {a : Action}

/-- The exchanges that started, and the numbers their runtimes handed out. -/
structure WellNumbered (lens : Runtime) : Prop where
  ids : (lens.started.map fun entry => entry.2.id).Nodup
  lives : ∀ entry ∈ lens.started, ∃ runtime, lens.runtimes[entry.1]? = some runtime ∧
    entry.2.seq ≤ runtime.seq
  numbers : ∀ x ∈ lens.started, ∀ y ∈ lens.started, x.1 = y.1 → x.2.seq = y.2.seq → x = y

lemma step_store (h : lens.step a = some t) : t.store = a.onStore lens.store := by
  cases a with
  | addTap id capacity =>
      simp only [step] at h
      split at h
      · cases h
      · cases h; rfl
  | removeTap id =>
      simp only [step] at h
      split at h
      · cases h; rfl
      · cases h
  | updateTap id capacity =>
      simp only [step] at h
      split at h
      · cases h; rfl
      · cases h
  | start life exchange =>
      simp only [step] at h
      split at h
      · split at h
        · cases h; rfl
        · cases h
      · cases h
  | publish exchange =>
      simp only [step] at h
      split at h
      · cases h; rfl
      · cases h
  | clear tap => cases h; rfl

lemma step_publish {e : Exchange} (h : lens.step (.publish e) = some t) : lens.Knows e := by
  simp only [step] at h
  split at h
  · assumption
  · cases h

/-- What started stays, and numbers are handed out once. -/
lemma step_numbered (h : lens.step a = some t) (hn : lens.WellNumbered) :
    t.WellNumbered ∧ ∀ entry ∈ lens.started, entry ∈ t.started := by
  cases a with
  | addTap id capacity =>
      simp only [step] at h
      split at h
      · cases h
      · cases h
        refine ⟨⟨hn.ids, fun entry hentry => ?_, hn.numbers⟩, fun entry hentry => hentry⟩
        obtain ⟨runtime, hruntime, hseq⟩ := hn.lives entry hentry
        have hlt := (List.getElem?_eq_some_iff.mp hruntime).1
        exact ⟨runtime, by rw [List.getElem?_append_left hlt, hruntime], hseq⟩
  | removeTap id =>
      simp only [step] at h
      split at h
      · cases h
        exact ⟨⟨hn.ids, hn.lives, hn.numbers⟩, fun entry hentry => hentry⟩
      · cases h
  | updateTap id capacity =>
      simp only [step] at h
      split at h
      · cases h
        exact ⟨⟨hn.ids, hn.lives, hn.numbers⟩, fun entry hentry => hentry⟩
      · cases h
  | start life exchange =>
      simp only [step] at h
      split at h
      · rename_i runtime hruntime
        split at h
        · rename_i hnew
          obtain ⟨-, hseq, hid⟩ := hnew
          cases h
          have hlt := (List.getElem?_eq_some_iff.mp hruntime).1
          -- the new number is past every one its runtime handed out
          have hpast : ∀ entry ∈ lens.started, entry.1 = life → entry.2.seq < exchange.seq := by
            intro entry hentry hlife
            obtain ⟨runtime', hruntime', hle⟩ := hn.lives entry hentry
            rw [hlife, hruntime] at hruntime'
            have heq := Option.some.inj hruntime'
            rw [hseq, heq]
            exact Nat.lt_succ_of_le hle
          refine ⟨⟨?_, ?_, ?_⟩, fun entry hentry => List.mem_append_left _ hentry⟩
          · show ((lens.started ++ [(life, exchange)]).map fun entry => entry.2.id).Nodup
            rw [List.map_append, List.nodup_append]
            refine ⟨hn.ids, List.nodup_singleton _, ?_⟩
            rintro _ hmem _ hnew rfl
            obtain ⟨entry, hentry, heq⟩ := List.mem_map.mp hmem
            exact hid entry hentry (heq.trans (List.mem_singleton.mp hnew))
          · intro entry hentry
            rcases List.mem_append.mp hentry with hentry | hentry
            · obtain ⟨runtime', hruntime', hle⟩ := hn.lives entry hentry
              by_cases hlife : life = entry.1
              · rw [hlife] at hruntime hlt
                rw [hruntime] at hruntime'
                refine ⟨{ runtime with seq := runtime.seq + 1 }, ?_, ?_⟩
                · show (lens.runtimes.set life _)[entry.1]? = _
                  rw [hlife, List.getElem?_set_self hlt]
                · rw [← Option.some.inj hruntime'] at hle
                  exact hle.trans (Nat.le_succ _)
              · refine ⟨runtime', ?_, hle⟩
                show (lens.runtimes.set life _)[entry.1]? = _
                rw [List.getElem?_set_ne hlife, hruntime']
            · rw [List.mem_singleton.mp hentry]
              exact ⟨{ runtime with seq := runtime.seq + 1 }, List.getElem?_set_self hlt, hseq.le⟩
          · intro x hx y hy hlife hnumber
            rcases List.mem_append.mp hx with hx | hx <;> rcases List.mem_append.mp hy with hy | hy
            · exact hn.numbers x hx y hy hlife hnumber
            · rw [List.mem_singleton.mp hy] at hlife hnumber
              exact absurd hnumber (Nat.ne_of_lt (hpast x hx hlife))
            · rw [List.mem_singleton.mp hx] at hlife hnumber
              exact absurd hnumber.symm (Nat.ne_of_lt (hpast y hy hlife.symm))
            · rw [List.mem_singleton.mp hx, List.mem_singleton.mp hy]
        · cases h
      · cases h
  | publish exchange =>
      simp only [step] at h
      split at h
      · cases h
        exact ⟨⟨hn.ids, hn.lives, hn.numbers⟩, fun entry hentry => hentry⟩
      · cases h
  | clear tap =>
      cases h
      exact ⟨⟨hn.ids, hn.lives, hn.numbers⟩, fun entry hentry => hentry⟩

lemma lifeOf_of_mem (hn : lens.WellNumbered) {entry : ℕ × Exchange} (hentry : entry ∈ lens.started) :
    lens.lifeOf entry.2.id = some entry.1 := by
  rw [lifeOf]
  cases hfind : lens.started.find? (fun other => decide (other.2.id = entry.2.id)) with
  | none =>
      have hnot := List.find?_eq_none.mp hfind entry hentry
      exact absurd (decide_eq_true rfl) hnot
  | some other =>
      have hmem := List.mem_of_find?_eq_some hfind
      have hid : other.2.id = entry.2.id := by simpa using List.find?_some hfind
      have heq : other = entry := List.inj_on_of_nodup_map hn.ids hmem hentry hid
      rw [heq, Option.map_some]

/-- The life of an exchange that started doesn't change. -/
lemma lifeOf_step (h : lens.step a = some t) (hn : lens.WellNumbered) {x : Exchange}
    (hx : lens.Knows x) : t.lifeOf x.id = lens.lifeOf x.id := by
  obtain ⟨entry, hentry, hid, -⟩ := hx
  obtain ⟨hn', hkeep⟩ := step_numbered h hn
  rw [← hid, lifeOf_of_mem hn hentry, lifeOf_of_mem hn' (hkeep entry hentry)]

lemma knows_step (h : lens.step a = some t) (hn : lens.WellNumbered) {x : Exchange}
    (hx : lens.Knows x) : t.Knows x := by
  obtain ⟨entry, hentry, hrest⟩ := hx
  exact ⟨entry, (step_numbered h hn).2 entry hentry, hrest⟩

/-- Of one life of a tap, a number belongs to one exchange. -/
lemma id_of_seq (hn : lens.WellNumbered) {x y : Exchange} (hx : lens.Knows x) (hy : lens.Knows y)
    (hlife : lens.lifeOf x.id = lens.lifeOf y.id) (hseq : x.seq = y.seq) : x.id = y.id := by
  obtain ⟨entry, hentry, hid, hnumber, -⟩ := hx
  obtain ⟨entry', hentry', hid', hnumber', -⟩ := hy
  rw [← hid, ← hid', lifeOf_of_mem hn hentry, lifeOf_of_mem hn hentry'] at hlife
  have heq := hn.numbers entry hentry entry' hentry' (Option.some.inj hlife)
    (by rw [hnumber, hnumber', hseq])
  rw [← hid, ← hid', heq]

/-- An id belongs to one tap and one number. -/
lemma place_of_id (hn : lens.WellNumbered) {x y : Exchange} (hx : lens.Knows x) (hy : lens.Knows y)
    (hid : x.id = y.id) : x.tap = y.tap ∧ x.seq = y.seq := by
  obtain ⟨entry, hentry, hxid, hxseq, hxtap⟩ := hx
  obtain ⟨entry', hentry', hyid, hyseq, hytap⟩ := hy
  have heq : entry = entry' :=
    List.inj_on_of_nodup_map hn.ids hentry hentry' (hxid.trans (hid.trans hyid.symm))
  subst heq
  exact ⟨hxtap.symm.trans hytap, hxseq.symm.trans hyseq⟩

end Runtime

/-- An exchange is stored only while the ring of its tap holds exchanges of the same life of the
tap: none from before the tap was removed and added again. -/
def OneLife (lens : Runtime) : Action → Prop
  | .publish e => ∀ x ∈ lens.store.items e.tap, lens.lifeOf x.id = lens.lifeOf e.id
  | _ => True

instance (lens : Runtime) : (a : Action) → Decidable (OneLife lens a)
  | .publish e => inferInstanceAs (Decidable (∀ x ∈ lens.store.items e.tap, _))
  | .addTap _ _ | .removeTap _ | .updateTap _ _ | .start _ _ | .clear _ => .isTrue trivial

/-- `x` got its number after `e`, from the same runtime. -/
def Runtime.StartedAfter (lens : Runtime) (x e : Exchange) : Prop :=
  x.tap = e.tap ∧ lens.lifeOf x.id = lens.lifeOf e.id ∧ e.seq < x.seq

/-- As many exchanges that started after `e` were published as the ring may hold. -/
def Runtime.Outnumbered (lens : Runtime) (past : List Action) (e : Exchange) : Prop :=
  ∃ later : List Exchange, (later.map Exchange.id).Nodup ∧
    (∀ x ∈ later, .publish x ∈ past ∧ lens.StartedAfter x e) ∧
    lens.store.capacity e.tap ≤ later.length

/-- What is published is found until it is outnumbered, or cleared. -/
def Runtime.FoundUntil (start : Runtime) (past : List Action) (lens : Runtime) : Prop :=
  ∀ pre e post, past = pre ++ .publish e :: post →
    (∀ cleared, .clear cleared ∈ post → ¬ MemoryStore.Clears cleared e.tap) →
    (∃ x, lens.store.get e.id = some x) ∨
      ∃ mid rest u, post = mid ++ rest ∧ run Runtime.step start (pre ++ .publish e :: mid) = some u ∧
        u.Outnumbered (pre ++ .publish e :: mid) e

/-! ## What every action keeps -/

/-- What the runtime and its store agree on after the actions `past`. -/
structure Consistent (past : List Action) (lens : Runtime) : Prop where
  numbered : lens.WellNumbered
  sound : lens.store.Sound
  bounded : lens.store.Bounded
  heard : ∀ e, .publish e ∈ past → lens.Knows e
  published : ∀ tap, ∀ x ∈ lens.store.items tap, .publish x ∈ past
  oneLife : ∀ tap, ∀ x ∈ lens.store.items tap, ∀ y ∈ lens.store.items tap,
    lens.lifeOf x.id = lens.lifeOf y.id

namespace MemoryStore

variable {store : MemoryStore}

lemma Sound.configureIf (h : store.Sound) (tap : TapId) (capacity : Option ℕ) :
    (store.configureIf tap capacity).Sound := by
  cases capacity with
  | none => exact h
  | some capacity => exact Sound.configure h tap capacity

lemma Bounded.configureIf (h : store.Bounded) (tap : TapId) (capacity : Option ℕ) :
    (store.configureIf tap capacity).Bounded := by
  cases capacity with
  | none => exact h
  | some capacity => exact Bounded.configure h tap capacity

lemma mem_items_configureIf {tap tap' : TapId} {capacity : Option ℕ} {x : Exchange}
    (hx : x ∈ (store.configureIf tap capacity).items tap') : x ∈ store.items tap' := by
  cases capacity with
  | none => exact hx
  | some capacity => exact mem_items_configure hx

lemma configureIf_kept {x : Exchange} {tap tap' : TapId} {capacity : Option ℕ} (h : store.Ordered)
    (hx : x ∈ store.items tap') :
    x ∈ (store.configureIf tap capacity).items tap' ∨
      (((store.configureIf tap capacity).items tap').length =
          (store.configureIf tap capacity).capacity tap' ∧
        ∀ y ∈ (store.configureIf tap capacity).items tap', x.seq < y.seq) := by
  cases capacity with
  | none => exact .inl hx
  | some capacity => exact configure_kept h hx

end MemoryStore

/-- `x` is in the ring of `tap`, or the action puts it there. -/
def Offered (store : MemoryStore) (a : Action) (tap : TapId) (x : Exchange) : Prop :=
  x ∈ store.items tap ∨ (a = .publish x ∧ tap = x.tap)

/-- Only a `publish` brings an exchange into a ring. -/
lemma offered_of_mem {a : Action} {store : MemoryStore} {tap : TapId} {x : Exchange}
    (hx : x ∈ (a.onStore store).items tap) : Offered store a tap x := by
  cases a with
  | addTap id capacity => exact .inl (MemoryStore.mem_items_configureIf hx)
  | updateTap id capacity => exact .inl (MemoryStore.mem_items_configureIf hx)
  | removeTap id => exact .inl hx
  | start life exchange => exact .inl hx
  | publish e =>
      by_cases htap : tap = e.tap
      · rcases MemoryStore.mem_items_put hx with rfl | hx
        · exact .inr ⟨rfl, htap⟩
        · exact .inl hx
      · left
        have hsame : (store.put e).items tap = store.items tap := MemoryStore.items_put_of_ne htap
        rwa [← hsame]
  | clear cleared =>
      left
      have hx' : x ∈ (store.clear cleared).items tap := hx
      rw [MemoryStore.items_clear] at hx'
      split_ifs at hx'
      · cases hx'
      · exact hx'

namespace Consistent

variable {past : List Action} {lens t : Runtime} {a : Action}

lemma knows (h : Consistent past lens) {tap : TapId} {x : Exchange}
    (hx : x ∈ lens.store.items tap) : lens.Knows x :=
  h.heard x (h.published tap x hx)

/-- The ids of a ring are different. -/
lemma ids_nodup (h : Consistent past lens) (tap : TapId) :
    ((lens.store.items tap).map Exchange.id).Nodup := by
  refine List.pairwise_map.mpr ((Indexed.sorted h.sound tap).imp_of_mem fun {x y} hx hy hlt hid => ?_)
  have hplace := Runtime.place_of_id h.numbered (h.knows hx) (h.knows hy) hid
  exact Nat.ne_of_lt hlt hplace.2

lemma knows_offered (h : Consistent past lens) (hstep : lens.step a = some t) {tap : TapId}
    {x : Exchange} (hx : Offered lens.store a tap x) : lens.Knows x := by
  rcases hx with hx | ⟨rfl, -⟩
  · exact h.knows hx
  · exact Runtime.step_publish hstep

/-- The ring and what is put into it are of one life. -/
lemma sameLife (h : Consistent past lens) (hlife : OneLife lens a) {tap : TapId} {x y : Exchange}
    (hx : Offered lens.store a tap x) (hy : Offered lens.store a tap y) :
    lens.lifeOf x.id = lens.lifeOf y.id := by
  rcases hx with hx | ⟨rfl, rfl⟩
  · rcases hy with hy | ⟨rfl, rfl⟩
    · exact h.oneLife tap x hx y hy
    · exact hlife x hx
  · rcases hy with hy | ⟨hy, -⟩
    · exact (hlife y hy).symm
    · cases hy
      rfl

/-- Every action that stores exchanges of one life only keeps runtime and store in agreement. -/
lemma step (h : Consistent past lens) (hlife : OneLife lens a) (hstep : lens.step a = some t) :
    Consistent (past ++ [a]) t := by
  have hstore := Runtime.step_store hstep
  have hoffered : ∀ tap, ∀ x ∈ t.store.items tap, Offered lens.store a tap x := by
    intro tap x hx
    rw [hstore] at hx
    exact offered_of_mem hx
  refine ⟨(Runtime.step_numbered hstep h.numbered).1, ?_, ?_, fun e he => ?_, fun tap x hx => ?_,
    fun tap x hx y hy => ?_⟩
  · rw [hstore]
    cases a with
    | addTap id capacity => exact MemoryStore.Sound.configureIf h.sound id capacity
    | updateTap id capacity => exact MemoryStore.Sound.configureIf h.sound id capacity
    | removeTap id => exact h.sound
    | start life exchange => exact h.sound
    | clear cleared => exact MemoryStore.Sound.clear h.sound cleared
    | publish e =>
        have hknown := Runtime.step_publish hstep
        refine MemoryStore.Sound.put h.sound (fun x hx hseq => ?_) fun tap x hx hid => ?_
        · exact Runtime.id_of_seq h.numbered (h.knows hx) hknown (hlife x hx) hseq
        · exact Runtime.place_of_id h.numbered (h.knows hx) hknown hid
  · rw [hstore]
    cases a with
    | addTap id capacity => exact MemoryStore.Bounded.configureIf h.bounded id capacity
    | updateTap id capacity => exact MemoryStore.Bounded.configureIf h.bounded id capacity
    | removeTap id => exact h.bounded
    | start life exchange => exact h.bounded
    | clear cleared => exact MemoryStore.Bounded.clear h.bounded cleared
    | publish e => exact MemoryStore.Bounded.put h.bounded e
  · rcases List.mem_append.mp he with he | he
    · exact Runtime.knows_step hstep h.numbered (h.heard e he)
    · rw [← List.mem_singleton.mp he] at hstep
      exact Runtime.knows_step hstep h.numbered (Runtime.step_publish hstep)
  · rcases hoffered tap x hx with hx | ⟨rfl, -⟩
    · exact List.mem_append_left [a] (h.published tap x hx)
    · exact List.mem_append_right past List.mem_cons_self
  · rw [Runtime.lifeOf_step hstep h.numbered (h.knows_offered hstep (hoffered tap x hx)),
      Runtime.lifeOf_step hstep h.numbered (h.knows_offered hstep (hoffered tap y hy))]
    exact h.sameLife hlife (hoffered tap x hx) (hoffered tap y hy)

/-- What a ring holds, or is put into it, is there after the action, or the ring is full of later
ones. -/
lemma kept (h : Consistent past lens) (hlife : OneLife lens a) (hstep : lens.step a = some t)
    {tap : TapId} {x : Exchange} (hx : Offered lens.store a tap x)
    (hclear : ∀ cleared, a = .clear cleared → ¬ MemoryStore.Clears cleared tap) :
    (∃ y ∈ t.store.items tap, y.id = x.id) ∨
      ((t.store.items tap).length = t.store.capacity tap ∧
        ∀ y ∈ t.store.items tap, x.seq < y.seq) := by
  have hordered : lens.store.Ordered := Indexed.sorted h.sound
  rw [Runtime.step_store hstep]
  cases a with
  | addTap id capacity =>
      rcases hx with hx | ⟨hx, -⟩
      · exact (MemoryStore.configureIf_kept hordered hx).imp_left fun hx => ⟨x, hx, rfl⟩
      · cases hx
  | updateTap id capacity =>
      rcases hx with hx | ⟨hx, -⟩
      · exact (MemoryStore.configureIf_kept hordered hx).imp_left fun hx => ⟨x, hx, rfl⟩
      · cases hx
  | removeTap id =>
      rcases hx with hx | ⟨hx, -⟩
      · exact .inl ⟨x, hx, rfl⟩
      · cases hx
  | start life exchange =>
      rcases hx with hx | ⟨hx, -⟩
      · exact .inl ⟨x, hx, rfl⟩
      · cases hx
  | clear cleared =>
      rcases hx with hx | ⟨hx, -⟩
      · refine .inl ⟨x, ?_, rfl⟩
        show x ∈ (lens.store.clear cleared).items tap
        rw [MemoryStore.items_clear, if_neg (hclear cleared rfl)]
        exact hx
      · cases hx
  | publish e =>
      by_cases htap : tap = e.tap
      · subst htap
        have hx' : x = e ∨ x ∈ lens.store.items e.tap := by
          rcases hx with hx | ⟨hx, -⟩
          · exact .inr hx
          · cases hx
            exact .inl rfl
        rcases MemoryStore.put_kept hordered h.bounded hx' with ⟨y, hy, hseq⟩ | hfull
        · left
          have hy' : Offered lens.store (.publish e) e.tap y := offered_of_mem hy
          exact ⟨y, hy, Runtime.id_of_seq h.numbered (h.knows_offered hstep hy')
            (h.knows_offered hstep hx) (h.sameLife hlife hy' hx) hseq⟩
        · right
          show ((lens.store.put e).items e.tap).length = (lens.store.put e).capacity e.tap ∧ _
          rw [MemoryStore.capacity_put]
          exact hfull
      · rcases hx with hx | ⟨hx, rfl⟩
        · refine .inl ⟨x, ?_, rfl⟩
          show x ∈ (lens.store.put e).items tap
          rwa [MemoryStore.items_put_of_ne htap]
        · cases hx
          exact absurd rfl htap

/-- After the action `x` is found, or outnumbered. -/
lemma found_or_outnumbered (h : Consistent past lens) (hlife : OneLife lens a)
    (hstep : lens.step a = some t) {x : Exchange} (hx : Offered lens.store a x.tap x)
    (hclear : ∀ cleared, a = .clear cleared → ¬ MemoryStore.Clears cleared x.tap) :
    (∃ y, t.store.get x.id = some y) ∨ t.Outnumbered (past ++ [a]) x := by
  have h' := h.step hlife hstep
  rcases h.kept hlife hstep hx hclear with ⟨y, hy, hid⟩ | ⟨hfull, hlater⟩
  · left
    have hown : y.tap = x.tap := Indexed.own h'.sound x.tap y hy
    rw [← hown] at hy
    exact ⟨y, (MemoryStore.get_eq_some_iff h'.sound).mpr ⟨hy, hid⟩⟩
  · right
    refine ⟨t.store.items x.tap, h'.ids_nodup x.tap, fun y hy => ?_, hfull.ge⟩
    have hy' : Offered lens.store a x.tap y := by
      have hmem := hy
      rw [Runtime.step_store hstep] at hmem
      exact offered_of_mem hmem
    refine ⟨h'.published x.tap y hy, Indexed.own h'.sound x.tap y hy, ?_, hlater y hy⟩
    rw [Runtime.lifeOf_step hstep h.numbered (h.knows_offered hstep hy'),
      Runtime.lifeOf_step hstep h.numbered (h.knows_offered hstep hx)]
    exact h.sameLife hlife hy' hx

end Consistent

/-- Being outnumbered is a matter of id, tap and number. -/
lemma Runtime.Outnumbered.congr {lens : Runtime} {past : List Action} {x e : Exchange}
    (h : lens.Outnumbered past x) (hid : x.id = e.id) (htap : x.tap = e.tap) (hseq : x.seq = e.seq) :
    lens.Outnumbered past e := by
  simpa only [Runtime.Outnumbered, Runtime.StartedAfter, hid, htap, hseq] using h

/-! ## Every run -/

lemma consistent_new (defaultCapacity : ℕ) : Consistent [] (Runtime.new defaultCapacity) := by
  have hitems : ∀ tap, (Runtime.new defaultCapacity).store.items tap = [] := fun _ => rfl
  have hindex : ∀ id, (Runtime.new defaultCapacity).store.index id = none := fun _ => rfl
  have hstarted : (Runtime.new defaultCapacity).started = [] := rfl
  have hcapacity : ∀ tap, (Runtime.new defaultCapacity).store.capacity tap =
      (Runtime.new defaultCapacity).store.defaultCapacity := fun _ => rfl
  have hpositive : 1 ≤ (Runtime.new defaultCapacity).store.defaultCapacity := le_max_right _ _
  constructor
  case numbered => constructor <;> simp [hstarted]
  case sound => constructor <;> simp [hitems, hindex]
  case bounded => exact ⟨hpositive, fun tap => by simp [hitems, hcapacity, hpositive]⟩
  all_goals simp [hitems]

/-- What was found until it was outnumbered still is after one more action. -/
lemma foundUntil_snoc {start lens t : Runtime} {past : List Action} {a : Action}
    (hrun : run Runtime.step start past = some lens) (h : Consistent past lens)
    (hlife : OneLife lens a) (hstep : lens.step a = some t)
    (hfound : Runtime.FoundUntil start past lens) :
    Runtime.FoundUntil start (past ++ [a]) t := by
  have hrun' : run Runtime.step start (past ++ [a]) = some t := run_snoc.mpr ⟨lens, hrun, hstep⟩
  intro pre e post hpast hclear
  rcases List.eq_nil_or_concat' post with rfl | ⟨post, last, rfl⟩
  · -- the action publishes `e`
    obtain ⟨rfl, hlast⟩ := List.append_inj' hpast rfl
    obtain rfl : a = .publish e := List.singleton_inj.mp hlast
    rcases h.found_or_outnumbered hlife hstep (.inr ⟨rfl, rfl⟩) nofun with hget | hout
    · exact .inl hget
    · exact .inr ⟨[], [], t, rfl, hrun', hout⟩
  · have hsplit : past = pre ++ .publish e :: post ∧ a = last := by
      rw [← List.cons_append, ← List.append_assoc] at hpast
      obtain ⟨hpre, hlast⟩ := List.append_inj' hpast rfl
      exact ⟨hpre, List.singleton_inj.mp hlast⟩
    obtain ⟨hbefore, rfl⟩ := hsplit
    have hbefore' : ∀ cleared, .clear cleared ∈ post → ¬ MemoryStore.Clears cleared e.tap :=
      fun cleared hmem => hclear cleared (List.mem_append_left [a] hmem)
    rcases hfound pre e post hbefore hbefore' with ⟨x, hget⟩ | ⟨mid, rest, u, hpost, hu, hout⟩
    · obtain ⟨hx, hid⟩ := (MemoryStore.get_eq_some_iff h.sound).mp hget
      have hheard : lens.Knows e := h.heard e (by simp [hbefore])
      obtain ⟨htap, hseq⟩ := Runtime.place_of_id h.numbered (h.knows hx) hheard hid
      have hnot : ∀ cleared, a = .clear cleared → ¬ MemoryStore.Clears cleared x.tap := by
        rintro cleared rfl
        rw [htap]
        exact hclear cleared (List.mem_append_right post List.mem_cons_self)
      rcases h.found_or_outnumbered hlife hstep (.inl hx) hnot with hget' | hout
      · rw [hid] at hget'
        exact .inl hget'
      · refine .inr ⟨post ++ [a], [], t, (List.append_nil _).symm, ?_, ?_⟩
        · rw [← hpast]
          exact hrun'
        · rw [← hpast]
          exact hout.congr hid htap hseq
    · refine .inr ⟨mid, rest ++ [a], u, ?_, hu, hout⟩
      rw [hpost, List.append_assoc]

/-- In every run that stores exchanges of one life of a tap at a time, an id finds the exchange
that has it or nothing, the rings are ordered and bounded, and what is published is found until
it is outnumbered or cleared. -/
theorem captures_found {defaultCapacity : ℕ} {actions : List Action} {lens : Runtime}
    (hrun : run Runtime.step (Runtime.new defaultCapacity) actions = some lens)
    (hlife : Meets Runtime.step OneLife (Runtime.new defaultCapacity) actions) :
    (∀ id x, lens.store.get id = some x → x.id = id) ∧
      (∀ tap, (lens.store.items tap).Pairwise (fun a b => a.seq < b.seq) ∧
        (lens.store.items tap).length ≤ lens.store.capacity tap) ∧
      Runtime.FoundUntil (Runtime.new defaultCapacity) actions lens := by
  obtain ⟨hconsistent, hfound⟩ := run_invariant
    (I := fun past t => Consistent past t ∧ Runtime.FoundUntil (Runtime.new defaultCapacity) past t)
    ⟨consistent_new defaultCapacity, fun pre e post hpast => by simp at hpast⟩
    (fun past s a t hs hI ha ht =>
      ⟨hI.1.step ha ht, foundUntil_snoc hs hI.1 ha ht hI.2⟩) hrun hlife
  refine ⟨fun id x hget => ((MemoryStore.get_eq_some_iff hconsistent.sound).mp hget).2,
    fun tap => ⟨Indexed.sorted hconsistent.sound tap, (hconsistent.bounded.2 tap).2⟩, hfound⟩

/-- A request for `/ping` of the tap `app`. -/
def ping (id : ExchangeId) (seq : ℕ) : Exchange where
  id
  seq
  tap := "app"
  request := ⟨"GET", ⟨"/ping", none⟩, "https", "app.example.com", ⟨[]⟩, {}⟩

/-- A tap, a request to it, published twice, and a larger ring. -/
theorem captures_found_ping :
    ∃ lens, run Runtime.step (Runtime.new 2)
        [.addTap "app" none, .start 0 (ping 0 1), .publish (ping 0 1), .publish (ping 0 1),
          .updateTap "app" (some 5)] = some lens ∧
      (∀ id x, lens.store.get id = some x → x.id = id) ∧
      (∀ tap, (lens.store.items tap).Pairwise (fun a b => a.seq < b.seq) ∧
        (lens.store.items tap).length ≤ lens.store.capacity tap) ∧
      Runtime.FoundUntil (Runtime.new 2)
        [.addTap "app" none, .start 0 (ping 0 1), .publish (ping 0 1), .publish (ping 0 1),
          .updateTap "app" (some 5)] lens := by
  refine ⟨_, rfl, captures_found rfl ?_⟩
  exact meets_cons rfl trivial (meets_cons rfl trivial (meets_cons rfl (by decide +kernel)
    (meets_cons rfl (by decide +kernel) (meets_cons rfl trivial trivial))))

/-- A tap that is removed and added again counts from one again: the id of its first life's
request finds the second life's. -/
theorem captures_mistaken :
    ∃ actions lens, run Runtime.step (Runtime.new 2) actions = some lens ∧
      ∃ id x, lens.store.get id = some x ∧ x.id ≠ id :=
  ⟨[.addTap "app" none, .start 0 (ping 0 1), .publish (ping 0 1), .removeTap "app",
      .addTap "app" none, .start 1 (ping 1 1), .publish (ping 1 1)],
    _, rfl, 0, ping 1 1, rfl, by decide⟩

end Teitunnel.Lens
