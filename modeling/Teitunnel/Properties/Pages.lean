import Teitunnel.Lens.Query
import Teitunnel.Properties.Captures

/-!
# Every exchange on one page

One query over distinct ids answers with a page in the sense of `Paging.Answers`
(`runQuery_answers`), so does a store's list (`Request.answers`), and a reader who follows the
cursors sees what every store on the way held.  What is put into the store on the way comes with
greater ids; it can push an older exchange out of a full ring before its page is asked for.
-/

namespace Teitunnel.Lens

open Paging

/-! ## One query -/

/-- The loop takes the first that pass, and looks for one more. -/
lemma scan_eq (pass : Exchange → Bool) (limit : ℕ) (l items : List Exchange)
    (h : items.length ≤ limit) :
    scan pass limit items l =
      ((items ++ l.filter pass).take limit, decide (limit < (items ++ l.filter pass).length)) := by
  induction l generalizing items with
  | nil =>
      rw [List.filter_nil, List.append_nil, List.take_of_length_le h,
        decide_eq_false (Nat.not_lt.mpr h), scan]
  | cons e rest ih =>
      rw [scan]
      by_cases hpass : pass e = true
      · rw [if_neg (not_not.mpr hpass), List.filter_cons_of_pos hpass]
        by_cases hfull : items.length = limit
        · rw [if_pos hfull, ← hfull, List.take_left, decide_eq_true]
          simp
        · rw [if_neg hfull, ih]
          · rw [List.append_assoc, List.singleton_append]
          · rw [List.length_append, List.length_singleton]
            omega
      · rw [if_pos hpass, List.filter_cons_of_neg hpass]
        exact ih items h

variable {searchableParts : Exchange → Redaction → List String}

/-- What a query asks for. -/
def Wanted (searchableParts : Exchange → Redaction → List String) (filter : Filter)
    (redaction : Redaction) (e : Exchange) : Prop :=
  filter.matchesExchange searchableParts e redaction = true

variable (searchableParts) in
lemma runQuery_answers {candidates : List Exchange} (query : Query) (redaction : Redaction)
    (hdistinct : (candidates.map Exchange.id).Nodup) :
    Answers Exchange.id
      (fun e => e ∈ candidates ∧ Wanted searchableParts query.filter redaction e) query.before
      (runQuery searchableParts candidates query redaction) := by
  set sorted := candidates.insertionSort fun a b => b.id ≤ a.id with hsorteddef
  set pass := fun e : Exchange => query.before.all (e.id < ·) &&
    query.filter.matchesExchange searchableParts e redaction with hpassdef
  have hperm : sorted.Perm candidates := List.perm_insertionSort _ _
  have hsorted : sorted.Pairwise fun x y => y.id < x.id := by
    have hle : sorted.Pairwise fun a b => b.id ≤ a.id := List.pairwise_insertionSort _ _
    have hne : sorted.Pairwise fun a b => a.id ≠ b.id :=
      List.pairwise_map.mp ((hperm.map _).nodup_iff.mpr hdistinct)
    exact hle.imp₂ (fun a b hle hne => Nat.lt_of_le_of_ne hle hne.symm) hne
  have hlimit : 0 < min (max (query.limit.getD 100) 1) MAX_PAGE := by
    simp only [MAX_PAGE]
    omega
  have hmem : ∀ e, e ∈ sorted.filter pass ↔
      (e ∈ candidates ∧ Wanted searchableParts query.filter redaction e) ∧
        After query.before e.id := by
    intro e
    rw [List.mem_filter, hperm.mem_iff, hpassdef, Wanted, After]
    simp only [Bool.and_eq_true, Option.all_eq_true, decide_eq_true_eq, Option.mem_def]
    tauto
  have hscan := scan_eq pass (min (max (query.limit.getD 100) 1) MAX_PAGE) sorted [] (Nat.zero_le _)
  have hpage := answers_take (hsorted.filter pass) hmem hlimit
  rw [runQuery]
  simp only [← hsorteddef, ← hpassdef, hscan, List.nil_append, decide_eq_true_eq]
  exact hpage

/-! ## The store -/

namespace MemoryStore

/-- The store keeps this exchange. -/
def Holds (store : MemoryStore) (e : Exchange) : Prop := e ∈ store.items e.tap

/-- The stores there are. -/
inductive Reached : MemoryStore → Prop
  | new (capacity : ℕ) : Reached (.new capacity)
  | configure {store} (h : Reached store) (tap : TapId) (capacity : ℕ) :
      Reached (store.configure tap capacity)
  | put {store} (h : Reached store) (e : Exchange) : Reached (store.put e)
  | clear {store} (h : Reached store) (tap : Option TapId) : Reached (store.clear tap)

variable {store : MemoryStore}

lemma Reached.ordered (h : Reached store) : store.Ordered := by
  induction h with
  | new capacity => exact fun tap => List.Pairwise.nil
  | configure _ tap capacity ih => exact ih.configure tap capacity
  | put _ e ih => exact ih.put e
  | clear _ tap ih => exact ih.clear tap

/-- A ring holds exchanges of its own tap. -/
lemma Reached.own (h : Reached store) : ∀ tap, ∀ x ∈ store.items tap, x.tap = tap := by
  induction h with
  | new capacity =>
      intro tap x hx
      exact absurd hx List.not_mem_nil
  | configure _ tap' capacity ih =>
      intro tap x hx
      exact ih tap x (mem_items_configure hx)
  | put _ e ih =>
      intro tap x hx
      by_cases htap : tap = e.tap
      · rcases mem_items_put hx with rfl | hx
        · exact htap.symm
        · exact ih tap x hx
      · rw [items_put_of_ne htap] at hx
        exact ih tap x hx
  | clear _ cleared ih =>
      intro tap x hx
      rw [items_clear] at hx
      split at hx
      · exact absurd hx List.not_mem_nil
      · exact ih tap x hx

lemma rings_put (store : MemoryStore) (e : Exchange) (tap : TapId) :
    ((store.put e).rings tap).isSome ↔ tap = e.tap ∨ (store.rings tap).isSome := by
  have hupdate : ∀ ring : Ring, (Function.update store.rings e.tap (some ring) tap).isSome ↔
      tap = e.tap ∨ (store.rings tap).isSome := by
    intro ring
    by_cases htap : tap = e.tap
    · simp [htap]
    · simp [htap]
  rw [put]
  simp only
  split
  · exact hupdate _
  · split
    · exact hupdate _
    · exact hupdate _

lemma flatMap_rings (store : MemoryStore) (taps : List TapId) :
    (taps.filterMap store.rings).flatMap Ring.items = taps.flatMap store.items := by
  induction taps with
  | nil => rfl
  | cons tap taps ih =>
      have hitems : store.items tap = ((store.rings tap).map Ring.items).getD [] := by
        rw [items, ring]
        cases store.rings tap <;> rfl
      rw [List.flatMap_cons, hitems, List.filterMap_cons]
      cases store.rings tap with
      | none => exact ih
      | some ring => rw [List.flatMap_cons, ih]; rfl

end MemoryStore

/-- One request of a reader: the store as it is then, the order in which its map gives the taps,
and the size of the page. -/
structure Request where
  store : MemoryStore
  reached : store.Reached
  /-- No two exchanges have the same id. -/
  distinct : ∀ x y, store.Holds x → store.Holds y → x.id = y.id → x = y
  taps : List TapId
  nodup : taps.Nodup
  listed : ∀ tap, tap ∈ taps ↔ (store.rings tap).isSome
  limit : Option ℕ

namespace Request

variable (request : Request)

/-- What the request looks at. -/
def candidates (tap : Option TapId) : List Exchange :=
  match tap with
  | some tap => request.store.items tap
  | none => request.taps.flatMap request.store.items

lemma list_eq (filter : Filter) (before : Option ExchangeId) (redaction : Redaction) :
    request.store.list searchableParts request.taps ⟨filter, request.limit, before⟩ redaction =
      runQuery searchableParts (request.candidates filter.tap) ⟨filter, request.limit, before⟩
        redaction := by
  rw [MemoryStore.list, candidates.eq_def]
  cases filter.tap with
  | none => simp only [MemoryStore.flatMap_rings]
  | some tap =>
      have hitems : request.store.items tap =
          ((request.store.rings tap).map Ring.items).getD [] := by
        rw [MemoryStore.items, MemoryStore.ring]
        cases request.store.rings tap <;> rfl
      simp only [hitems]

variable {request}

lemma holds_of_mem {tap : TapId} {e : Exchange} (h : e ∈ request.store.items tap) :
    request.store.Holds e := by
  rw [MemoryStore.Holds, request.reached.own tap e h]
  exact h

lemma mem_taps {e : Exchange} (h : request.store.Holds e) : e.tap ∈ request.taps := by
  rw [request.listed]
  by_contra hnone
  rw [MemoryStore.Holds, MemoryStore.items, MemoryStore.ring,
    Option.not_isSome_iff_eq_none.mp hnone] at h
  exact List.not_mem_nil h

lemma holds_of_candidate {tap : Option TapId} {e : Exchange} (h : e ∈ request.candidates tap) :
    request.store.Holds e := by
  cases tap with
  | none =>
      obtain ⟨tap, -, hmem⟩ := List.mem_flatMap.mp h
      exact holds_of_mem hmem
  | some tap => exact holds_of_mem h

lemma candidate_of_holds {filter : Filter} {redaction : Redaction} {e : Exchange}
    (h : request.store.Holds e) (hwanted : Wanted searchableParts filter redaction e) :
    e ∈ request.candidates filter.tap := by
  have htap : filter.tap.all (· = e.tap) = true := by
    simp only [Wanted, Filter.matchesExchange, Filter.matchesCheap, Bool.and_eq_true] at hwanted
    tauto
  cases hfilter : filter.tap with
  | none => exact List.mem_flatMap.mpr ⟨e.tap, mem_taps h, h⟩
  | some tap =>
      rw [hfilter] at htap
      have heq : tap = e.tap := by simpa using htap
      rw [heq]
      exact h

lemma candidates_distinct (tap : Option TapId) :
    ((request.candidates tap).map Exchange.id).Nodup := by
  have hring : ∀ tap, (request.store.items tap).Nodup := fun tap =>
    (request.reached.ordered tap).imp fun {a b} hlt heq => by
      rw [heq] at hlt
      exact lt_irrefl _ hlt
  have hnodup : (request.candidates tap).Nodup := by
    cases tap with
    | some tap => exact hring tap
    | none =>
        refine List.nodup_flatMap.mpr ⟨fun tap _ => hring tap, ?_⟩
        refine request.nodup.imp fun {tap tap'} hne => ?_
        intro e he he'
        exact hne ((request.reached.own tap e he).symm.trans (request.reached.own tap' e he'))
  refine List.Nodup.map_on ?_ hnodup
  intro x hx y hy hid
  exact request.distinct x y (holds_of_candidate hx) (holds_of_candidate hy) hid

end Request

/-! ## A reader -/

/-- What the store answers to the reader's request `n` with the cursor `before`. -/
def ask (searchableParts : Exchange → Redaction → List String) (requests : ℕ → Request)
    (filter : Filter) (redaction : Redaction) (n : ℕ) (before : Option ExchangeId) : Page :=
  (requests n).store.list searchableParts (requests n).taps ⟨filter, (requests n).limit, before⟩
    redaction

variable (searchableParts) in
/-- Each request is answered from what the store holds then. -/
lemma ask_answers (requests : ℕ → Request) (filter : Filter) (redaction : Redaction) (n : ℕ)
    (before : Option ExchangeId) :
    Answers Exchange.id
      (fun e => (requests n).store.Holds e ∧ Wanted searchableParts filter redaction e) before
      (ask searchableParts requests filter redaction n before) := by
  have h := runQuery_answers searchableParts ⟨filter, (requests n).limit, before⟩ redaction
    ((requests n).candidates_distinct filter.tap)
  rw [ask, Request.list_eq]
  refine h.congr fun e => ?_
  constructor
  · rintro ⟨hmem, hwanted⟩
    exact ⟨Request.holds_of_candidate hmem, hwanted⟩
  · rintro ⟨hholds, hwanted⟩
    exact ⟨Request.candidate_of_holds hholds hwanted, hwanted⟩

/-- Of a store that stays as it is, a reader sees exactly what matches. -/
lemma mem_shown {requests : ℕ → Request} {filter : Filter} {redaction : Redaction}
    (hstays : ∀ i, (requests i).store = (requests 0).store) {pages : List Page}
    (hpages : Follows (ask searchableParts requests filter redaction) 0 none pages)
    (e : Exchange) :
    e ∈ shown pages ↔
      (requests 0).store.Holds e ∧ Wanted searchableParts filter redaction e := by
  have hanswers := ask_answers searchableParts requests filter redaction
  have hsound : ∀ e ∈ shown pages, (requests 0).store.Holds e ∧
      Wanted searchableParts filter redaction e := by
    intro e he
    obtain ⟨page, hpage, hmem⟩ := List.mem_flatMap.mp he
    obtain ⟨i, hi⟩ := List.getElem?_of_mem hpage
    have hoffered := hpages.sound hanswers hi hmem
    rwa [hstays] at hoffered
  refine ⟨hsound e, ?_⟩
  rintro ⟨hholds, hwanted⟩
  obtain ⟨x, hx, hid⟩ := hpages.complete hanswers (fun c hc => absurd hc (by simp)) fun i _ =>
    ⟨e, ⟨by rwa [hstays], hwanted⟩, rfl⟩
  rwa [← (requests 0).distinct x e (hsound x hx).1 hholds hid]

/-- A reader who follows the cursors comes to an end, and sees greatest ids first, each once, only
what matched and was held when its page was asked for; whatever the store held and the filter let
through at every request is among it.  What comes in on the way changes nothing else, and of a
store that stays as it is the reader sees exactly what matches. -/
theorem pages_once (searchableParts : Exchange → Redaction → List String)
    (requests : ℕ → Request) (filter : Filter) (redaction : Redaction) :
    ∃ pages, (∀ other, Follows (ask searchableParts requests filter redaction) 0 none other ↔
        other = pages) ∧
      (shown pages).Pairwise (fun x y => y.id < x.id) ∧
      (∀ i page, pages[i]? = some page → ∀ e ∈ page.items,
        (requests i).store.Holds e ∧ filter.matchesExchange searchableParts e redaction = true) ∧
      (∀ id, (∀ i < pages.length, ∃ e, (requests i).store.Holds e ∧
          filter.matchesExchange searchableParts e redaction = true ∧ e.id = id) →
        ∃ e ∈ shown pages, e.id = id) ∧
      ((∀ i, (requests i).store = (requests 0).store) → ∀ e, e ∈ shown pages ↔
        (requests 0).store.Holds e ∧
          filter.matchesExchange searchableParts e redaction = true) := by
  have hanswers := ask_answers searchableParts requests filter redaction
  obtain ⟨pages, hpages⟩ := follows_ends hanswers 0 none
  have hheld : ∀ i page, pages[i]? = some page → ∀ e ∈ page.items, (requests i).store.Holds e ∧
      filter.matchesExchange searchableParts e redaction = true := by
    intro i page hi e he
    have := hpages.sound hanswers hi he
    rwa [Nat.zero_add] at this
  have hseen : ∀ id, (∀ i < pages.length, ∃ e, (requests i).store.Holds e ∧
      filter.matchesExchange searchableParts e redaction = true ∧ e.id = id) →
      ∃ e ∈ shown pages, e.id = id := by
    intro id hid
    refine hpages.complete hanswers (fun c hc => absurd hc (by simp)) ?_
    intro i hi
    obtain ⟨e, hholds, hwanted, hkey⟩ := hid i hi
    rw [Nat.zero_add]
    exact ⟨e, ⟨hholds, hwanted⟩, hkey⟩
  refine ⟨pages, fun other => ⟨fun h => h.unique hpages, fun h => h ▸ hpages⟩,
    hpages.sorted hanswers, hheld, hseen, ?_⟩
  intro hstays e
  exact mem_shown hstays hpages e

/-- Requests of one tap. -/
def numbered (n : ℕ) : Exchange where
  id := n
  seq := n
  tap := "app"
  request := ⟨"GET", ⟨"/", none⟩, "https", "app.example.com", ⟨[]⟩, {}⟩

/-- A store that keeps two exchanges, after some were put in. -/
def numberedStore (ns : List ℕ) : MemoryStore :=
  ns.foldl (fun store n => store.put (numbered n)) (.new 2)

lemma numberedStore_snoc (ns : List ℕ) (n : ℕ) :
    numberedStore (ns ++ [n]) = (numberedStore ns).put (numbered n) := by
  rw [numberedStore, List.foldl_append]
  rfl

lemma numberedStore_holds {ns : List ℕ} {x : Exchange} (h : (numberedStore ns).Holds x) :
    ∃ n, x = numbered n := by
  induction ns using List.reverseRecOn with
  | nil => exact absurd h List.not_mem_nil
  | append_singleton ns n ih =>
      rw [numberedStore_snoc] at h
      rcases MemoryStore.mem_items_put h with rfl | h
      · exact ⟨n, rfl⟩
      · exact ih h

lemma numberedStore_reached (ns : List ℕ) : (numberedStore ns).Reached := by
  induction ns using List.reverseRecOn with
  | nil => exact .new 2
  | append_singleton ns n ih =>
      rw [numberedStore_snoc]
      exact ih.put _

lemma numberedStore_rings (n : ℕ) (ns : List ℕ) (tap : TapId) :
    ((numberedStore (n :: ns)).rings tap).isSome ↔ tap = "app" := by
  induction ns using List.reverseRecOn with
  | nil =>
      show (((MemoryStore.new 2).put (numbered n)).rings tap).isSome ↔ tap = "app"
      rw [MemoryStore.rings_put]
      simp [numbered, MemoryStore.new]
  | append_singleton ns m ih =>
      rw [← List.cons_append, numberedStore_snoc, MemoryStore.rings_put, ih]
      exact or_self_iff

/-- One request for a page of one. -/
def Request.ofNumbered (n : ℕ) (ns : List ℕ) : Request where
  store := numberedStore (n :: ns)
  reached := numberedStore_reached _
  distinct x y hx hy hid := by
    obtain ⟨k, rfl⟩ := numberedStore_holds hx
    obtain ⟨l, rfl⟩ := numberedStore_holds hy
    exact congrArg numbered hid
  taps := ["app"]
  nodup := List.nodup_singleton _
  listed tap := by rw [numberedStore_rings, List.mem_singleton]
  limit := some 1

/-- The first page shows the second exchange and the store has the first one for the next; a third
is put in before the next page is asked for, and the first is on none. -/
theorem pages_evicted :
    ∃ requests : ℕ → Request,
      (requests 1).store = (requests 0).store.put (numbered 3) ∧
      (requests 0).store.Holds (numbered 1) ∧
      Follows (ask (fun _ _ => []) (fun _ => requests 0) {} ⟨true, false, []⟩) 0 none
        [⟨[numbered 2], some 2⟩, ⟨[numbered 1], none⟩] ∧
      Follows (ask (fun _ _ => []) requests {} ⟨true, false, []⟩) 0 none
        [⟨[numbered 2], some 2⟩, ⟨[], none⟩] := by
  let requests : ℕ → Request := fun n => if n = 0 then .ofNumbered 1 [2] else .ofNumbered 1 [2, 3]
  have hfirst : ask (fun _ _ => []) (fun _ => .ofNumbered 1 [2]) {} ⟨true, false, []⟩ 0 none =
      ⟨[numbered 2], some 2⟩ := by decide +kernel
  have hsecond : ask (fun _ _ => []) (fun _ => .ofNumbered 1 [2]) {} ⟨true, false, []⟩ 1 (some 2) =
      ⟨[numbered 1], none⟩ := by decide +kernel
  have hlater : ask (fun _ _ => []) (fun _ => .ofNumbered 1 [2, 3]) {} ⟨true, false, []⟩ 1
      (some 2) = ⟨[], none⟩ := by decide +kernel
  refine ⟨requests, rfl, ?_, ?_, ?_⟩
  · show numbered 1 ∈ (numberedStore [1, 2]).items "app"
    decide +kernel
  · have hpages := Follows.more (congrArg Page.next hfirst) (.last (congrArg Page.next hsecond))
    rwa [hfirst, hsecond] at hpages
  · have hpages : Follows (ask (fun _ _ => []) requests {} ⟨true, false, []⟩) 0 none _ :=
      .more (congrArg Page.next hfirst) (.last (congrArg Page.next hlater))
    rwa [show ask _ requests _ _ 0 none = _ from hfirst,
      show ask _ requests _ _ (0 + 1) (some 2) = _ from hlater] at hpages

/-! ## The oldest match -/

/-- The pages are walked to the last one, its last entry is what comes out. -/
lemma oldestMatch_follows {list : Query → Redaction → Page} {filter : Filter}
    {redaction : Redaction} {n : ℕ} {before : Option ExchangeId} {pages : List Page}
    (h : Follows (fun _ before => list ⟨filter, some MAX_PAGE, before⟩ redaction) n before pages)
    {fuel : ℕ} (hfuel : pages.length ≤ fuel) (oldest : Option Exchange) :
    oldestMatch list filter redaction fuel before oldest =
      some ((shown pages).getLast?.or oldest) := by
  induction h generalizing fuel oldest with
  | @last n before hnext =>
      rcases fuel with _ | fuel
      · simp at hfuel
      · rw [oldestMatch]
        simp only [hnext, shown, List.flatMap_singleton]
  | @more n before c pages hnext rest ih =>
      rcases fuel with _ | fuel
      · simp at hfuel
      · rw [oldestMatch]
        simp only [hnext]
        rw [ih (by simpa using hfuel)]
        simp only [shown, List.flatMap_cons, List.getLast?_append, Option.or_assoc]

/-- Of a store that stays as it is, the match with the least id. -/
theorem oldestMatch_least (searchableParts : Exchange → Redaction → List String)
    (request : Request) (filter : Filter) (redaction : Redaction) :
    ∃ pages oldest, ∀ fuel, pages ≤ fuel →
      oldestMatch (request.store.list searchableParts request.taps) filter redaction fuel none
        none = some oldest ∧
      (oldest = none ↔ ∀ e, request.store.Holds e →
        filter.matchesExchange searchableParts e redaction = false) ∧
      ∀ e ∈ oldest, request.store.Holds e ∧
        filter.matchesExchange searchableParts e redaction = true ∧
        ∀ x, request.store.Holds x → filter.matchesExchange searchableParts x redaction = true →
          e.id ≤ x.id := by
  let requests : ℕ → Request := fun _ => { request with limit := some MAX_PAGE }
  have hanswers := ask_answers searchableParts requests filter redaction
  obtain ⟨pages, hpages⟩ := follows_ends hanswers 0 none
  have hmem : ∀ e, e ∈ shown pages ↔
      request.store.Holds e ∧ Wanted searchableParts filter redaction e :=
    mem_shown (fun _ => rfl) hpages
  refine ⟨pages.length, (shown pages).getLast?, fun fuel hfuel => ⟨?_, ?_, ?_⟩⟩
  · rw [oldestMatch_follows hpages hfuel none, Option.or_none]
  · rw [List.getLast?_eq_none_iff, List.eq_nil_iff_forall_not_mem]
    refine forall_congr' fun e => ?_
    rw [hmem, not_and, Wanted, Bool.not_eq_true]
  · intro e he
    obtain ⟨hholds, hwanted⟩ := (hmem e).mp (List.mem_of_getLast? he)
    refine ⟨hholds, hwanted, fun x hx hwantedx => ?_⟩
    obtain ⟨front, hfront⟩ := List.getLast?_eq_some_iff.mp he
    have hsorted := hpages.sorted hanswers
    have hshown := (hmem x).mpr ⟨hx, hwantedx⟩
    rw [hfront] at hsorted hshown
    rcases List.mem_append.mp hshown with hbefore | hlast
    · exact ((List.pairwise_append.mp hsorted).2.2 x hbefore e (List.mem_singleton_self e)).le
    · rw [List.mem_singleton.mp hlast]

end Teitunnel.Lens
