import Teitunnel.Lib.Tickets
import Teitunnel.Lib.Runs
import Teitunnel.Mcp.Moves

/-!
# Connections of shared MCP servers

What holds whatever the order of the steps of all requests: a code makes one connection, a refresh
token is exchanged once, an access token works only where its connection is, and a connection that
is gone never comes back.
-/

namespace Teitunnel.Mcp

/-- The code a request holds that it may still make a connection with. -/
def Stage.heldCode : Stage → Option String
  | .exchanging _ code _ _ | .inserting code _ _ _ => some code
  | _ => none

/-- The refresh token of a request that no row has yet. -/
def Stage.newRefresh : Stage → Option String
  | .inserting _ _ _ issued | .rotating _ issued => some issued.refresh
  | _ => none

/-- The code that made a connection. -/
def Event.madeBy : Event → Option String
  | .inserted code _ => some code
  | _ => none

/-- The refresh token that was exchanged. -/
def Event.exchanged : Event → Option String
  | .rotated _ refresh _ => some refresh
  | _ => none

namespace Auth

/-- The codes that made connections, in turn. -/
def spentCodes (s : Auth) : List String := s.log.filterMap Event.madeBy

/-- The refresh tokens that were exchanged, in turn. -/
def spentRefresh (s : Auth) : List String := s.log.filterMap Event.exchanged

/-- The refresh tokens that rows have. -/
def liveRefresh (s : Auth) : List String := s.rows.map (·.refreshHash)

/-- Whether a request holds `k`, as a number. -/
def holds (ticket : Stage → Option String) (k : String) (st : Stage) : ℕ :=
  if ticket st = some k then 1 else 0

/-- In how many places a code is: waiting, held or spent. -/
def codePlaces (s : Auth) (k : String) : ℕ :=
  (if (s.codes.find k).isSome then 1 else 0) + s.tasks.weigh (holds Stage.heldCode k) +
    s.spentCodes.count k

/-- In how many places a refresh token is: with a request, in a row or spent. -/
def refreshPlaces (s : Auth) (k : String) : ℕ :=
  s.tasks.weigh (holds Stage.newRefresh k) + s.liveRefresh.count k + s.spentRefresh.count k

def Knows (s : Auth) (k : String) : Prop := k ∈ s.seen

/-- Requests are numbered in turn. -/
def Numbered (s : Auth) : Prop := ∀ i, s.started ≤ i → s.tasks.find i = none

section moves

variable {c : Codec} {s t : Auth} {a : Step} {i : ℕ} {k : String} {st old : Stage}
  {ticket : Stage → Option String}

lemma numbered_become (h : s.Numbered) (hi : s.tasks.find i = some old) : (s.become i st).Numbered := by
  intro j hj
  have hne : j ≠ i := by
    rintro rfl
    have hnone := h j hj
    rw [hi] at hnone
    cases hnone
  exact (Table.find_insert_of_ne hne).trans (h j hj)

lemma numbered_start (h : s.Numbered) : (s.start st).Numbered := by
  intro j hj
  have hlt : s.started < j := hj
  exact (Table.find_insert_of_ne hlt.ne').trans (h j hlt.le)

lemma numbered_answer {error : Option OAuthError} (h : s.Numbered) : (s.answer i error).Numbered := by
  intro j hj
  show (s.tasks.erase i).find j = none
  rw [Table.find_erase, h j hj, ite_self]

lemma numbered_move (h : Moves c s a t) (hs : s.Numbered) : t.Numbered := by
  cases h with
  | pass | approve | disconnectElsewhere | announced | announcedEnd => exact hs
  | misfit => exact fun j hj => hs j ((Nat.le_succ _).trans hj)
  | miss | take | refresh | revokeAccess | revokeOther | disconnect | sync =>
      exact numbered_start hs
  | issueFirst _ _ _ _ _ _ hi | replayed _ _ _ _ _ hi | insert _ _ _ _ _ _ hi
  | foundOver _ _ _ _ _ _ hi | found _ _ _ _ _ hi | foundReused _ _ _ _ _ hi
  | issueNext _ _ _ _ _ hi | rotate _ _ _ _ hi | rotateLost _ _ _ _ hi | revokeFound _ _ _ _ _ hi
  | endForget _ _ _ _ hi | read _ _ _ hi | insertFails _ _ _ _ _ _ hi => exact numbered_become hs hi
  | _ => exact numbered_answer hs

/-- Nothing that was known is forgotten. -/
lemma seen_move (h : Moves c s a t) (hk : s.Knows k) : t.Knows k := by
  cases h with
  | approve | miss | misfit | take | refresh | revokeAccess | revokeOther | disconnect |
    disconnectElsewhere | announced | announcedEnd => exact List.mem_cons_of_mem _ hk
  | issueFirst => exact List.mem_cons_of_mem _ (List.mem_cons_of_mem _ (List.mem_cons_of_mem _ hk))
  | issueNext => exact List.mem_cons_of_mem _ (List.mem_cons_of_mem _ hk)
  | _ => exact hk

lemma holds_eq_one (h : ticket st = some k) : holds ticket k st = 1 := if_pos h

lemma holds_eq_zero (h : ticket st ≠ some k) : holds ticket k st = 0 := if_neg h

lemma weigh_become (hi : s.tasks.find i = some old) (hle : holds ticket k st ≤ holds ticket k old) :
    (s.become i st).tasks.weigh (holds ticket k) ≤ s.tasks.weigh (holds ticket k) :=
  Table.weigh_insert_le hi hle

lemma weigh_start (hs : s.Numbered) : (s.start st).tasks.weigh (holds ticket k) =
    holds ticket k st + s.tasks.weigh (holds ticket k) :=
  Table.weigh_insert_of_none (hs _ le_rfl)

/-- A new request that holds nothing. -/
lemma weigh_start_le (hs : s.Numbered) (hnone : ticket st = none) :
    (s.start st).tasks.weigh (holds ticket k) ≤ s.tasks.weigh (holds ticket k) := by
  have hzero : holds ticket k st = 0 := if_neg (by simp [hnone])
  rw [weigh_start hs, hzero, Nat.zero_add]

lemma weigh_answer {error : Option OAuthError} :
    (s.answer i error).tasks.weigh (holds ticket k) ≤ s.tasks.weigh (holds ticket k) :=
  Table.weigh_erase_le

/-- What a step records besides what is spent. -/
lemma spent_append {f : Event → Option String} {events : List Event}
    (h : ∀ e ∈ events, f e = none) : (s.log ++ events).filterMap f = s.log.filterMap f := by
  rw [List.filterMap_append, List.filterMap_eq_nil_iff.mpr h, List.append_nil]

lemma codePlaces_le (hcodes : (t.codes.find k).isSome = true → (s.codes.find k).isSome = true)
    (htasks : t.tasks.weigh (holds Stage.heldCode k) ≤ s.tasks.weigh (holds Stage.heldCode k))
    (hspent : t.spentCodes = s.spentCodes) : t.codePlaces k ≤ s.codePlaces k := by
  rw [codePlaces, codePlaces, hspent]
  have hle : (if (t.codes.find k).isSome then 1 else 0) ≤
      if (s.codes.find k).isSome then 1 else 0 := by
    split_ifs with ht hs
    · exact le_rfl
    · exact absurd (hcodes ht) hs
    · exact Nat.zero_le _
    · exact le_rfl
  omega

lemma isSome_of_retain {p : String → Code → Bool}
    (h : ((s.codes.retain p).find k).isSome = true) : (s.codes.find k).isSome = true := by
  obtain ⟨code, hcode⟩ := Option.isSome_iff_exists.mp h
  rw [(Table.find_retain_eq_some_iff.mp hcode).1]
  rfl

/-- A step takes a code on its way, or brings a new one. -/
lemma code_moved (h : Moves c s a t) (hs : s.Numbered) (k : String) :
    Tickets.Moved codePlaces Knows s t k := by
  cases h with
  | approve hash code hnew =>
      have htasks : ((if ((s.codes.insert hash code).find k).isSome then 1 else 0) +
          s.tasks.weigh (holds Stage.heldCode k) + s.spentCodes.count k : ℕ) =
          codePlaces (({ s with codes := s.codes.insert hash code } : Auth).see [hash]) k := rfl
      by_cases hk : k = hash
      · subst hk
        refine .inr ⟨hnew, List.mem_cons_self, ?_⟩
        rw [← htasks, codePlaces, Table.find_insert_self, Option.isSome_some, if_pos rfl]
        omega
      · left
        rw [← htasks, Table.find_insert_of_ne hk]
        exact le_rfl
  | take server form code resource hcode =>
      left
      have htasks : (s.start (.exchanging server form.code (form.clientId.getD "") resource)).tasks.weigh
          (holds Stage.heldCode k) = _ := weigh_start hs
      have hspent : (s.log ++ [Event.presentedCode s.started form.code s.now]).filterMap
          Event.madeBy = s.spentCodes := spent_append (by simp [Event.madeBy])
      show (if ((s.codes.erase form.code).find k).isSome then 1 else 0) +
          (s.start (.exchanging server form.code _ resource)).tasks.weigh _ +
          ((s.log ++ [Event.presentedCode s.started form.code s.now]).filterMap
            Event.madeBy).count k ≤ _
      rw [htasks, hspent, Table.find_erase, codePlaces]
      by_cases hk : k = form.code
      · subst hk
        rw [if_pos rfl, hcode, holds_eq_one rfl, Option.isSome_none, Option.isSome_some]
        simp only [Bool.false_eq_true, if_false, if_true]
        omega
      · rw [if_neg hk, holds_eq_zero fun h => hk (Option.some.inj h).symm]
        omega
  | insert i fresh code clientId grantEnds issued hi hnew =>
      left
      have htasks := Table.weigh_insert_of_some (f := holds Stage.heldCode k)
        (v := .remembering code issued) hi
      have hspent : (s.log ++ [Event.inserted code issued.access.grant]).filterMap Event.madeBy =
          s.spentCodes ++ [code] := by
        rw [List.filterMap_append]
        rfl
      show (if (s.codes.find k).isSome then 1 else 0) +
          (s.tasks.insert i (.remembering code issued)).weigh _ +
          ((s.log ++ [Event.inserted code issued.access.grant]).filterMap Event.madeBy).count k ≤ _
      rw [hspent, List.count_append, codePlaces]
      have hnone : holds Stage.heldCode k (.remembering code issued) = 0 := rfl
      by_cases hk : k = code
      · subst hk
        have hone : holds Stage.heldCode k (.inserting k clientId grantEnds issued) = 1 :=
          holds_eq_one rfl
        rw [hone] at htasks
        rw [List.count_singleton_self]
        omega
      · have hzero : holds Stage.heldCode k (.inserting code clientId grantEnds issued) = 0 :=
          holds_eq_zero fun h => hk (Option.some.inj h).symm
        rw [hzero] at htasks
        have hother : [code].count k = 0 := List.count_eq_zero.mpr (by simpa using hk)
        rw [hother]
        omega
  | misfit server form code error hcode =>
      refine .inl (codePlaces_le isSome_of_retain le_rfl ?_)
      exact (spent_append (by simp [Event.madeBy])).trans (spent_append (by simp [Event.madeBy]))
  | replace i fresh since grants hi =>
      exact .inl (codePlaces_le isSome_of_retain weigh_answer (spent_append (by simp [Event.madeBy])))
  | pass ms => exact .inl le_rfl
  | disconnectElsewhere | announced | announcedEnd =>
      refine .inl (codePlaces_le id le_rfl ?_)
      simp [spentCodes, record, see, forget, Event.madeBy]
  | miss | refresh | revokeAccess | revokeOther | disconnect | sync =>
      refine .inl (codePlaces_le id (weigh_start_le hs rfl) ?_)
      simp [spentCodes, record, see, start, Event.madeBy]
  | issueFirst _ _ _ _ _ _ hi =>
      refine .inl (codePlaces_le id (weigh_become hi le_rfl) ?_)
      simp [spentCodes, see, accept, become, Event.madeBy]
  | replayed _ _ _ _ _ hi | foundOver _ _ _ _ _ _ hi | found _ _ _ _ _ hi
  | foundReused _ _ _ _ _ hi | issueNext _ _ _ _ _ hi | rotate _ _ _ _ hi | rotateLost _ _ _ _ hi
  | revokeFound _ _ _ _ _ hi | endForget _ _ _ _ hi | read _ _ _ hi
  | insertFails _ _ _ _ _ _ hi =>
      refine .inl (codePlaces_le id (weigh_become hi (Nat.zero_le _)) ?_)
      simp [spentCodes, record, accept, become, forget, Event.madeBy]
  | _ =>
      refine .inl (codePlaces_le id weigh_answer ?_)
      simp [spentCodes, record, answer, forget, Event.madeBy]

lemma count_live_le {rows rows' : List Row} (h : List.Sublist rows' rows) (k : String) :
    (rows'.map (·.refreshHash)).count k ≤ (rows.map (·.refreshHash)).count k :=
  (h.map _).count_le k

/-- An exchange takes the token that was presented out of the rows and puts the new one in. -/
lemma count_rotate (rows : List Row) (id presented : String) (access refresh : String × Timestamp)
    (k : String) :
    ((Mcp.rotate rows id presented access refresh).1.map (·.refreshHash)).count k +
        (if presented = k then rows.countP (Row.isHeld id presented) else 0) =
      (rows.map (·.refreshHash)).count k +
        (if refresh.1 = k then rows.countP (Row.isHeld id presented) else 0) := by
  induction rows with
  | nil => simp [Mcp.rotate]
  | cons row rows ih =>
      rw [Mcp.rotate, List.map_cons, List.map_cons, List.map_cons, List.count_cons, List.count_cons,
        List.countP_cons]
      rw [Mcp.rotate] at ih
      cases hheld : row.isHeld id presented with
      | true =>
          obtain ⟨-, rfl⟩ := isHeld_iff.mp hheld
          simp only [if_true, rotated_refreshHash, beq_iff_eq]
          dsimp only at ih
          split_ifs at ih ⊢ <;> omega
      | false =>
          simp only [Bool.false_eq_true, if_false, Nat.add_zero]
          dsimp only at ih
          split_ifs at ih ⊢ <;> omega

/-- Only the row that has it has a token. -/
lemma countP_isHeld_le (rows : List Row) (id presented : String) :
    rows.countP (Row.isHeld id presented) ≤ (rows.map (·.refreshHash)).count presented := by
  rw [List.count, List.countP_map]
  exact List.countP_mono_left fun row _ h => beq_iff_eq.mpr (isHeld_iff.mp h).2

lemma refreshPlaces_le
    (htasks : t.tasks.weigh (holds Stage.newRefresh k) ≤ s.tasks.weigh (holds Stage.newRefresh k))
    (hlive : t.liveRefresh.count k ≤ s.liveRefresh.count k)
    (hspent : t.spentRefresh = s.spentRefresh) : t.refreshPlaces k ≤ s.refreshPlaces k := by
  rw [refreshPlaces, refreshPlaces, hspent]
  omega

/-- A step draws a refresh token for a request. -/
lemma refresh_drawn {issued : Issued} (hi : s.tasks.find i = some old)
    (hst : Stage.newRefresh st = some issued.refresh) (hnew : issued.refresh ∉ s.seen)
    (htasks : t.tasks = s.tasks.insert i st) (hlive : t.liveRefresh = s.liveRefresh)
    (hspent : t.spentRefresh = s.spentRefresh) (hseen : t.Knows issued.refresh) :
    Tickets.Moved refreshPlaces Knows s t k := by
  rw [Tickets.Moved, refreshPlaces, refreshPlaces, htasks, hlive, hspent]
  have hweigh := Table.weigh_insert_of_some (f := holds Stage.newRefresh k) (v := st) hi
  by_cases hk : k = issued.refresh
  · subst hk
    rw [holds_eq_one hst] at hweigh
    exact .inr ⟨hnew, hseen, by omega⟩
  · rw [holds_eq_zero fun h => hk (Option.some.inj (h.symm.trans hst))] at hweigh
    exact .inl (by omega)

/-- A step takes a refresh token on its way, or draws a new one. -/
lemma refresh_moved (h : Moves c s a t) (hs : s.Numbered)
    (hsingle : Tickets.Single refreshPlaces Knows s) (k : String) :
    Tickets.Moved refreshPlaces Knows s t k := by
  cases h with
  | issueFirst i fresh server code clientId resource hi hdistinct hnew issued hissued =>
      have hrefresh : issued.refresh ∉ s.seen := by
        rw [hissued]
        exact hnew fresh.refresh (by simp)
      refine refresh_drawn hi rfl hrefresh rfl rfl (spent_append (by simp [Event.exchanged])) ?_
      simp [Knows, become, see, accept]
  | issueNext i fresh server presented grant hi hdistinct hnew issued hissued =>
      have hrefresh : issued.refresh ∉ s.seen := by
        rw [hissued]
        exact hnew fresh.refresh (by simp)
      refine refresh_drawn hi rfl hrefresh rfl rfl (spent_append (by simp [Event.exchanged])) ?_
      simp [Knows, become, accept]
  | insert i fresh code clientId grantEnds issued hi hnew =>
      left
      have htasks := Table.weigh_insert_of_some (f := holds Stage.newRefresh k)
        (v := .remembering code issued) hi
      have hspent : (s.log ++ [Event.inserted code issued.access.grant]).filterMap Event.exchanged =
          s.spentRefresh := spent_append (by simp [Event.exchanged])
      have hlive : ((s.rows ++ [(grantOf clientId grantEnds issued).newRow]).map
          (·.refreshHash)) = s.liveRefresh ++ [issued.refresh] := by
        rw [List.map_append]
        rfl
      show (s.tasks.insert i (.remembering code issued)).weigh _ +
          ((s.rows ++ [(grantOf clientId grantEnds issued).newRow]).map (·.refreshHash)).count k +
          ((s.log ++ [Event.inserted code issued.access.grant]).filterMap
            Event.exchanged).count k ≤ _
      rw [hspent, hlive, List.count_append, refreshPlaces]
      have hnone : holds Stage.newRefresh k (.remembering code issued) = 0 := rfl
      have hheld : holds Stage.newRefresh k (.inserting code clientId grantEnds issued) =
          [issued.refresh].count k := by
        rw [holds, List.count_singleton, Stage.newRefresh]
        simp
      omega
  | rotate i fresh presented issued hi hheld =>
      left
      have htasks := Table.weigh_insert_of_some (f := holds Stage.newRefresh k)
        (v := .keeping issued) hi
      have hspent : (s.log ++ [Event.rotated i presented issued.access.grant]).filterMap
          Event.exchanged = s.spentRefresh ++ [presented] := by
        rw [List.filterMap_append]
        rfl
      have hrows := count_rotate s.rows issued.access.grant presented
        (issued.hash, issued.access.expiresAt) (issued.refresh, issued.refreshExpiresAt) k
      have hone : s.rows.countP (Row.isHeld issued.access.grant presented) = 1 := by
        have hle := (countP_isHeld_le s.rows issued.access.grant presented).trans
          (Nat.le_add_left _ (s.tasks.weigh (holds Stage.newRefresh presented)))
        have hplaces := hle.trans ((Nat.le_add_right _ _).trans (hsingle presented).1)
        have hpos := List.countP_pos_iff.mpr hheld
        omega
      show (s.tasks.insert i (.keeping issued)).weigh _ +
          ((Mcp.rotate s.rows issued.access.grant presented (issued.hash, issued.access.expiresAt)
            (issued.refresh, issued.refreshExpiresAt)).1.map (·.refreshHash)).count k +
          ((s.log ++ [Event.rotated i presented issued.access.grant]).filterMap
            Event.exchanged).count k ≤ _
      rw [hspent, List.count_append, refreshPlaces, liveRefresh]
      have hnone : holds Stage.newRefresh k (.keeping issued) = 0 := rfl
      have hheld : holds Stage.newRefresh k (.rotating presented issued) =
          if issued.refresh = k then 1 else 0 := by
        rw [holds, Stage.newRefresh]
        simp
      have hcount : [presented].count k = if presented = k then 1 else 0 := by
        rw [List.count_singleton]
        simp
      rw [hone] at hrows
      dsimp only at hrows
      omega
  | pass ms => exact .inl le_rfl
  | approve | misfit | announced | announcedEnd =>
      refine .inl (refreshPlaces_le le_rfl le_rfl ?_)
      simp [spentRefresh, record, see, forget, refuse, Event.exchanged]
  | disconnectElsewhere =>
      refine .inl (refreshPlaces_le le_rfl (count_live_le List.filter_sublist k) ?_)
      simp [spentRefresh, record, see, Event.exchanged]
  | disconnect | sync =>
      refine .inl (refreshPlaces_le (weigh_start_le hs rfl) (count_live_le List.filter_sublist k) ?_)
      simp [spentRefresh, record, see, start, Event.exchanged]
  | endDelete =>
      refine .inl (refreshPlaces_le weigh_answer (count_live_le List.filter_sublist k) ?_)
      simp [spentRefresh, record, answer, Event.exchanged]
  | miss | take | refresh | revokeAccess | revokeOther =>
      refine .inl (refreshPlaces_le (weigh_start_le hs rfl) le_rfl ?_)
      simp [spentRefresh, record, see, start, Event.exchanged]
  | replayed _ _ _ _ _ hi | foundOver _ _ _ _ _ _ hi | found _ _ _ _ _ hi
  | foundReused _ _ _ _ _ hi | rotateLost _ _ _ _ hi
  | revokeFound _ _ _ _ _ hi | endForget _ _ _ _ hi | read _ _ _ hi
  | insertFails _ _ _ _ _ _ hi =>
      refine .inl (refreshPlaces_le (weigh_become hi (Nat.zero_le _)) le_rfl ?_)
      simp [spentRefresh, record, become, forget, Event.exchanged]
  | _ =>
      refine .inl (refreshPlaces_le weigh_answer le_rfl ?_)
      simp [spentRefresh, record, answer, forget, Event.exchanged]

end moves

section once

variable {c : Codec} {db : Database} {now maxGrant : ℕ} {steps : List Step} {s t : Auth}

/-- Every code and every refresh token is in one place at most. -/
structure Single (s : Auth) : Prop where
  numbered : s.Numbered
  codes : Tickets.Single codePlaces Knows s
  refresh : Tickets.Single refreshPlaces Knows s

lemma tickets_move {a : Step} (h : Moves c s a t) (hs : s.Single) : t.Single where
  numbered := numbered_move h hs.numbered
  codes := hs.codes.step (fun _ => seen_move h) (code_moved h hs.numbered)
  refresh := hs.refresh.step (fun _ => seen_move h) (refresh_moved h hs.numbered hs.refresh)

lemma spent_open (f : Event → Option String) (h : ∀ token grant, f (.token token grant) = none) :
    (Auth.open db now maxGrant).log.filterMap f = [] := by
  refine List.filterMap_eq_nil_iff.mpr fun e he => ?_
  obtain ⟨row, -, hrow⟩ := List.mem_flatMap.mp he
  obtain ⟨token, -, rfl⟩ := List.mem_map.mp hrow
  exact h token row.id

lemma tickets_open : (Auth.open db now maxGrant).Single where
  numbered _ _ := rfl
  codes k := by
    have hspent : (Auth.open db now maxGrant).spentCodes = [] := spent_open _ fun _ _ => rfl
    have hzero : (Auth.open db now maxGrant).codePlaces k = 0 := by
      rw [codePlaces, hspent]
      rfl
    rw [hzero]
    exact ⟨Nat.zero_le _, fun h => absurd h (lt_irrefl _)⟩
  refresh k := by
    have hspent : (Auth.open db now maxGrant).spentRefresh = [] := spent_open _ fun _ _ => rfl
    have hplaces : (Auth.open db now maxGrant).refreshPlaces k =
        ((sweep db.rows now).map (·.refreshHash)).count k := by
      rw [refreshPlaces, hspent]
      exact Nat.zero_add _
    have hnodup : (db.rows.map (·.refreshHash)).Nodup := by
      refine List.pairwise_map.mpr (db.distinct.imp fun {row other} hdistinct heq => ?_)
      exact hdistinct.2 List.mem_cons_self (heq ▸ List.mem_cons_self)
    have hsub : List.Sublist (sweep db.rows now) db.rows := List.filter_sublist
    have hle := count_live_le hsub k
    rw [hplaces]
    refine ⟨hle.trans (List.nodup_iff_count_le_one.mp hnodup k), fun hpos => ?_⟩
    obtain ⟨row, hrow, rfl⟩ := List.mem_map.mp (List.count_pos_iff.mp (hpos.trans_le hle))
    exact List.mem_flatMap.mpr ⟨row, hrow, List.mem_cons_of_mem _ List.mem_cons_self⟩

lemma tickets_run (hrun : Runs.run (Auth.step c) (Auth.open db now maxGrant) steps = some s) :
    s.Single :=
  Runs.run_keeps tickets_open (fun _ _ _ hs hstep => tickets_move (moves_of_step hstep) hs) hrun

/-- In every run of requests, in any interleaving of their steps: a code makes one connection at
most and none once it has been exchanged, a refresh token is exchanged once at most, and no
connection still has one that was. -/
theorem tickets_spent_once
    (hrun : Runs.run (Auth.step c) (Auth.open db now maxGrant) steps = some s) :
    s.spentCodes.Nodup ∧ (∀ code ∈ s.spentCodes, s.codes.find code = none) ∧
      (s.liveRefresh ++ s.spentRefresh).Nodup := by
  obtain ⟨-, hcodes, hrefresh⟩ := tickets_run hrun
  refine ⟨List.nodup_iff_count_le_one.mpr fun k => ?_, fun code hcode => ?_,
    List.nodup_iff_count_le_one.mpr fun k => ?_⟩
  · exact (Nat.le_add_left _ _).trans (hcodes k).1
  · have hone := (hcodes code).1
    have hpos := List.count_pos_iff.mpr hcode
    rw [codePlaces] at hone
    cases hfind : s.codes.find code with
    | none => rfl
    | some waiting =>
        rw [hfind, Option.isSome_some, if_pos rfl] at hone
        omega
  · have hone := (hrefresh k).1
    rw [refreshPlaces] at hone
    rw [List.count_append]
    omega

end once

end Auth

/-! ## Where access tokens work -/

/-- What stays of a connection as long as it lives. -/
structure Profile where
  host : String
  resource : Option String
  expiresAt : Timestamp

def Grant.profile (grant : Grant) : Profile := ⟨grant.host, grant.resource, grant.expiresAt⟩

lemma Database.same_or_disjoint (db : Database) {row other : Row} (h : row ∈ db.rows)
    (h' : other ∈ db.rows) : row = other ∨ row.id ≠ other.id ∧ row.tokens.Disjoint other.tokens := by
  have hsymm : Std.Symm fun row other : Row => row.id ≠ other.id ∧ row.tokens.Disjoint other.tokens :=
    ⟨fun _ _ h => ⟨h.1.symm, h.2.symm⟩⟩
  by_cases hne : row = other
  · exact .inl hne
  · exact .inr (db.distinct.forall h h' hne)

/-- Whether an event is an exchange of a connection's refresh token. -/
def Event.isExchangeOf (id : String) : Event → Bool
  | .rotated _ _ grant => grant = id
  | _ => false

namespace Auth

/-- The exchanges of a connection's refresh tokens. -/
def exchangesOf (s : Auth) (id : String) : List Event := s.log.filter (Event.isExchangeOf id)

/-- A connection is the one its profile says, and its access token was issued for it. -/
def FitsGrant (profiles : String → Profile) (s : Auth) (grant : Grant) : Prop :=
  grant.id ∈ s.seen ∧ profiles grant.id = grant.profile ∧
    ∀ token, grant.accessHash = some token → .token token grant.id ∈ s.log

/-- An access token works no further than its connection. -/
def FitsAccess (profiles : String → Profile) (s : Auth) (token : String) (a : Access) : Prop :=
  a.grant ∈ s.seen ∧ (profiles a.grant).host = a.host ∧ (profiles a.grant).resource = a.resource ∧
    a.expiresAt ≤ (profiles a.grant).expiresAt ∧ .token token a.grant ∈ s.log

def FitsStage (profiles : String → Profile) (s : Auth) : Stage → Prop
  | .inserting _ _ grantEnds issued =>
      s.FitsAccess profiles issued.hash issued.access ∧
        (profiles issued.access.grant).expiresAt = grantEnds
  | .rotating _ issued => s.FitsAccess profiles issued.hash issued.access
  | .refreshing server _ grant => s.FitsGrant profiles grant ∧ grant.host = server.host
  | .replacing _ grants => ∀ grant ∈ grants, s.FitsGrant profiles grant
  | _ => True

/-- Rows, tokens in memory and requests agree about every connection. -/
structure Fits (profiles : String → Profile) (s : Auth) : Prop where
  rows : ∀ row ∈ s.rows, s.FitsGrant profiles row.toGrant
  access : ∀ token a, s.access.find token = some a → s.FitsAccess profiles token a
  tasks : ∀ i st, s.tasks.find i = some st → s.FitsStage profiles st

/-- Nothing known or recorded goes, and profiles of known connections stay. -/
structure Grows (profiles profiles' : String → Profile) (s t : Auth) : Prop where
  seen : ∀ k ∈ s.seen, k ∈ t.seen
  log : ∀ e ∈ s.log, e ∈ t.log
  profiles : ∀ k ∈ s.seen, profiles' k = profiles k

section fits

variable {c : Codec} {s t : Auth} {a : Step} {profiles profiles' : String → Profile}
  {grant : Grant} {token : String} {access : Access} {st : Stage} {i : ℕ}

lemma FitsGrant.grow (h : s.FitsGrant profiles grant) (hgrows : Grows profiles profiles' s t) :
    t.FitsGrant profiles' grant := by
  obtain ⟨hid, hprofile, htoken⟩ := h
  refine ⟨hgrows.seen _ hid, (hgrows.profiles _ hid).trans hprofile, fun token haccess => ?_⟩
  exact hgrows.log _ (htoken token haccess)

lemma FitsAccess.grow (h : s.FitsAccess profiles token access)
    (hgrows : Grows profiles profiles' s t) : t.FitsAccess profiles' token access := by
  obtain ⟨hid, hprofile⟩ := h
  rw [← hgrows.profiles _ hid] at hprofile
  exact ⟨hgrows.seen _ hid, hprofile.1, hprofile.2.1, hprofile.2.2.1, hgrows.log _ hprofile.2.2.2⟩

lemma FitsStage.grow (h : s.FitsStage profiles st) (hgrows : Grows profiles profiles' s t) :
    t.FitsStage profiles' st := by
  cases st with
  | inserting code clientId grantEnds issued =>
      exact ⟨h.1.grow hgrows, by rw [hgrows.profiles _ h.1.1, h.2]⟩
  | rotating presented issued => exact FitsAccess.grow h hgrows
  | refreshing server presented grant => exact ⟨h.1.grow hgrows, h.2⟩
  | replacing since grants => exact fun grant hgrant => (h grant hgrant).grow hgrows
  | _ => trivial

/-- What a step leaves fits when what it brings does. -/
lemma Fits.step (h : s.Fits profiles) (hgrows : Grows profiles profiles' s t)
    (hrows : ∀ row ∈ t.rows, row ∈ s.rows ∨ t.FitsGrant profiles' row.toGrant)
    (haccess : ∀ token a, t.access.find token = some a →
      s.access.find token = some a ∨ t.FitsAccess profiles' token a)
    (htasks : ∀ i st, t.tasks.find i = some st →
      s.tasks.find i = some st ∨ t.FitsStage profiles' st) : t.Fits profiles' where
  rows row hrow := by
    rcases hrows row hrow with hold | hfits
    · exact (h.rows row hold).grow hgrows
    · exact hfits
  access token a ha := by
    rcases haccess token a ha with hold | hfits
    · exact (h.access token a hold).grow hgrows
    · exact hfits
  tasks i st hi := by
    rcases htasks i st hi with hold | hfits
    · exact (h.tasks i st hold).grow hgrows
    · exact hfits

lemma find_become {j : ℕ} {st' : Stage} (h : (s.become i st).tasks.find j = some st') :
    s.tasks.find j = some st' ∨ st' = st := by
  have hfind : (s.tasks.insert i st).find j = some st' := h
  rw [Table.find_insert] at hfind
  split_ifs at hfind with hj
  · exact .inr (Option.some.inj hfind).symm
  · exact .inl hfind

lemma find_answer {j : ℕ} {st' : Stage} (h : (s.tasks.erase i).find j = some st') :
    s.tasks.find j = some st' :=
  (Table.find_retain_eq_some_iff.mp h).1

lemma find_forget {id : String} (h : (s.forget id).access.find token = some access) :
    s.access.find token = some access := (Table.find_retain_eq_some_iff.mp h).1

/-- A log that only got longer. -/
lemma log_move (h : Moves c s a t) : ∀ e ∈ s.log, e ∈ t.log := by
  intro e he
  cases h with
  | pass | approve | miss | refresh | sync | rotateLost | revokeFound | read | insertFails => exact he
  | announcedEnd | remember | issueFirst | issueNext | misfit | notReplayed | drop | foundMisfit
  | foundNone | keep | endDelete | disconnectForget | deleteFails =>
      simp [record, accept, answer, become, see, forget, refuse, he]
  | _ => exact List.mem_append_left _ he

/-- A table built from connections names them. -/
lemma fits_tokenIndex {since : Timestamp} {grants : List Grant}
    (h : ∀ grant ∈ grants, s.FitsGrant profiles grant)
    (hfind : (tokenIndex since grants).find token = some access) :
    s.FitsAccess profiles token access := by
  obtain ⟨grant, hgrant, hentry⟩ :=
    List.mem_filterMap.mp (List.mem_filter.mp (Table.mem_of_find_ofList hfind)).1
  obtain ⟨hash, hhash, hrest⟩ := Option.bind_eq_some_iff.mp hentry
  obtain ⟨expires, -, heq⟩ := Option.bind_eq_some_iff.mp hrest
  obtain ⟨rfl, rfl⟩ := Prod.mk.inj (Option.some.inj heq)
  obtain ⟨hid, hprofile, htoken⟩ := h grant hgrant
  exact ⟨hid, congrArg Profile.host hprofile, congrArg Profile.resource hprofile,
    (min_le_right _ _).trans_eq (congrArg Profile.expiresAt hprofile).symm, htoken hash hhash⟩

/-- New tokens fit the connection they were issued for. -/
lemma fits_issue {u : Auth} {fresh : Fresh} {id host : String} {resource : Option String}
    {grantEnds : Timestamp} {issued : Issued}
    (hissued : issued = u.issue fresh id host resource grantEnds) (hid : id ∈ s.seen)
    (hprofile : profiles id = ⟨host, resource, grantEnds⟩)
    (htoken : .token issued.hash id ∈ s.log) : s.FitsAccess profiles issued.hash issued.access := by
  subst hissued
  refine ⟨hid, congrArg Profile.host hprofile, congrArg Profile.resource hprofile, ?_, htoken⟩
  exact (min_le_right _ _).trans_eq (congrArg Profile.expiresAt hprofile).symm

lemma find_accept {issued : Issued} (h : (s.accept issued).access.find token = some access) :
    s.access.find token = some access ∨ token = issued.hash ∧ access = issued.access := by
  have hfind : (s.access.insert issued.hash issued.access).find token = some access := h
  rw [Table.find_insert] at hfind
  split_ifs at hfind with hkey
  · exact .inr ⟨hkey, (Option.some.inj hfind).symm⟩
  · exact .inl hfind

lemma mem_rows_of_sweep {rows : List Row} {now : Timestamp} {row : Row} (h : row ∈ sweep rows now) :
    row ∈ rows := (mem_sweep.mp h).1

lemma mem_rows_of_delete {rows : List Row} {id : String} {row : Row} (h : row ∈ deleteGrant rows id) :
    row ∈ rows := (mem_deleteGrant.mp h).1

/-- Every step keeps what everybody agrees about; a new connection gets its profile. -/
lemma fits_move (h : Moves c s a t) (hs : s.Fits profiles) : ∃ profiles', t.Fits profiles' := by
  have hgrows : Grows profiles profiles s t := ⟨fun k => seen_move h, log_move h, fun k hk => rfl⟩
  cases h with
  | issueFirst i fresh server code clientId resource hi hdistinct hnew issued hissued =>
      have hfresh : fresh.grant ∉ s.seen := hnew fresh.grant (by simp)
      let named := Function.update profiles fresh.grant ⟨server.host, resource, s.now + s.maxGrant⟩
      have hgrows : Grows profiles named s _ := ⟨hgrows.seen, hgrows.log, fun k hk =>
        Function.update_of_ne (fun heq : k = fresh.grant => hfresh (heq ▸ hk)) _ _⟩
      have hprofile : named fresh.grant = ⟨server.host, resource, s.now + s.maxGrant⟩ :=
        Function.update_self _ _ _
      have hissue : FitsAccess named (((s.accept issued).see [fresh.grant]).become i
          (.inserting code clientId (s.now + s.maxGrant) issued)) issued.hash issued.access := by
        refine fits_issue hissued List.mem_cons_self hprofile ?_
        simp [hissued, issue, accept, see, become]
      refine ⟨named, hs.step hgrows (fun row => .inl) (fun token a ha => ?_) fun j st hj => ?_⟩
      · rcases find_accept ha with hold | ⟨rfl, rfl⟩
        · exact .inl hold
        · exact .inr hissue
      · rcases find_become hj with hold | rfl
        · exact .inl hold
        · refine .inr ⟨hissue, ?_⟩
          rw [hissued]
          exact congrArg Profile.expiresAt hprofile
  | issueNext i fresh server presented grant hi hdistinct hnew issued hissued =>
      obtain ⟨⟨hid, hprofile, -⟩, hhost⟩ := hs.tasks i _ hi
      have hissue : FitsAccess profiles ((s.accept issued).become i (.rotating presented issued))
          issued.hash issued.access := by
        refine fits_issue hissued (hgrows.seen _ hid) ?_ ?_
        · rw [hprofile, Grant.profile, hhost]
        · simp [hissued, issue, accept, become]
      refine ⟨profiles, hs.step hgrows (fun row => .inl) (fun token a ha => ?_) fun j st hj => ?_⟩
      · rcases find_accept ha with hold | ⟨rfl, rfl⟩
        · exact .inl hold
        · exact .inr hissue
      · rcases find_become hj with hold | rfl
        · exact .inl hold
        · exact .inr hissue
  | insert i fresh code clientId grantEnds issued hi hnew =>
      obtain ⟨⟨hid, hhost, hresource, hends, htoken⟩, hexpires⟩ := hs.tasks i _ hi
      refine ⟨profiles, hs.step hgrows (fun row hrow => ?_) (fun token a => .inl) fun j st hj => ?_⟩
      · rcases List.mem_append.mp hrow with hold | hlast
        · exact .inl hold
        · right
          rw [List.mem_singleton.mp hlast]
          refine ⟨hid, ?_, fun token haccess => ?_⟩
          · show profiles issued.access.grant =
              ⟨issued.access.host, issued.access.resource, grantEnds⟩
            rw [← hhost, ← hresource, ← hexpires]
          · obtain rfl : issued.hash = token := Option.some.inj haccess
            exact hgrows.log _ htoken
      · rcases find_become hj with hold | rfl
        · exact .inl hold
        · exact .inr trivial
  | rotate i fresh presented issued hi hheld =>
      obtain ⟨hid, hhost, hresource, hends, htoken⟩ := hs.tasks i _ hi
      refine ⟨profiles, hs.step hgrows (fun row hrow => ?_) (fun token a => .inl) fun j st hj => ?_⟩
      · rcases mem_rotate.mp hrow with ⟨hold, -⟩ | ⟨old, hold, hold', rfl⟩
        · exact .inl hold
        · right
          obtain ⟨hgrant, hprofile, -⟩ := hs.rows old hold
          refine ⟨hgrant, hprofile, fun token haccess => ?_⟩
          obtain rfl : issued.hash = token := Option.some.inj haccess
          have hsame : old.id = issued.access.grant := (isHeld_iff.mp hold').1
          exact hsame ▸ hgrows.log _ htoken
      · rcases find_become hj with hold | rfl
        · exact .inl hold
        · exact .inr trivial
  | found i fresh server form grant hi hfind hlive =>
      obtain ⟨row, hrow, rfl, hhost, -⟩ := findRefresh_current hfind
      refine ⟨profiles, hs.step hgrows (fun row => .inl) (fun token a => .inl) fun j st hj => ?_⟩
      rcases find_become hj with hold | rfl
      · exact .inl hold
      · exact .inr ⟨(hs.rows row hrow).grow hgrows, hhost⟩
  | read i fresh since hi =>
      refine ⟨profiles, hs.step hgrows (fun row => .inl) (fun token a => .inl) fun j st hj => ?_⟩
      rcases find_become hj with hold | rfl
      · exact .inl hold
      · right
        intro grant hgrant
        obtain ⟨row, hrow, rfl⟩ := List.mem_map.mp hgrant
        exact (hs.rows row hrow).grow hgrows
  | replace i fresh since grants hi =>
      have hgrants := hs.tasks i _ hi
      refine ⟨profiles, hs.step hgrows (fun row => .inl) (fun token a ha => ?_)
        fun j st hj => .inl (find_answer hj)⟩
      exact .inr (fits_tokenIndex (fun grant hgrant => (hgrants grant hgrant).grow hgrows) ha)
  | keep i fresh issued hi =>
      exact ⟨profiles, hs.step hgrows (fun row => .inl)
        (fun token a ha => .inl (Table.find_retain_eq_some_iff.mp ha).1)
        fun j st hj => .inl (find_answer hj)⟩
  | disconnect id hknown =>
      refine ⟨profiles, hs.step hgrows (fun row hrow => .inl (mem_rows_of_delete hrow))
        (fun token a => .inl) fun j st hj => ?_⟩
      rcases find_become hj with hold | rfl
      · exact .inl hold
      · exact .inr trivial
  | sync =>
      refine ⟨profiles, hs.step hgrows (fun row hrow => .inl (mem_rows_of_sweep hrow))
        (fun token a => .inl) fun j st hj => ?_⟩
      rcases find_become hj with hold | rfl
      · exact .inl hold
      · exact .inr trivial
  | disconnectElsewhere id hknown =>
      exact ⟨profiles, hs.step hgrows (fun row hrow => .inl (mem_rows_of_delete hrow))
        (fun token a => .inl) fun j st => .inl⟩
  | endDelete i fresh grant error hi =>
      exact ⟨profiles, hs.step hgrows (fun row hrow => .inl (mem_rows_of_delete hrow))
        (fun token a => .inl) fun j st hj => .inl (find_answer hj)⟩
  | announced | announcedEnd =>
      exact ⟨profiles, hs.step hgrows (fun row => .inl) (fun token a ha => .inl (find_forget ha))
        fun j st => .inl⟩
  | drop | disconnectForget =>
      exact ⟨profiles, hs.step hgrows (fun row => .inl) (fun token a ha => .inl (find_forget ha))
        fun j st hj => .inl (find_answer hj)⟩
  | endForget =>
      refine ⟨profiles, hs.step hgrows (fun row => .inl) (fun token a ha => .inl (find_forget ha))
        fun j st hj => ?_⟩
      rcases find_become hj with hold | rfl
      · exact .inl hold
      · exact .inr trivial
  | pass | approve | misfit =>
      exact ⟨profiles, hs.step hgrows (fun row => .inl) (fun token a => .inl) fun j st => .inl⟩
  | miss | take | refresh | revokeAccess | revokeOther | replayed | foundOver | foundReused
  | rotateLost | revokeFound | insertFails =>
      refine ⟨profiles, hs.step hgrows (fun row => .inl) (fun token a => .inl) fun j st hj => ?_⟩
      rcases find_become hj with hold | rfl
      · exact .inl hold
      · exact .inr trivial
  | _ =>
      exact ⟨profiles, hs.step hgrows (fun row => .inl) (fun token a => .inl)
        fun j st hj => .inl (find_answer hj)⟩

/-- A token is issued for one connection, and known from then on. -/
structure Issues (s : Auth) : Prop where
  seen : ∀ token grant, .token token grant ∈ s.log → token ∈ s.seen
  unique : ∀ token grant grant', .token token grant ∈ s.log → .token token grant' ∈ s.log →
    grant = grant'

lemma Issues.of_same (h : s.Issues) (hseen : ∀ k ∈ s.seen, k ∈ t.seen)
    (hsame : ∀ token grant, .token token grant ∈ t.log → .token token grant ∈ s.log) :
    t.Issues where
  seen token grant hmem := hseen token (h.seen token grant (hsame token grant hmem))
  unique token grant grant' hmem hmem' :=
    h.unique token grant grant' (hsame token grant hmem) (hsame token grant' hmem')

lemma Issues.accept {issued : Issued} (h : s.Issues) (hhash : issued.hash ∉ s.seen)
    (hrefresh : issued.refresh ∉ s.seen) : (s.accept issued).Issues := by
  have hcases : ∀ token grant, .token token grant ∈ (s.accept issued).log →
      .token token grant ∈ s.log ∨
        (token = issued.hash ∨ token = issued.refresh) ∧ grant = issued.access.grant := by
    intro token grant hmem
    rcases List.mem_append.mp hmem with hold | hnew
    · exact .inl hold
    · right
      simp only [List.mem_cons, Event.token.injEq, List.not_mem_nil, or_false] at hnew
      rcases hnew with ⟨htoken, hgrant⟩ | ⟨htoken, hgrant⟩
      · exact ⟨.inl htoken, hgrant⟩
      · exact ⟨.inr htoken, hgrant⟩
  have hfresh : ∀ token grant, .token token grant ∈ s.log →
      ¬ (token = issued.hash ∨ token = issued.refresh) := by
    rintro token grant hmem (rfl | rfl)
    · exact hhash (h.seen _ grant hmem)
    · exact hrefresh (h.seen _ grant hmem)
  constructor
  · intro token grant hmem
    rcases hcases token grant hmem with hold | ⟨rfl | rfl, -⟩
    · exact List.mem_cons_of_mem _ (List.mem_cons_of_mem _ (h.seen token grant hold))
    · exact List.mem_cons_self
    · exact List.mem_cons_of_mem _ List.mem_cons_self
  · intro token grant grant' hmem hmem'
    rcases hcases token grant hmem with hold | ⟨htoken, hgrant⟩
    · rcases hcases token grant' hmem' with hold' | ⟨htoken', -⟩
      · exact h.unique token grant grant' hold hold'
      · exact absurd htoken' (hfresh token grant hold)
    · rcases hcases token grant' hmem' with hold' | ⟨-, hgrant'⟩
      · exact absurd htoken (hfresh token grant' hold')
      · exact hgrant.trans hgrant'.symm

lemma issues_move (h : Moves c s a t) (hs : s.Issues) : t.Issues := by
  have hseen : ∀ k ∈ s.seen, k ∈ t.seen := fun k => seen_move h
  cases h with
  | issueFirst i fresh server code clientId resource hi hdistinct hnew issued hissued =>
      have haccept : (s.accept issued).Issues := hs.accept
        (by rw [hissued]; exact hnew fresh.access (by simp))
        (by rw [hissued]; exact hnew fresh.refresh (by simp))
      exact haccept.of_same (fun k hk => List.mem_cons_of_mem _ hk) fun token grant hmem => hmem
  | issueNext i fresh server presented grant hi hdistinct hnew issued hissued =>
      have haccept : (s.accept issued).Issues := hs.accept
        (by rw [hissued]; exact hnew fresh.access (by simp))
        (by rw [hissued]; exact hnew fresh.refresh (by simp))
      exact haccept.of_same (fun k hk => hk) fun token grant hmem => hmem
  | _ =>
      refine hs.of_same hseen fun token grant hmem => ?_
      simpa [record, answer, become, see, forget, refuse, start] using hmem

lemma issues_open {db : Database} {now maxGrant : ℕ} : (Auth.open db now maxGrant).Issues := by
  have hcases : ∀ token grant, .token token grant ∈ (Auth.open db now maxGrant).log →
      ∃ row ∈ db.rows, token ∈ row.tokens ∧ row.id = grant := by
    intro token grant hmem
    obtain ⟨row, hrow, htokens⟩ := List.mem_flatMap.mp hmem
    obtain ⟨token', htoken, heq⟩ := List.mem_map.mp htokens
    obtain ⟨rfl, hid⟩ := Event.token.inj heq
    exact ⟨row, hrow, htoken, hid⟩
  constructor
  · intro token grant hmem
    obtain ⟨row, hrow, htoken, -⟩ := hcases token grant hmem
    exact List.mem_flatMap.mpr ⟨row, hrow, List.mem_cons_of_mem _ htoken⟩
  · intro token grant grant' hmem hmem'
    obtain ⟨row, hrow, htoken, rfl⟩ := hcases token grant hmem
    obtain ⟨row', hrow', htoken', rfl⟩ := hcases token grant' hmem'
    rcases db.same_or_disjoint hrow hrow' with rfl | ⟨-, hdisjoint⟩
    · rfl
    · exact absurd htoken' (hdisjoint htoken)

/-- Rows of a database have the profile that their id names. -/
lemma exists_profiles (db : Database) :
    ∃ profiles : String → Profile, ∀ row ∈ db.rows, profiles row.id = row.toGrant.profile := by
  classical
  refine ⟨fun id => if h : ∃ row ∈ db.rows, row.id = id then h.choose.toGrant.profile
    else ⟨id, none, 0⟩, fun row hrow => ?_⟩
  have hexists : ∃ other ∈ db.rows, other.id = row.id := ⟨row, hrow, rfl⟩
  obtain ⟨hmem, hid⟩ := hexists.choose_spec
  refine (dif_pos hexists).trans ?_
  rcases db.same_or_disjoint hmem hrow with heq | ⟨hne, -⟩
  · rw [heq]
  · exact absurd hid hne

lemma fits_open {db : Database} {now maxGrant : ℕ} :
    ∃ profiles, (Auth.open db now maxGrant).Fits profiles := by
  obtain ⟨profiles, hprofiles⟩ := exists_profiles db
  have hrows : ∀ row ∈ db.rows, (Auth.open db now maxGrant).FitsGrant profiles row.toGrant := by
    intro row hrow
    refine ⟨List.mem_flatMap.mpr ⟨row, hrow, List.mem_cons_self⟩, hprofiles row hrow,
      fun token haccess => ?_⟩
    refine List.mem_flatMap.mpr ⟨row, hrow, List.mem_map.mpr ⟨token, ?_, rfl⟩⟩
    refine List.mem_cons_of_mem _ (List.mem_append_left _ ?_)
    rw [haccess]
    exact List.mem_singleton_self token
  have hgrants : ∀ grant ∈ grants (sweep db.rows now),
      (Auth.open db now maxGrant).FitsGrant profiles grant := by
    intro grant hgrant
    obtain ⟨row, hrow, rfl⟩ := List.mem_map.mp hgrant
    exact hrows row (mem_rows_of_sweep hrow)
  exact ⟨profiles, fun row hrow => hrows row (mem_rows_of_sweep hrow),
    fun token a ha => fits_tokenIndex hgrants ha, fun i st hi => by cases hi⟩

variable {db : Database} {now maxGrant : ℕ} {steps : List Step}

/-- In every run: an access token that a server accepts was issued for exactly one connection, and
as long as the connection is there, it is one to this server, is not over, and is for what the
server stands for. -/
theorem valid_token_fits {server : Server}
    (hrun : Runs.run (Auth.step c) (Auth.open db now maxGrant) steps = some s)
    (hvalid : s.valid c server token = true) :
    ∃ id, (∀ grant, .token token grant ∈ s.log ↔ grant = id) ∧
      ∀ row ∈ s.rows, row.id = id → row.host = server.host ∧ s.now < row.expiresAt ∧
        row.resource.all fun named => (audience c server.host server.path named).isSome := by
  have hkept : (∃ profiles, s.Fits profiles) ∧ s.Issues := by
    refine Runs.run_keeps (I := fun u => (∃ profiles, u.Fits profiles) ∧ u.Issues)
      ⟨fits_open, issues_open⟩ ?_ hrun
    rintro u a v ⟨⟨profiles, hfits⟩, hissues⟩ hstep
    have hmove := moves_of_step hstep
    exact ⟨fits_move hmove hfits, issues_move hmove hissues⟩
  obtain ⟨⟨profiles, hfits⟩, hissues⟩ := hkept
  rw [valid, Option.any_eq_true] at hvalid
  obtain ⟨a, hfind, haccepts⟩ := hvalid
  rw [Bool.and_eq_true, Bool.and_eq_true, decide_eq_true_iff, decide_eq_true_iff] at haccepts
  obtain ⟨⟨hhost, hlive⟩, hnamed⟩ := haccepts
  obtain ⟨hid, hahost, haresource, haends, htoken⟩ := hfits.access token a hfind
  refine ⟨a.grant, fun grant => ⟨fun h => hissues.unique _ _ _ h htoken, fun h => h ▸ htoken⟩, ?_⟩
  intro row hrow hrowid
  obtain ⟨-, hprofile, -⟩ := hfits.rows row hrow
  have hrowprofile : profiles a.grant = row.toGrant.profile := hrowid ▸ hprofile
  rw [hrowprofile] at hahost haresource haends
  refine ⟨hahost.trans hhost, hlive.trans_le haends, ?_⟩
  rw [← haresource] at hnamed
  exact hnamed

end fits

/-! ## What is gone stays gone -/

section gone

variable {c : Codec} {s t : Auth} {a : Step} {db : Database} {now maxGrant : ℕ}
  {steps rest : List Step} {id : String}

/-- No row has an id, and no request will make one. -/
structure Gone (id : String) (s : Auth) : Prop where
  known : id ∈ s.seen
  rows : ∀ row ∈ s.rows, row.id ≠ id
  tasks : ∀ i code clientId grantEnds issued,
    s.tasks.find i = some (.inserting code clientId grantEnds issued) → issued.access.grant ≠ id

lemma gone_move (h : Moves c s a t) (hs : s.Gone id) :
    t.Gone id ∧ t.exchangesOf id = s.exchangesOf id := by
  have hknown : id ∈ t.seen := seen_move h hs.known
  cases h with
  | issueFirst i fresh server code clientId resource hi hdistinct hnew issued hissued =>
      have hfresh : fresh.grant ≠ id := by
        rintro rfl
        exact hnew fresh.grant (by simp) hs.known
      refine ⟨⟨hknown, hs.rows, fun j code' clientId' ends issued' hj => ?_⟩, ?_⟩
      · rcases find_become hj with hold | heq
        · exact hs.tasks j _ _ _ _ hold
        · obtain ⟨-, -, -, rfl⟩ := Stage.inserting.inj heq
          rw [hissued]
          exact hfresh
      · simp [exchangesOf, become, see, accept, Event.isExchangeOf]
  | insert i fresh code clientId grantEnds issued hi hnew =>
      have hother : issued.access.grant ≠ id := hs.tasks i _ _ _ _ hi
      refine ⟨⟨hknown, fun row hrow => ?_, fun j code' clientId' ends issued' hj => ?_⟩, ?_⟩
      · rcases List.mem_append.mp hrow with hold | hlast
        · exact hs.rows row hold
        · rw [List.mem_singleton.mp hlast]
          exact hother
      · exact hs.tasks j _ _ _ _ ((find_become hj).resolve_right (by simp))
      · simp [exchangesOf, become, record, Event.isExchangeOf]
  | rotate i fresh presented issued hi hheld =>
      obtain ⟨held, hrow, hheld⟩ := hheld
      have hother : issued.access.grant ≠ id := (isHeld_iff.mp hheld).1 ▸ hs.rows held hrow
      refine ⟨⟨hknown, fun row hrow => ?_, fun j code' clientId' ends issued' hj => ?_⟩, ?_⟩
      · rcases mem_rotate.mp hrow with ⟨hold, -⟩ | ⟨old, hold, -, rfl⟩
        · exact hs.rows row hold
        · exact hs.rows old hold
      · exact hs.tasks j _ _ _ _ ((find_become hj).resolve_right (by simp))
      · simp [exchangesOf, become, record, Event.isExchangeOf, hother]
  | pass | approve | misfit | announced | announcedEnd =>
      refine ⟨⟨hknown, hs.rows, hs.tasks⟩, ?_⟩
      simp [exchangesOf, record, see, forget, refuse, Event.isExchangeOf]
  | disconnectElsewhere =>
      refine ⟨⟨hknown, fun row hrow => hs.rows row (mem_rows_of_delete hrow), hs.tasks⟩, ?_⟩
      simp [exchangesOf, record, see, Event.isExchangeOf]
  | disconnect =>
      refine ⟨⟨hknown, fun row hrow => hs.rows row (mem_rows_of_delete hrow),
        fun j code clientId ends issued hj => ?_⟩, ?_⟩
      · exact hs.tasks j _ _ _ _ ((find_become hj).resolve_right (by simp))
      · simp [exchangesOf, start, record, see, Event.isExchangeOf]
  | sync =>
      refine ⟨⟨hknown, fun row hrow => hs.rows row (mem_rows_of_sweep hrow),
        fun j code clientId ends issued hj => ?_⟩, rfl⟩
      exact hs.tasks j _ _ _ _ ((find_become hj).resolve_right (by simp))
  | endDelete =>
      refine ⟨⟨hknown, fun row hrow => hs.rows row (mem_rows_of_delete hrow),
        fun j code clientId ends issued hj => hs.tasks j _ _ _ _ (find_answer hj)⟩, ?_⟩
      simp [exchangesOf, record, answer, Event.isExchangeOf]
  | miss | take | refresh | revokeAccess | revokeOther | replayed | foundOver | found | foundReused
  | issueNext | rotateLost | revokeFound | endForget | read | insertFails =>
      refine ⟨⟨hknown, hs.rows, fun j code clientId ends issued hj => ?_⟩, ?_⟩
      · exact hs.tasks j _ _ _ _ ((find_become hj).resolve_right (by simp))
      · simp [exchangesOf, start, become, record, see, forget, accept, Event.isExchangeOf]
  | _ =>
      refine ⟨⟨hknown, hs.rows,
        fun j code clientId ends issued hj => hs.tasks j _ _ _ _ (find_answer hj)⟩, ?_⟩
      simp [exchangesOf, record, answer, forget, Event.isExchangeOf]

/-- In every run: a connection that was known and is gone never comes back, and no refresh token of
it is exchanged again. -/
theorem gone_stays_gone (hrun : Runs.run (Auth.step c) s rest = some t) (hknown : id ∈ s.seen)
    (hsecret : s.isSecret id = false) (hgone : ∀ row ∈ s.rows, row.id ≠ id) :
    (∀ row ∈ t.rows, row.id ≠ id) ∧ t.exchangesOf id = s.exchangesOf id := by
  have hstart : s.Gone id := by
    refine ⟨hknown, hgone, fun i code clientId grantEnds issued hi heq => ?_⟩
    have hentry := Table.find_eq_some_iff.mp hi
    have hsome : s.isSecret id = true := List.any_eq_true.mpr ⟨_, hentry, by
      simp [Stage.secrets, heq]⟩
    rw [hsecret] at hsome
    cases hsome
  have hrun' := Runs.run_keeps (I := fun u => u.Gone id ∧ u.exchangesOf id = s.exchangesOf id)
    ⟨hstart, rfl⟩ (fun u a v hu hstep => ?_) hrun
  · exact ⟨hrun'.1.rows, hrun'.2⟩
  · obtain ⟨hgone, hsame⟩ := gone_move (moves_of_step hstep) hu.1
    exact ⟨hgone, hsame.trans hu.2⟩

end gone

/-! ## A connection that is made and ended -/

def plainCodec : Codec := ⟨fun _ => none, id⟩

def docsServer : Server := ⟨"docs.test", "/mcp"⟩

def longVerifier : String := "aaaaaaaaaabbbbbbbbbbccccccccccddddddddddeee"

def newValues : Fresh := ⟨"access", "refresh", "grant"⟩

/-- A code is approved and exchanged. -/
def connecting : List Step :=
  [.approve "code" ⟨"docs.test", "", "app:back", longVerifier, none, 1000⟩,
    .exchangeCode docsServer ⟨"code", none, some "app:back", some longVerifier, none⟩,
    .proceed 0 newValues, .proceed 0 newValues, .proceed 0 newValues]

/-- The server after requests, from an empty database. -/
def afterSteps (steps : List Step) : Option Auth :=
  Runs.run (Auth.step plainCodec) (Auth.open ⟨[], .nil⟩ 0 5000) steps

lemma eq_of_map {α : Type} {o : Option Auth} {s : Auth} {f : Auth → α} {v : α} (hs : o = some s)
    (h : o.map f = some v) : f s = v := by
  rw [hs] at h
  exact Option.some.inj h

theorem tickets_spent_once_connecting :
    ∃ s, afterSteps connecting = some s ∧ s.spentCodes = ["code"] ∧ s.codes.find "code" = none := by
  have hsome : (afterSteps connecting).isSome = true := by decide +kernel
  obtain ⟨s, hs⟩ := Option.isSome_iff_exists.mp hsome
  have hspent : s.spentCodes = ["code"] := eq_of_map hs (by decide +kernel)
  have honce := tickets_spent_once hs
  refine ⟨s, hs, hspent, honce.2.1 "code" ?_⟩
  rw [hspent]
  exact List.mem_singleton_self "code"

theorem valid_token_fits_connecting :
    ∃ s, afterSteps connecting = some s ∧ ∃ id, (∀ grant, .token "access" grant ∈ s.log ↔ grant = id) ∧
      ∀ row ∈ s.rows, row.id = id → row.host = "docs.test" := by
  have hsome : (afterSteps connecting).isSome = true := by decide +kernel
  obtain ⟨s, hs⟩ := Option.isSome_iff_exists.mp hsome
  have hvalid : s.valid plainCodec docsServer "access" = true :=
    eq_of_map (f := fun s => s.valid plainCodec docsServer "access") hs (by decide +kernel)
  obtain ⟨id, hissued, hrows⟩ := valid_token_fits hs hvalid
  exact ⟨s, hs, id, hissued, fun row hrow hid => (hrows row hrow hid).1⟩

theorem gone_stays_gone_connecting :
    ∃ s t, afterSteps (connecting ++ [.disconnect "grant"]) = some s ∧
      Runs.run (Auth.step plainCodec) s [.proceed 1 newValues] = some t ∧
      ∀ row ∈ t.rows, row.id ≠ "grant" := by
  have hsome : (afterSteps (connecting ++ [.disconnect "grant"])).isSome = true := by decide +kernel
  obtain ⟨s, hs⟩ := Option.isSome_iff_exists.mp hsome
  have hnext : (Runs.run (Auth.step plainCodec) s [.proceed 1 newValues]).isSome = true :=
    eq_of_map (f := fun s => (Runs.run (Auth.step plainCodec) s [.proceed 1 newValues]).isSome) hs
      (by decide +kernel)
  obtain ⟨t, ht⟩ := Option.isSome_iff_exists.mp hnext
  have hseen : "grant" ∈ s.seen := of_decide_eq_true
    (eq_of_map (f := fun s => decide ("grant" ∈ s.seen)) hs (by decide +kernel))
  have hsecret : s.isSecret "grant" = false :=
    eq_of_map (f := fun s => s.isSecret "grant") hs (by decide +kernel)
  have hrows : s.rows = [] := eq_of_map hs (by decide +kernel)
  refine ⟨s, t, hs, ht, (gone_stays_gone ht hseen hsecret ?_).1⟩
  rw [hrows]
  exact fun row hrow => absurd hrow List.not_mem_nil

end Auth

end Teitunnel.Mcp
