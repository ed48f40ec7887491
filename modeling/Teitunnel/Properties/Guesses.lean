import Teitunnel.Lens.Login
import Teitunnel.Lib.Runs

/-!
# Password guesses

An address may fail `MAX_FAILURES` times in a window.  Its failures are counted after they were
verified, so what bounds them is the count together with the attempts on their way: `Counted`
says that a request comes through only while these leave room, and that a failure of a new
address finds room in the table.
-/

namespace Teitunnel.Lens

open Runs

variable {Ip : Type} [DecidableEq Ip]

/-! ## Windows -/

/-- The window of an address, its start and the wrong passwords in it, after one more event: it
starts with a failure recorded outside a window, and ends with a success. -/
def nextWindow (ip : Ip) (window : Option (ℕ × ℕ)) : LoginEvent Ip → Option (ℕ × ℕ)
  | .wrong other now =>
      if other = ip then window.map fun (start, wrong) =>
        if now < start + FAILURE_WINDOW then (start, wrong + 1) else (start, wrong)
      else window
  | .failed other now =>
      if other = ip then
        match window with
        | some (start, wrong) => if now < start + FAILURE_WINDOW then some (start, wrong) else some (now, 1)
        | none => some (now, 1)
      else window
  | .succeeded other => if other = ip then none else window

def window (ip : Ip) (log : List (LoginEvent Ip)) : Option (ℕ × ℕ) :=
  log.foldl (nextWindow ip) none

lemma window_snoc (ip : Ip) (log : List (LoginEvent Ip)) (event : LoginEvent Ip) :
    window ip (log ++ [event]) = nextWindow ip (window ip log) event := by
  simp [window]

/-- The failures counted in a window that isn't over. -/
def LoginLimiter.live (limiter : LoginLimiter Ip) (now : ℕ) (ip : Ip) : ℕ :=
  match limiter.find ip with
  | some (count, since) => if now < since + FAILURE_WINDOW then count else 0
  | none => 0

namespace Logins

/-- The attempts of an address on their way. -/
def inFlight (s : Logins Ip) (ip : Ip) : ℕ :=
  s.attempts.countP fun attempt => attempt.ip = ip

/-- Those of them that were verified and are not counted yet. -/
def uncounted (s : Logins Ip) (ip : Ip) : ℕ :=
  s.attempts.countP fun attempt => attempt = ⟨ip, .checked false⟩

/-- A request comes through only while counted failures and attempts on their way leave room; a
failure of a new address finds room in the table. -/
def Counted (s : Logins Ip) : Step Ip → Prop
  | .request ip => s.limiter.limited s.now ip = true ∨
      s.limiter.live s.now ip + s.inFlight ip < MAX_FAILURES
  | .record ip false => s.limiter.contains ip = true ∨ s.limiter.size < MAX_TRACKED ∨
      (s.limiter.prune s.now).size < MAX_TRACKED
  | _ => True

/-- What the limiter's entry of an address and its window have to do with each other. -/
structure Bounded (s : Logins Ip) (ip : Ip) : Prop where
  room : s.limiter.live s.now ip + s.inFlight ip ≤ MAX_FAILURES
  past : ∀ count since, s.limiter.find ip = some (count, since) → since ≤ s.now
  entry : ∀ count since, s.limiter.find ip = some (count, since) →
    s.now < since + FAILURE_WINDOW → ∃ wrong, window ip s.log = some (since, wrong)
  counted : ∀ start wrong, window ip s.log = some (start, wrong) →
    s.now < start + FAILURE_WINDOW → ∃ count, s.limiter.find ip = some (count, start) ∧
      wrong ≤ count + s.uncounted ip
  few : ∀ start wrong, window ip s.log = some (start, wrong) → wrong ≤ MAX_FAILURES

variable {s t : Logins Ip} {ip : Ip}

/-! ## Attempts -/

lemma countP_erase {p : Attempt Ip → Bool} {l : List (Attempt Ip)} {a : Attempt Ip} (h : a ∈ l) :
    (l.erase a).countP p + (if p a then 1 else 0) = l.countP p := by
  rw [(List.perm_cons_erase h).countP_eq p, List.countP_cons]

lemma uncounted_le_inFlight (s : Logins Ip) (ip : Ip) : s.uncounted ip ≤ s.inFlight ip := by
  refine List.countP_mono_left fun attempt _ heq => ?_
  simp only [decide_eq_true_eq] at heq ⊢
  rw [heq]

lemma advance_eq_some {before after : Stage} (h : s.advance ip before after = some t) :
    ⟨ip, before⟩ ∈ s.attempts ∧ t.now = s.now ∧ t.limiter = s.limiter ∧ t.log = s.log ∧
      (∀ other, t.inFlight other = s.inFlight other) ∧
      ∀ other, t.uncounted other + (if (⟨ip, before⟩ : Attempt Ip) = ⟨other, .checked false⟩ then 1 else 0) =
        s.uncounted other + (if (⟨ip, after⟩ : Attempt Ip) = ⟨other, .checked false⟩ then 1 else 0) := by
  simp only [advance] at h
  split_ifs at h with hmem
  cases h
  refine ⟨hmem, rfl, rfl, rfl, fun other => ?_, fun other => ?_⟩
  · have herase := countP_erase (p := fun attempt => attempt.ip = other) hmem
    simp only [inFlight, List.countP_cons]
    rw [← herase]
  · have herase := countP_erase (p := fun attempt => attempt = ⟨other, .checked false⟩) hmem
    simp only [uncounted, List.countP_cons]
    simp only [decide_eq_true_eq] at herase ⊢
    omega

end Logins

/-! ## The limiter -/

namespace LoginLimiter

variable {limiter : LoginLimiter Ip} {now : ℕ} {ip other : Ip}

lemma live_of_find {count since : ℕ} (h : limiter.find ip = some (count, since))
    (hnow : now < since + FAILURE_WINDOW) : limiter.live now ip = count := by
  rw [live, h]
  exact if_pos hnow

lemma live_eq_zero (h : ∀ count since, limiter.find ip = some (count, since) →
    since + FAILURE_WINDOW ≤ now) : limiter.live now ip = 0 := by
  rw [live]
  cases hfind : limiter.find ip with
  | none => rfl
  | some entry =>
      have hover := h entry.1 entry.2 hfind
      exact if_neg (by omega)

lemma find_prune_eq_some_iff {count since : ℕ} :
    (limiter.prune now).find ip = some (count, since) ↔
      limiter.find ip = some (count, since) ∧ now < since + FAILURE_WINDOW := by
  rw [prune, Table.find_retain_eq_some_iff]
  refine and_congr_right fun _ => ?_
  have hwindow : 0 < FAILURE_WINDOW := by decide
  simp only [decide_eq_true_eq]
  omega

lemma find_count_of_ne (h : other ≠ ip) : (limiter.count now ip).find other = limiter.find other := by
  simp only [count]
  split_ifs <;> exact Table.find_insert_of_ne h

/-- Failures of an address count on in a window that isn't over. -/
lemma find_count_live {count since : ℕ} (h : limiter.find ip = some (count, since))
    (hnow : now < since + FAILURE_WINDOW) :
    (limiter.count now ip).find ip = some (count + 1, since) := by
  have hwindow : 0 < FAILURE_WINDOW := by decide
  simp only [LoginLimiter.count, h, Option.getD_some]
  rw [if_neg (by omega), Table.find_insert_self]

/-- Outside a window a failure starts one. -/
lemma find_count_over (h : ∀ count since, limiter.find ip = some (count, since) →
    since + FAILURE_WINDOW ≤ now) : (limiter.count now ip).find ip = some (1, now) := by
  have hwindow : 0 < FAILURE_WINDOW := by decide
  simp only [LoginLimiter.count]
  cases hfind : limiter.find ip with
  | none =>
      simp only [Option.getD_none]
      rw [if_neg (by omega), Table.find_insert_self]
  | some entry =>
      have hover := h entry.1 entry.2 hfind
      simp only [Option.getD_some]
      rw [if_pos (by omega), Table.find_insert_self]

/-- A failure is counted where there is room, after the windows that are over went. -/
lemma failed_eq (hroom : limiter.contains ip = true ∨ limiter.size < MAX_TRACKED ∨
    (limiter.prune now).size < MAX_TRACKED) :
    limiter.failed now ip = limiter.count now ip ∨
      (limiter.find ip = none ∧ limiter.failed now ip = (limiter.prune now).count now ip) := by
  simp only [failed]
  split_ifs with hfull hstill
  · obtain ⟨hsize, hcontains⟩ := hfull
    rw [hcontains] at hroom
    rcases hroom with hroom | hroom | hroom
    · cases hroom
    · omega
    · omega
  · refine .inr ⟨?_, rfl⟩
    simpa [Table.contains] using hfull.2
  · exact .inl rfl

/-- Whatever is recorded of one address, the entries of another whose window isn't over stay. -/
lemma find_failed_of_ne (limiter : LoginLimiter Ip) (now : ℕ) (h : other ≠ ip) :
    (∀ entry, (limiter.failed now ip).find other = some entry → limiter.find other = some entry) ∧
      ∀ count since, limiter.find other = some (count, since) → now < since + FAILURE_WINDOW →
        (limiter.failed now ip).find other = some (count, since) := by
  have hprune : ∀ entry, (limiter.prune now).find other = some entry →
      limiter.find other = some entry := fun entry hentry => (find_prune_eq_some_iff.mp hentry).1
  simp only [failed]
  split_ifs with hfull hstill
  · exact ⟨hprune, fun count since hfind hnow => find_prune_eq_some_iff.mpr ⟨hfind, hnow⟩⟩
  · rw [find_count_of_ne h]
    exact ⟨hprune, fun count since hfind hnow => find_prune_eq_some_iff.mpr ⟨hfind, hnow⟩⟩
  · rw [find_count_of_ne h]
    exact ⟨fun _ hfind => hfind, fun _ _ hfind _ => hfind⟩

lemma live_failed_of_ne (h : other ≠ ip) :
    (limiter.failed now ip).live now other = limiter.live now other := by
  obtain ⟨hsub, hkeep⟩ := find_failed_of_ne limiter now h
  by_cases hlive : ∃ count since, limiter.find other = some (count, since) ∧
      now < since + FAILURE_WINDOW
  · obtain ⟨count, since, hfind, hnow⟩ := hlive
    rw [live_of_find (hkeep count since hfind hnow) hnow, live_of_find hfind hnow]
  · simp only [not_exists, not_and, not_lt] at hlive
    rw [live_eq_zero hlive, live_eq_zero fun count since hfind => hlive count since (hsub _ hfind)]

/-- A failure of an address that finds room, in its window or in a new one. -/
lemma find_failed_self (hroom : limiter.contains ip = true ∨ limiter.size < MAX_TRACKED ∨
    (limiter.prune now).size < MAX_TRACKED) :
    (∃ count since, limiter.find ip = some (count, since) ∧ now < since + FAILURE_WINDOW ∧
      (limiter.failed now ip).find ip = some (count + 1, since)) ∨
    ((∀ count since, limiter.find ip = some (count, since) → since + FAILURE_WINDOW ≤ now) ∧
      (limiter.failed now ip).find ip = some (1, now)) := by
  rcases failed_eq hroom with heq | ⟨hnone, heq⟩
  · rw [heq]
    by_cases hlive : ∃ count since, limiter.find ip = some (count, since) ∧
        now < since + FAILURE_WINDOW
    · obtain ⟨count, since, hfind, hnow⟩ := hlive
      exact .inl ⟨count, since, hfind, hnow, find_count_live hfind hnow⟩
    · simp only [not_exists, not_and, not_lt] at hlive
      exact .inr ⟨hlive, find_count_over hlive⟩
  · rw [heq]
    refine .inr ⟨fun count since hfind => ?_, find_count_over fun count since hfind => ?_⟩
    · rw [hnone] at hfind
      cases hfind
    · rw [find_prune_eq_some_iff, hnone] at hfind
      cases hfind.1

end LoginLimiter

/-! ## Steps -/

namespace Logins

variable {s t : Logins Ip} {ip : Ip}

namespace Bounded

/-- A step that leaves counter and windows alone, while attempts come or go. -/
lemma same (h : Bounded s ip) (hnow : t.now = s.now) (hlimiter : t.limiter = s.limiter)
    (hlog : t.log = s.log) (hroom : s.limiter.live s.now ip + t.inFlight ip ≤ MAX_FAILURES)
    (huncounted : s.uncounted ip ≤ t.uncounted ip) : Bounded t ip := by
  refine ⟨?_, ?_, ?_, fun start wrong hwindow hlive => ?_, ?_⟩
  · rw [hlimiter, hnow]
    exact hroom
  · rw [hlimiter, hnow]
    exact h.past
  · rw [hlimiter, hnow, hlog]
    exact h.entry
  · rw [hlog] at hwindow
    rw [hnow] at hlive
    obtain ⟨count, hfind, hle⟩ := h.counted start wrong hwindow hlive
    rw [hlimiter]
    exact ⟨count, hfind, hle.trans (by omega)⟩
  · rw [hlog]
    exact h.few

/-- Time goes by: windows end. -/
lemma pass (h : Bounded s ip) (ms : ℕ) : Bounded { s with now := s.now + ms } ip := by
  have hlive : s.limiter.live (s.now + ms) ip ≤ s.limiter.live s.now ip := by
    simp only [LoginLimiter.live]
    cases s.limiter.find ip with
    | none => exact le_rfl
    | some entry =>
        dsimp only
        split_ifs <;> omega
  refine ⟨?_, fun count since hfind => ?_, fun count since hfind hnow => ?_,
    fun start wrong hwindow hnow => ?_, h.few⟩
  · exact (Nat.add_le_add_right hlive _).trans h.room
  · exact (h.past count since hfind).trans (Nat.le_add_right _ _)
  · have hnow' : s.now + ms < since + FAILURE_WINDOW := hnow
    exact h.entry count since hfind (by omega)
  · have hnow' : s.now + ms < start + FAILURE_WINDOW := hnow
    exact h.counted start wrong hwindow (by omega)

/-- A request comes through. -/
lemma request (h : Bounded s ip) {other : Ip} (hcounted : Counted s (.request other))
    (hlimited : s.limiter.limited s.now other = false) :
    Bounded { s with attempts := ⟨other, .admitted⟩ :: s.attempts } ip := by
  refine h.same rfl rfl rfl ?_ ?_
  · have hroom := h.room
    simp only [inFlight, List.countP_cons] at hroom ⊢
    by_cases heq : other = ip
    · subst heq
      rcases hcounted with hlim | hfree
      · rw [hlimited] at hlim
        cases hlim
      · simp only [inFlight] at hfree
        simp only [decide_true, if_true]
        omega
    · simpa [heq] using hroom
  · simp [uncounted]

/-- A request goes away before its password is verified. -/
lemma giveUp (h : Bounded s ip) {attempt : Attempt Ip} (hmem : attempt ∈ s.attempts)
    (hopen : attempt.stage.isOpen = true) :
    Bounded { s with attempts := s.attempts.erase attempt } ip := by
  refine h.same rfl rfl rfl ?_ ?_
  · have hroom := h.room
    have herase := countP_erase (p := fun attempt => attempt.ip = ip) hmem
    simp only [inFlight] at hroom ⊢
    omega
  · have herase := countP_erase (p := fun attempt => attempt = ⟨ip, .checked false⟩) hmem
    have hne : attempt ≠ ⟨ip, .checked false⟩ := by
      rintro rfl
      cases hopen
    simp only [uncounted]
    simp only [hne, decide_false, Bool.false_eq_true, if_false] at herase
    omega

/-- An attempt goes on to a stage before its count. -/
lemma advance (h : Bounded s ip) {other : Ip} {before after : Stage}
    (hbefore : before ≠ .checked false) (ht : s.advance other before after = some t) :
    Bounded t ip := by
  obtain ⟨-, hnow, hlimiter, hlog, hflight, huncounted⟩ := advance_eq_some ht
  refine h.same hnow hlimiter hlog ?_ ?_
  · rw [hflight]
    exact h.room
  · have hone := huncounted ip
    have hne : (⟨other, before⟩ : Attempt Ip) ≠ ⟨ip, .checked false⟩ := by
      intro heq
      exact hbefore (Attempt.mk.inj heq).2
    rw [if_neg hne] at hone
    omega

/-- A wrong password was verified: it counts in the window, and will be counted. -/
lemma wrong (h : Bounded s ip) {other : Ip} {password : String}
    (ht : s.advance other (.checking password) (.checked false) = some t) :
    Bounded { t with log := t.log ++ [.wrong other t.now] } ip := by
  have hadvanced := h.advance (by simp) ht
  obtain ⟨-, hnow, hlimiter, hlog, hflight, huncounted⟩ := advance_eq_some ht
  by_cases heq : other = ip
  · subst heq
    have hone := huncounted other
    simp only [Attempt.mk.injEq, true_and, reduceCtorEq, if_false, if_true] at hone
    -- what was in the window is counted or on its way, and one more is on its way now
    have hmore : ∀ start before, window other t.log = some (start, before) →
        t.now < start + FAILURE_WINDOW → ∃ count, t.limiter.find other = some (count, start) ∧
          before + 1 ≤ count + t.uncounted other := by
      intro start before hwindow hlive
      rw [hlog] at hwindow
      rw [hnow] at hlive
      obtain ⟨count, hfind, hle⟩ := h.counted start before hwindow hlive
      refine ⟨count, hlimiter ▸ hfind, ?_⟩
      omega
    have hwindow : ∀ start wrong,
        window other (t.log ++ [.wrong other t.now]) = some (start, wrong) →
        ∃ before, window other t.log = some (start, before) ∧
          (t.now < start + FAILURE_WINDOW ∧ wrong = before + 1 ∨
            ¬ t.now < start + FAILURE_WINDOW ∧ wrong = before) := by
      intro start wrong hsome
      simp only [window_snoc, nextWindow, if_true, Option.map_eq_some_iff] at hsome
      obtain ⟨⟨start', before⟩, hbefore, hsome⟩ := hsome
      dsimp only at hsome
      split_ifs at hsome with hlive
      · obtain ⟨rfl, rfl⟩ := Prod.mk.inj hsome
        exact ⟨before, hbefore, .inl ⟨hlive, rfl⟩⟩
      · obtain ⟨rfl, rfl⟩ := Prod.mk.inj hsome
        exact ⟨before, hbefore, .inr ⟨hlive, rfl⟩⟩
    refine ⟨hadvanced.room, hadvanced.past, fun count since hfind hlive => ?_,
      fun start wrong hsome hlive => ?_, fun start wrong hsome => ?_⟩
    · obtain ⟨wrong, hsome⟩ := hadvanced.entry count since hfind hlive
      refine ⟨wrong + 1, ?_⟩
      have hlive' : t.now < since + FAILURE_WINDOW := hlive
      simp [window_snoc, nextWindow, hsome, hlive']
    · obtain ⟨before, hbefore, ⟨-, rfl⟩ | ⟨hover, -⟩⟩ := hwindow start wrong hsome
      · exact hmore start before hbefore hlive
      · exact absurd hlive hover
    · obtain ⟨before, hbefore, ⟨hlive, rfl⟩ | ⟨-, rfl⟩⟩ := hwindow start wrong hsome
      · obtain ⟨count, hfind, hle⟩ := hmore start before hbefore hlive
        have hroom := hadvanced.room
        rw [LoginLimiter.live_of_find hfind hlive] at hroom
        have hsub := uncounted_le_inFlight t other
        omega
      · exact hadvanced.few start wrong hbefore
  · have hsame : ∀ log, window ip (log ++ [.wrong other t.now]) = window ip log := by
      intro log
      simp [window_snoc, nextWindow, heq]
    refine ⟨hadvanced.room, hadvanced.past, ?_, ?_, ?_⟩
    · rw [hsame]
      exact hadvanced.entry
    · rw [hsame]
      exact hadvanced.counted
    · rw [hsame]
      exact hadvanced.few

/-- What is recorded of one address leaves the others as they were. -/
lemma recordOther (h : Bounded s ip) {other : Ip} (hne : ip ≠ other) {stage : Stage}
    (hmem : ⟨other, stage⟩ ∈ s.attempts) {limiter : LoginLimiter Ip} {event : LoginEvent Ip}
    (hlive : limiter.live s.now ip = s.limiter.live s.now ip)
    (hsub : ∀ entry, limiter.find ip = some entry → s.limiter.find ip = some entry)
    (hkeep : ∀ count since, s.limiter.find ip = some (count, since) →
      s.now < since + FAILURE_WINDOW → limiter.find ip = some (count, since))
    (hevent : ∀ w, nextWindow ip w event = w) :
    Bounded { s with
      attempts := s.attempts.erase ⟨other, stage⟩
      limiter
      log := s.log ++ [event] } ip := by
  have hflight : (s.attempts.erase ⟨other, stage⟩).countP (fun attempt => attempt.ip = ip) =
      s.inFlight ip := by
    have herase := countP_erase (p := fun attempt => attempt.ip = ip) hmem
    simp only [Ne.symm hne, decide_false, Bool.false_eq_true, if_false] at herase
    exact herase
  have huncounted : (s.attempts.erase ⟨other, stage⟩).countP
      (fun attempt => attempt = ⟨ip, .checked false⟩) = s.uncounted ip := by
    have herase := countP_erase (p := fun attempt => attempt = ⟨ip, .checked false⟩) hmem
    simp only [Attempt.mk.injEq, Ne.symm hne, false_and, decide_false, Bool.false_eq_true,
      if_false] at herase
    exact herase
  have hwindow : window ip (s.log ++ [event]) = window ip s.log := by rw [window_snoc, hevent]
  refine ⟨?_, fun count since hfind => h.past count since (hsub _ hfind),
    fun count since hfind hnow => ?_, fun start wrong hsome hnow => ?_, ?_⟩
  · simp only [inFlight, hlive, hflight]
    exact h.room
  · rw [hwindow]
    exact h.entry count since (hsub _ hfind) hnow
  · rw [hwindow] at hsome
    obtain ⟨count, hfind, hle⟩ := h.counted start wrong hsome hnow
    refine ⟨count, hkeep count start hfind hnow, ?_⟩
    simp only [uncounted, huncounted]
    exact hle
  · rw [hwindow]
    exact h.few

/-- A failure is recorded, of an address that finds room. -/
lemma recordFailed (h : Bounded s ip) (hcounted : Counted s (.record ip false))
    (hmem : ⟨ip, .checked false⟩ ∈ s.attempts) :
    Bounded { s with
      attempts := s.attempts.erase ⟨ip, .checked false⟩
      limiter := s.limiter.failed s.now ip
      log := s.log ++ [.failed ip s.now] } ip := by
  have hwindowPos : 0 < FAILURE_WINDOW := by decide
  have hflight : (s.attempts.erase ⟨ip, .checked false⟩).countP (fun attempt => attempt.ip = ip) + 1 =
      s.inFlight ip := by
    have herase := countP_erase (p := fun attempt => attempt.ip = ip) hmem
    simpa [inFlight] using herase
  have huncounted : (s.attempts.erase ⟨ip, .checked false⟩).countP
      (fun attempt => attempt = ⟨ip, .checked false⟩) + 1 = s.uncounted ip := by
    have herase := countP_erase (p := fun attempt => attempt = ⟨ip, .checked false⟩) hmem
    simpa [uncounted] using herase
  have hroom := h.room
  rcases LoginLimiter.find_failed_self hcounted with ⟨count, since, hfind, hnow, hnew⟩ | ⟨hover, hnew⟩
  · -- the window goes on
    obtain ⟨wrong, hsome⟩ := h.entry count since hfind hnow
    have hwindow : window ip (s.log ++ [.failed ip s.now]) = some (since, wrong) := by
      simp [window_snoc, nextWindow, hsome, hnow]
    rw [LoginLimiter.live_of_find hfind hnow] at hroom
    refine ⟨?_, fun count' since' hfind' => ?_, fun count' since' hfind' _ => ?_,
      fun start wrong' hsome' _ => ?_, fun start wrong' hsome' => ?_⟩
    · simp only [inFlight]
      rw [LoginLimiter.live_of_find hnew hnow]
      omega
    · obtain ⟨-, rfl⟩ := Prod.mk.inj (Option.some.inj (hnew.symm.trans hfind'))
      exact h.past count since hfind
    · obtain ⟨-, rfl⟩ := Prod.mk.inj (Option.some.inj (hnew.symm.trans hfind'))
      exact ⟨wrong, hwindow⟩
    · obtain ⟨rfl, rfl⟩ := Prod.mk.inj (Option.some.inj (hwindow.symm.trans hsome'))
      obtain ⟨count', hfind', hle⟩ := h.counted since wrong hsome hnow
      obtain ⟨rfl, -⟩ := Prod.mk.inj (Option.some.inj (hfind.symm.trans hfind'))
      refine ⟨count + 1, hnew, ?_⟩
      simp only [uncounted]
      omega
    · obtain ⟨rfl, rfl⟩ := Prod.mk.inj (Option.some.inj (hwindow.symm.trans hsome'))
      exact h.few since wrong hsome
  · -- a new window
    have hwindow : window ip (s.log ++ [.failed ip s.now]) = some (s.now, 1) := by
      rw [window_snoc]
      simp only [nextWindow, if_true]
      cases hsome : window ip s.log with
      | none => rfl
      | some old =>
          have hold : ¬ s.now < old.1 + FAILURE_WINDOW := by
            intro hnow
            obtain ⟨count, hfind, -⟩ := h.counted old.1 old.2 hsome hnow
            have hend := hover count old.1 hfind
            omega
          exact if_neg hold
    have hlive : s.now < s.now + FAILURE_WINDOW := by omega
    refine ⟨?_, fun count' since' hfind' => ?_, fun count' since' hfind' _ => ?_,
      fun start wrong' hsome' _ => ?_, fun start wrong' hsome' => ?_⟩
    · simp only [inFlight]
      rw [LoginLimiter.live_of_find hnew hlive]
      omega
    · obtain ⟨-, rfl⟩ := Prod.mk.inj (Option.some.inj (hnew.symm.trans hfind'))
      exact le_rfl
    · obtain ⟨-, rfl⟩ := Prod.mk.inj (Option.some.inj (hnew.symm.trans hfind'))
      exact ⟨1, hwindow⟩
    · obtain ⟨rfl, rfl⟩ := Prod.mk.inj (Option.some.inj (hwindow.symm.trans hsome'))
      exact ⟨1, hnew, Nat.le_add_right _ _⟩
    · obtain ⟨rfl, rfl⟩ := Prod.mk.inj (Option.some.inj (hwindow.symm.trans hsome'))
      decide

/-- A success is recorded: the failures of the address are forgotten. -/
lemma recordSucceeded (h : Bounded s ip) (hmem : ⟨ip, .checked true⟩ ∈ s.attempts) :
    Bounded { s with
      attempts := s.attempts.erase ⟨ip, .checked true⟩
      limiter := s.limiter.succeeded ip
      log := s.log ++ [.succeeded ip] } ip := by
  have hnone : (s.limiter.succeeded ip).find ip = none := Table.find_erase_self
  have hwindow : window ip (s.log ++ [.succeeded ip]) = none := by simp [window_snoc, nextWindow]
  refine ⟨?_, fun count since hfind => ?_, fun count since hfind => ?_,
    fun start wrong hsome => ?_, fun start wrong hsome => ?_⟩
  · have herase := countP_erase (p := fun attempt => attempt.ip = ip) hmem
    have hroom := h.room
    simp only [inFlight] at hroom ⊢
    rw [LoginLimiter.live_eq_zero fun count since hfind => by rw [hnone] at hfind; cases hfind]
    omega
  · rw [hnone] at hfind
    cases hfind
  · rw [hnone] at hfind
    cases hfind
  · rw [hwindow] at hsome
    cases hsome
  · rw [hwindow] at hsome
    cases hsome

/-- Every step keeps the guesses of every address bounded, when failures are counted in time. -/
lemma step {verify : String → Bool} (h : ∀ ip, Bounded s ip) {a : Step Ip} (hcounted : Counted s a)
    (ht : s.step verify a = some t) (ip : Ip) : Bounded t ip := by
  cases a with
  | pass ms =>
      cases ht
      exact (h ip).pass ms
  | request other =>
      simp only [Logins.step] at ht
      split_ifs at ht with hlimited
      · cases ht
        exact h ip
      · cases ht
        exact (h ip).request hcounted (by simpa using hlimited)
  | readForm other password => exact (h ip).advance (by simp) ht
  | giveUp attempt =>
      simp only [Logins.step] at ht
      split_ifs at ht with hmay
      cases ht
      exact (h ip).giveUp hmay.1 hmay.2
  | acquire other password =>
      simp only [Logins.step] at ht
      split_ifs at ht
      exact (h ip).advance (by simp) ht
  | verified other password ran =>
      simp only [Logins.step, Option.map_eq_some_iff] at ht
      obtain ⟨u, hu, rfl⟩ := ht
      cases hvalid : ran && verify password with
      | true =>
          rw [hvalid] at hu
          exact (h ip).advance (by simp) hu
      | false =>
          rw [hvalid] at hu
          exact (h ip).wrong hu
  | record other valid =>
      simp only [Logins.step] at ht
      split_ifs at ht with hmem hvalid
      · obtain rfl : valid = true := hvalid
        cases ht
        by_cases heq : ip = other
        · subst heq
          exact (h ip).recordSucceeded hmem
        · have hfind : (s.limiter.succeeded other).find ip = s.limiter.find ip :=
            Table.find_erase_of_ne heq
          refine (h ip).recordOther heq hmem ?_ ?_ ?_ ?_
          · simp only [LoginLimiter.live, hfind]
          · rw [hfind]
            exact fun _ hsome => hsome
          · rw [hfind]
            exact fun _ _ hsome _ => hsome
          · intro w
            simp [nextWindow, Ne.symm heq]
      · obtain rfl : valid = false := by simpa using hvalid
        cases ht
        by_cases heq : ip = other
        · subst heq
          exact (h ip).recordFailed hcounted hmem
        · obtain ⟨hsub, hkeep⟩ := LoginLimiter.find_failed_of_ne s.limiter s.now heq
          refine (h ip).recordOther heq hmem (LoginLimiter.live_failed_of_ne heq) hsub hkeep ?_
          intro w
          simp [nextWindow, Ne.symm heq]

end Bounded

end Logins

end Teitunnel.Lens
