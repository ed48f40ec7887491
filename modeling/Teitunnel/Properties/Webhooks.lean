import Teitunnel.Inbox.Drain
import Teitunnel.Lib.Lists
import Teitunnel.Lib.Runs

/-!
# Webhooks are delivered in order

What the log of an inbox shows, whatever arrives and fails, when every round reads all that
waits: a webhook goes out only after all earlier ones were marked, and none is lost.
-/

namespace Teitunnel.Inbox

open Runs

/-- What the deliveries of an inbox are faithful to. -/
structure Faithful (log : List Event) : Prop where
  /-- A webhook is marked after the service took it. -/
  taken : ∀ pre post seq, log = pre ++ .marked seq :: post →
    ∃ request status, .sent seq request (.ok status) ∈ pre ∧ status < 500
  /-- Only marked webhooks are deleted. -/
  kept : ∀ seq, .deleted seq false ∉ log
  once : ∀ pre post seq request answer, log = pre ++ .marked seq :: post →
    .sent seq request answer ∉ post
  /-- A webhook is taken when all earlier ones are marked. -/
  inOrder : ∀ pre post seq request status, log = pre ++ .sent seq request (.ok status) :: post →
    status < 500 → ∀ earlier < seq, .arrived earlier ∈ log → .marked earlier ∈ pre
  increasing : ∀ pre mid post seq request status seq' request' status',
    log = pre ++ .sent seq request (.ok status) :: (mid ++ .sent seq' request' (.ok status') :: post) →
      status < 500 → status' < 500 → seq ≤ seq'
  counted : ∀ report unmarked, .returned report unmarked true ∈ log → report.waiting = unmarked

variable {c : Codec} {front : Front} {log : List Event} {s t : Inboxes}

lemma faithful_nil : Faithful [] where
  taken pre _ _ hlog := by cases pre <;> cases hlog
  kept _ hmem := by cases hmem
  once pre _ _ _ _ hlog := by cases pre <;> cases hlog
  inOrder pre _ _ _ _ hlog := by cases pre <;> cases hlog
  increasing pre _ _ _ _ _ _ _ _ hlog := by cases pre <;> cases hlog
  counted _ _ hmem := by cases hmem

/-- One more event. -/
lemma Faithful.snoc (h : Faithful log) {event : Event}
    (hmarked : ∀ seq, event = .marked seq →
      ∃ request status, .sent seq request (.ok status) ∈ log ∧ status < 500)
    (hdeleted : ∀ seq, event ≠ .deleted seq false)
    (hsent : ∀ seq request answer, event = .sent seq request answer →
      .arrived seq ∈ log ∧ .marked seq ∉ log ∧
        ∀ earlier < seq, .arrived earlier ∈ log → .marked earlier ∈ log)
    (harrived : ∀ seq, event = .arrived seq →
      ∀ seq' request answer, .sent seq' request answer ∈ log → seq' < seq)
    (hreturned : ∀ report unmarked, event = .returned report unmarked true →
      report.waiting = unmarked) : Faithful (log ++ [event]) where
  taken pre post seq hlog := by
    rcases List.split_snoc hlog with ⟨-, hevent, rfl⟩ | ⟨post', rfl, hsplit⟩
    · exact hmarked seq hevent
    · exact h.taken pre post' seq hsplit
  kept seq hmem := by
    rcases List.mem_append.mp hmem with hlog | hevent
    · exact h.kept seq hlog
    · exact hdeleted seq (List.mem_singleton.mp hevent).symm
  once pre post seq request answer hlog hmem := by
    rcases List.split_snoc hlog with ⟨rfl, -, -⟩ | ⟨post', rfl, hsplit⟩
    · cases hmem
    · rcases List.mem_append.mp hmem with hpost | hevent
      · exact h.once pre post' seq request answer hsplit hpost
      · have hnot := (hsent seq request answer (List.mem_singleton.mp hevent).symm).2.1
        exact hnot (by rw [hsplit]; simp)
  inOrder pre post seq request status hlog hstatus earlier hearlier hmem := by
    rcases List.split_snoc hlog with ⟨-, hevent, rfl⟩ | ⟨post', rfl, hsplit⟩
    · rcases List.mem_append.mp hmem with hold | hnew
      · exact (hsent seq request _ hevent).2.2 earlier hearlier hold
      · rw [hevent] at hnew
        cases List.mem_singleton.mp hnew
    · rcases List.mem_append.mp hmem with hold | hnew
      · exact h.inOrder pre post' seq request status hsplit hstatus earlier hearlier hold
      · have hlt := harrived earlier (List.mem_singleton.mp hnew).symm seq request (.ok status)
          (by rw [hsplit]; simp)
        omega
  increasing pre mid post seq request status seq' request' status' hlog hstatus hstatus' := by
    have hlog' : log ++ [event] = (pre ++ .sent seq request (.ok status) :: mid) ++
        .sent seq' request' (.ok status') :: post := by simpa using hlog
    rcases List.split_snoc hlog' with ⟨-, hevent, hsplit⟩ | ⟨post', -, hsplit⟩
    · -- had the new one been earlier, it was marked before the other one was taken
      obtain ⟨harrived', hnot, -⟩ := hsent seq' request' _ hevent
      by_contra hlt
      have hbefore := h.inOrder pre mid seq request status hsplit hstatus seq' (by omega) harrived'
      exact hnot (by rw [hsplit]; exact List.mem_append_left _ hbefore)
    · exact h.increasing pre mid post' seq request status seq' request' status' (by simpa using hsplit)
        hstatus hstatus'
  counted report unmarked hmem := by
    rcases List.mem_append.mp hmem with hlog | hevent
    · exact h.counted report unmarked hlog
    · exact hreturned report unmarked (List.mem_singleton.mp hevent).symm

/-- Deletions of marked webhooks. -/
lemma Faithful.deleted (h : Faithful log) {rows : List Row}
    (hrows : ∀ row ∈ rows, row.deliveredAt.isSome) :
    Faithful (log ++ rows.map fun row => .deleted row.seq row.deliveredAt.isSome) := by
  induction rows using List.reverseRecOn with
  | nil => simpa using h
  | append_singleton rows row ih =>
      have hold := ih fun other hother => hrows other (List.mem_append_left _ hother)
      have hrow : row.deliveredAt.isSome := hrows row (by simp)
      rw [List.map_append, ← List.append_assoc]
      refine hold.snoc ?_ ?_ ?_ ?_ ?_
      · exact fun seq hevent => by cases hevent
      · intro seq hevent
        rw [Event.deleted.injEq, hrow] at hevent
        exact absurd hevent.2 (by simp)
      · exact fun _ _ _ hevent => by cases hevent
      · exact fun _ hevent => by cases hevent
      · exact fun _ _ hevent => by cases hevent

namespace Inboxes

/-- Everything that waits is read, and nothing that waits is dropped: a round reads webhooks that
can be read, a batch of them at most, and a webhook that arrives finds none older than the
retention. -/
def Fits (c : Codec) (front : Front) (s : Inboxes) : Step → Prop
  | .arrive inbox retentionDays .. => ∀ row ∈ s.rows, row.waits front.script →
      row.isOld inbox (s.now - retentionDays * DAY_MS) = false
  | .proceed _ => ∀ round, s.round = some round → round.stage = .reading →
      (s.waiting front.script).length ≤ BATCH ∧
        ∀ row ∈ s.waiting front.script, (pending c row).isSome
  | _ => True

/-- The webhooks that wait. -/
def waitingSeqs (front : Front) (s : Inboxes) : List ℕ :=
  (s.rows.filter (Row.waits front.script)).map (·.seq)

/-- What a round has left to deliver is what waits, before what arrived since. -/
def Left (front : Front) (s : Inboxes) (round : Round) (left : List Pending) : Prop :=
  (∃ later, s.waitingSeqs front = left.map (·.seq) ++ later ∧ (round.quiet → later = [])) ∧
    round.total = round.report.delivered + left.length

/-- What is known of a round. -/
def Known (front : Front) (s : Inboxes) (round : Round) : Stage → Prop
  | .reading => round.report.delivered = 0
  | .delivering left => s.Left front round left
  | .marking webhook status left => s.Left front round (webhook :: left) ∧ status < 500 ∧
      ∃ request, .sent webhook.seq request (.ok status) ∈ s.log
  | .noting webhook _ => ∃ left, s.Left front round (webhook :: left)
  | .cleaning => round.quiet → round.report.waiting = (s.waitingSeqs front).length

/-- What holds of the table and the log. -/
structure Orderly (front : Front) (s : Inboxes) : Prop where
  faithful : Faithful s.log
  sorted : s.rows.Pairwise fun row other => row.seq < other.seq
  below : ∀ row ∈ s.rows, row.seq < s.next
  arrivedBelow : ∀ seq, .arrived seq ∈ s.log → seq < s.next
  here : ∀ seq, .arrived seq ∈ s.log → .marked seq ∈ s.log ∨ seq ∈ s.waitingSeqs front
  arrived : ∀ row ∈ s.rows, row.inbox = front.script → .arrived row.seq ∈ s.log
  marked : ∀ row ∈ s.rows, row.inbox = front.script → row.deliveredAt.isSome →
    .marked row.seq ∈ s.log
  unmarked : ∀ seq ∈ s.waitingSeqs front, .marked seq ∉ s.log
  sent : ∀ seq request answer, .sent seq request answer ∈ s.log → .arrived seq ∈ s.log

/-- What holds of the table, the log and the round under way. -/
structure Sound (front : Front) (s : Inboxes) : Prop extends Orderly front s where
  round : ∀ round, s.round = some round → s.Known front round round.stage

/-! ## The webhooks that wait -/

lemma mem_waitingSeqs {seq : ℕ} : seq ∈ s.waitingSeqs front ↔
    ∃ row ∈ s.rows, row.waits front.script = true ∧ row.seq = seq := by
  simp [waitingSeqs, and_assoc]

lemma waits_iff {script : String} {row : Row} :
    row.waits script = true ↔ row.inbox = script ∧ row.deliveredAt = none := by
  simp [Row.waits]

lemma sorted_waitingSeqs (h : Orderly front s) : (s.waitingSeqs front).Pairwise (· < ·) := by
  rw [waitingSeqs, List.pairwise_map]
  exact h.sorted.sublist List.filter_sublist

/-- What waits is read in order. -/
lemma waiting_eq (h : Orderly front s) :
    s.waiting front.script = s.rows.filter (Row.waits front.script) := by
  refine List.Pairwise.insertionSort_eq ?_
  exact (h.sorted.sublist List.filter_sublist).imp fun hlt => hlt.le

/-- What is read of webhooks that can all be read. -/
lemma map_seq_pending {rows : List Row} (h : ∀ row ∈ rows, (pending c row).isSome) :
    (rows.filterMap (pending c)).map (·.seq) = rows.map (·.seq) := by
  induction rows with
  | nil => rfl
  | cons row rows ih =>
      obtain ⟨webhook, hwebhook⟩ := Option.isSome_iff_exists.mp (h row List.mem_cons_self)
      have hseq : webhook.seq = row.seq := by
        rw [pending] at hwebhook
        simp only [Option.bind_eq_bind, Option.bind_eq_some_iff, Option.pure_def,
          Option.some.injEq] at hwebhook
        obtain ⟨_, -, _, -, rfl⟩ := hwebhook
        rfl
      rw [List.filterMap_cons_some hwebhook, List.map_cons, List.map_cons, hseq,
        ih fun other hother => h other (List.mem_cons_of_mem _ hother)]

/-- A webhook that is marked waits no longer. -/
lemma waitingSeqs_update_marked {seq status : ℕ} {now : Timestamp} :
    (s.update seq fun row => { row with
      deliveredAt := some now, status := some status, attempts := row.attempts + 1,
      error := none }).waitingSeqs front = (s.waitingSeqs front).filter (· ≠ seq) := by
  rw [waitingSeqs, waitingSeqs, update]
  dsimp only
  induction s.rows with
  | nil => rfl
  | cons row rows ih =>
      rw [List.map_cons]
      by_cases hseq : row.seq = seq
      · have hgone : Row.waits front.script { row with
            deliveredAt := some now, status := some status, attempts := row.attempts + 1,
            error := none } = false := by simp [Row.waits]
        rw [if_pos hseq, List.filter_cons_of_neg (by rw [hgone]; simp), ih]
        cases hwaits : row.waits front.script with
        | true =>
            rw [List.filter_cons_of_pos hwaits, List.map_cons, List.filter_cons_of_neg (by simpa)]
        | false => rw [List.filter_cons_of_neg (by simp [hwaits])]
      · rw [if_neg hseq]
        cases hwaits : row.waits front.script with
        | true =>
            rw [List.filter_cons_of_pos hwaits, List.filter_cons_of_pos hwaits, List.map_cons,
              List.map_cons, ih, List.filter_cons_of_pos (by simpa)]
        | false =>
            rw [List.filter_cons_of_neg (by simp [hwaits]),
              List.filter_cons_of_neg (by simp [hwaits]), ih]

/-- Changing what a row says of its attempts changes nothing of what waits. -/
lemma waitingSeqs_update_noted {seq : ℕ} {error : Option String} :
    (s.update seq fun row => { row with attempts := row.attempts + 1, error }).waitingSeqs front =
      s.waitingSeqs front := by
  rw [waitingSeqs, waitingSeqs, update, List.filter_map, List.map_map]
  have hwaits : (Row.waits front.script ∘ fun row : Row =>
      if row.seq = seq then { row with attempts := row.attempts + 1, error } else row) =
        Row.waits front.script := by
    funext row
    simp only [Function.comp_apply]
    split_ifs <;> rfl
  rw [hwaits]
  refine List.map_congr_left fun row _ => ?_
  simp only [Function.comp_apply]
  split_ifs <;> rfl

/-- Dropping rows that don't wait. -/
lemma waitingSeqs_filter {rows : List Row} {p : Row → Bool}
    (h : ∀ row ∈ rows, row.waits front.script = true → p row = true) :
    ((rows.filter p).filter (Row.waits front.script)).map (·.seq) =
      (rows.filter (Row.waits front.script)).map (·.seq) := by
  rw [List.filter_filter]
  congr 1
  refine List.filter_congr fun row hrow => ?_
  cases hwaits : row.waits front.script with
  | true => simp [h row hrow hwaits]
  | false => rfl

/-! ## The steps of a round -/

/-- What is known of a round stays known as the log grows. -/
lemma Known.mono {round : Round} {stage : Stage} {log : List Event}
    (h : s.Known front round stage) (hlog : ∀ event ∈ s.log, event ∈ log) :
    Known front { s with log := log } round stage := by
  cases stage with
  | marking webhook status left =>
      obtain ⟨hleft, hstatus, request, hsent⟩ := h
      exact ⟨hleft, hstatus, request, hlog _ hsent⟩
  | _ => exact h

/-- An event that is no arrival and no mark. -/
lemma Orderly.record (h : Orderly front s) (event : Event)
    (hfaithful : Faithful (s.log ++ [event]))
    (harrived : ∀ seq, event ≠ .arrived seq) (hmarked : ∀ seq, event ≠ .marked seq)
    (hsent : ∀ seq request answer, event = .sent seq request answer → .arrived seq ∈ s.log) :
    Orderly front { s with log := s.log ++ [event] } where
  faithful := hfaithful
  sorted := h.sorted
  below := h.below
  arrivedBelow seq hmem := by
    rcases List.mem_append.mp hmem with hold | hnew
    · exact h.arrivedBelow seq hold
    · exact absurd (List.mem_singleton.mp hnew).symm (harrived seq)
  here seq hmem := by
    rcases List.mem_append.mp hmem with hold | hnew
    · exact (h.here seq hold).imp_left fun hmarked => List.mem_append_left _ hmarked
    · exact absurd (List.mem_singleton.mp hnew).symm (harrived seq)
  arrived row hrow hinbox := List.mem_append_left _ (h.arrived row hrow hinbox)
  marked row hrow hinbox hdelivered := List.mem_append_left _ (h.marked row hrow hinbox hdelivered)
  unmarked seq hwaits hmem := by
    rcases List.mem_append.mp hmem with hold | hnew
    · exact h.unmarked seq hwaits hold
    · exact absurd (List.mem_singleton.mp hnew).symm (hmarked seq)
  sent seq request answer hmem := by
    rcases List.mem_append.mp hmem with hold | hnew
    · exact List.mem_append_left _ (h.sent seq request answer hold)
    · exact List.mem_append_left _ (hsent seq request answer (List.mem_singleton.mp hnew).symm)

lemma Orderly.setRound (h : Orderly front s) {round : Round}
    (hknown : s.Known front round round.stage) : Sound front (s.setRound round) :=
  { h with
    round := by
      intro other hother
      obtain rfl : round = other := Option.some.inj hother
      cases hstage : round.stage with
      | _ => rw [hstage] at hknown; exact hknown }

/-- The earliest webhook that waits is sent after all before it were marked. -/
lemma earlier_marked (h : Orderly front s) {seq : ℕ} {rest : List ℕ}
    (hwaits : s.waitingSeqs front = seq :: rest) {earlier : ℕ} (hlt : earlier < seq)
    (harrived : .arrived earlier ∈ s.log) : .marked earlier ∈ s.log := by
  refine (h.here earlier harrived).resolve_right fun hmem => ?_
  have hsorted := sorted_waitingSeqs h
  rw [hwaits] at hsorted hmem
  rcases List.mem_cons.mp hmem with rfl | hrest
  · exact lt_irrefl _ hlt
  · exact absurd ((List.pairwise_cons.mp hsorted).1 earlier hrest) (by omega)

lemma Orderly.reading (h : Orderly front s) {round : Round} (hround : s.round = some round)
    (hstage : round.stage = .reading) (hknown : s.Known front round .reading)
    (answer : Except String ℕ) (hfits : Fits c front s (.proceed answer)) :
    Sound front (s.proceed c front round answer .reading) := by
  obtain ⟨hbatch, hreadable⟩ := hfits round hround hstage
  rw [proceed]
  refine h.setRound ⟨⟨[], ?_, fun _ => rfl⟩, ?_⟩
  · rw [List.take_of_length_le hbatch, map_seq_pending hreadable, waiting_eq h, List.append_nil]
    rfl
  · have hzero : round.report.delivered = 0 := hknown
    show _ = round.report.delivered + _
    rw [hzero, Nat.zero_add]

/-- A round that stops counts what waits. -/
lemma Orderly.done (h : Orderly front s) {round : Round} {left : List Pending}
    (hleft : s.Left front round left) : Sound front (s.setRound round.done) := by
  obtain ⟨⟨later, hwaits, hquiet⟩, htotal⟩ := hleft
  refine h.setRound fun hq => ?_
  show round.total - round.report.delivered = (s.waitingSeqs front).length
  rw [hwaits, hquiet hq, List.append_nil, List.length_map, htotal, Nat.add_sub_cancel_left]

lemma Orderly.delivering (h : Orderly front s) {round : Round} {webhook : Pending}
    {left : List Pending} (hleft : s.Left front round (webhook :: left))
    (answer : Except String ℕ) :
    Sound front (s.proceed c front round answer (.delivering (webhook :: left))) := by
  obtain ⟨⟨later, hwaits, hquiet⟩, htotal⟩ := id hleft
  rw [List.map_cons, List.cons_append] at hwaits
  have hmem : webhook.seq ∈ s.waitingSeqs front := by
    rw [hwaits]
    exact List.mem_cons_self
  obtain ⟨row, hrow, hrowWaits, hseq⟩ := mem_waitingSeqs.mp hmem
  have harrived : .arrived webhook.seq ∈ s.log :=
    hseq ▸ h.arrived row hrow (waits_iff.mp hrowWaits).1
  let request := deliver round.service front.hostname webhook
  have hsent : Orderly front { s with log := s.log ++ [.sent webhook.seq request answer] } := by
    refine h.record _ ?_ (by simp) (by simp) ?_
    · refine h.faithful.snoc (by simp) (by simp) ?_ (by simp) (by simp)
      intro seq request' answer' hevent
      rw [Event.sent.injEq] at hevent
      obtain ⟨rfl, -, -⟩ := hevent
      exact ⟨harrived, h.unmarked _ hmem, fun earlier hlt => earlier_marked h hwaits hlt⟩
    · intro seq request' answer' hevent
      rw [Event.sent.injEq] at hevent
      exact hevent.1 ▸ harrived
  cases answer with
  | error error => exact hsent.setRound ⟨left, hleft⟩
  | ok status =>
      rw [proceed]
      split_ifs with hstatus
      · exact hsent.setRound ⟨hleft, hstatus, request, by simp [request]⟩
      · exact hsent.setRound ⟨left, hleft⟩

/-- Changing rows other than by their place and their inbox. -/
lemma update_pairwise {seq : ℕ} {f : Row → Row} (hf : ∀ row, (f row).seq = row.seq)
    (h : s.rows.Pairwise fun row other => row.seq < other.seq) :
    (s.update seq f).rows.Pairwise fun row other => row.seq < other.seq := by
  have hkeep : ∀ row : Row, (if row.seq = seq then f row else row).seq = row.seq := by
    intro row
    split_ifs
    · exact hf row
    · rfl
  refine List.pairwise_map.mpr (h.imp ?_)
  intro row other hlt
  rw [hkeep, hkeep]
  exact hlt

lemma mem_update {seq : ℕ} {f : Row → Row} {row : Row} (h : row ∈ (s.update seq f).rows) :
    ∃ old ∈ s.rows, (old.seq = seq ∧ row = f old) ∨ row = old := by
  obtain ⟨old, hold, rfl⟩ := List.mem_map.mp h
  by_cases hseq : old.seq = seq
  · exact ⟨old, hold, .inl ⟨hseq, if_pos hseq⟩⟩
  · exact ⟨old, hold, .inr (if_neg hseq)⟩

lemma Orderly.marking (h : Orderly front s) {round : Round} {webhook : Pending} {status : ℕ}
    {left : List Pending} (hknown : s.Known front round (.marking webhook status left))
    (answer : Except String ℕ) :
    Sound front (s.proceed c front round answer (.marking webhook status left)) := by
  obtain ⟨⟨⟨later, hwaits, hquiet⟩, htotal⟩, hstatus, request, hsent⟩ := hknown
  have hsorted := sorted_waitingSeqs h
  rw [List.map_cons, List.cons_append] at hwaits
  rw [hwaits, List.pairwise_cons] at hsorted
  have hmem : webhook.seq ∈ s.waitingSeqs front := by
    rw [hwaits]
    exact List.mem_cons_self
  rw [proceed]
  set f : Row → Row := fun row => { row with
    deliveredAt := some s.now, status := some status, attempts := row.attempts + 1,
    error := none } with hf
  -- what waited before the webhook was marked, but for the webhook
  have hafter : (s.update webhook.seq f).waitingSeqs front = left.map (·.seq) ++ later := by
    rw [waitingSeqs_update_marked, hwaits, List.filter_cons_of_neg (by simp)]
    refine List.filter_eq_self.mpr fun seq hseq => ?_
    simpa using (hsorted.1 seq hseq).ne'
  have hmarked : Orderly front { s.update webhook.seq f with
      log := s.log ++ [.marked webhook.seq] } := by
    refine ⟨?_, update_pairwise (f := f) (fun _ => rfl) h.sorted, ?_, ?_, ?_, ?_, ?_, ?_, ?_⟩
    · exact h.faithful.snoc (fun seq hevent => by
        rw [Event.marked.injEq] at hevent
        exact hevent ▸ ⟨request, status, hsent, hstatus⟩) (by simp) (by simp) (by simp) (by simp)
    · intro row hrow
      obtain ⟨old, hold, ⟨-, rfl⟩ | rfl⟩ := mem_update hrow
      · exact h.below old hold
      · exact h.below row hold
    · intro seq hlog
      rcases List.mem_append.mp hlog with hold | hnew
      · exact h.arrivedBelow seq hold
      · cases List.mem_singleton.mp hnew
    · intro seq hlog
      rcases List.mem_append.mp hlog with hold | hnew
      · rcases h.here seq hold with hmarked | hwaiting
        · exact .inl (List.mem_append_left _ hmarked)
        · by_cases hseq : seq = webhook.seq
          · exact .inl (List.mem_append_right _ (by simp [hseq]))
          · right
            show seq ∈ (s.update webhook.seq f).waitingSeqs front
            rw [waitingSeqs_update_marked]
            exact List.mem_filter.mpr ⟨hwaiting, by simpa using hseq⟩
      · cases List.mem_singleton.mp hnew
    · intro row hrow hinbox
      obtain ⟨old, hold, ⟨-, rfl⟩ | rfl⟩ := mem_update hrow
      · exact List.mem_append_left _ (h.arrived old hold hinbox)
      · exact List.mem_append_left _ (h.arrived row hold hinbox)
    · intro row hrow hinbox hdelivered
      obtain ⟨old, hold, ⟨hseq, rfl⟩ | rfl⟩ := mem_update hrow
      · exact List.mem_append_right _ (by simp [hf, hseq])
      · exact List.mem_append_left _ (h.marked row hold hinbox hdelivered)
    · intro seq hwaiting hlog
      have hwaiting' : seq ∈ (s.update webhook.seq f).waitingSeqs front := hwaiting
      rw [waitingSeqs_update_marked] at hwaiting'
      obtain ⟨hold, hne⟩ := List.mem_filter.mp hwaiting'
      rcases List.mem_append.mp hlog with hmarked | hnew
      · exact h.unmarked seq hold hmarked
      · rw [List.mem_singleton, Event.marked.injEq] at hnew
        simp [hnew] at hne
    · intro seq request' answer' hlog
      rcases List.mem_append.mp hlog with hold | hnew
      · exact List.mem_append_left _ (h.sent seq request' answer' hold)
      · cases List.mem_singleton.mp hnew
  refine hmarked.setRound ⟨⟨later, hafter, hquiet⟩, ?_⟩
  have htotal' : round.total = round.report.delivered + (left.length + 1) := htotal
  show round.total = round.report.delivered + 1 + left.length
  omega

lemma Orderly.noting (h : Orderly front s) {round : Round} {webhook : Pending} {error : String}
    (hknown : s.Known front round (.noting webhook error)) (answer : Except String ℕ) :
    Sound front (s.proceed c front round answer (.noting webhook error)) := by
  obtain ⟨left, ⟨later, hwaits, hquiet⟩, htotal⟩ := hknown
  rw [proceed]
  set f : Row → Row := fun row => { row with
    attempts := row.attempts + 1, error := some (String.ofList (error.toList.take 300)) } with hf
  have hsame : (s.update webhook.seq f).waitingSeqs front = s.waitingSeqs front :=
    waitingSeqs_update_noted
  have hnoted : Orderly front (s.update webhook.seq f) := by
    refine ⟨h.faithful, update_pairwise (fun _ => rfl) h.sorted, ?_, h.arrivedBelow, ?_, ?_, ?_, ?_,
      h.sent⟩
    · intro row hrow
      obtain ⟨old, hold, ⟨-, rfl⟩ | rfl⟩ := mem_update hrow
      · exact h.below old hold
      · exact h.below row hold
    · intro seq hlog
      rw [hsame]
      exact h.here seq hlog
    · intro row hrow hinbox
      obtain ⟨old, hold, ⟨-, rfl⟩ | rfl⟩ := mem_update hrow
      · exact h.arrived old hold hinbox
      · exact h.arrived row hold hinbox
    · intro row hrow hinbox hdelivered
      obtain ⟨old, hold, ⟨-, rfl⟩ | rfl⟩ := mem_update hrow
      · exact h.marked old hold hinbox hdelivered
      · exact h.marked row hold hinbox hdelivered
    · intro seq hwaiting
      rw [hsame] at hwaiting
      exact h.unmarked seq hwaiting
  have hleft : (s.update webhook.seq f).Left front
      { round with report := { round.report with error := some error } } (webhook :: left) := by
    refine ⟨⟨later, ?_, hquiet⟩, htotal⟩
    rw [hsame, hwaits]
  exact hnoted.done hleft

/-- Dropping rows that don't wait, with their deletions in the log. -/
lemma Orderly.drop (h : Orderly front s) (isGone : Row → Bool) (gone : List Row)
    (hgone : ∀ row ∈ gone, row.deliveredAt.isSome)
    (hkept : ∀ row ∈ s.rows, row.waits front.script = true → isGone row = false) :
    Orderly front { s with
      rows := s.rows.filter fun row => !isGone row
      log := s.log ++ gone.map fun row => .deleted row.seq row.deliveredAt.isSome } := by
  have hdeleted : ∀ event ∈ gone.map (fun row => Event.deleted row.seq row.deliveredAt.isSome),
      ∃ seq delivered, event = .deleted seq delivered := by
    intro event hmem
    obtain ⟨row, -, rfl⟩ := List.mem_map.mp hmem
    exact ⟨_, _, rfl⟩
  have hold : ∀ event, (∀ seq delivered, event ≠ .deleted seq delivered) →
      event ∈ s.log ++ gone.map (fun row => Event.deleted row.seq row.deliveredAt.isSome) →
        event ∈ s.log := by
    intro event hevent hmem
    rcases List.mem_append.mp hmem with hlog | hnew
    · exact hlog
    · obtain ⟨seq, delivered, rfl⟩ := hdeleted event hnew
      exact absurd rfl (hevent seq delivered)
  have hwaits : Inboxes.waitingSeqs front { s with
      rows := s.rows.filter fun row => !isGone row
      log := s.log ++ gone.map fun row => .deleted row.seq row.deliveredAt.isSome } =
        s.waitingSeqs front :=
    waitingSeqs_filter fun row hrow hw => by rw [hkept row hrow hw]; rfl
  refine ⟨h.faithful.deleted hgone, h.sorted.sublist List.filter_sublist, ?_, ?_, ?_, ?_, ?_, ?_, ?_⟩
  · exact fun row hrow => h.below row (List.mem_of_mem_filter hrow)
  · exact fun seq hlog => h.arrivedBelow seq (hold _ (by simp) hlog)
  · intro seq hlog
    rw [hwaits]
    exact (h.here seq (hold _ (by simp) hlog)).imp_left fun hm => List.mem_append_left _ hm
  · exact fun row hrow hinbox =>
      List.mem_append_left _ (h.arrived row (List.mem_of_mem_filter hrow) hinbox)
  · exact fun row hrow hinbox hdelivered =>
      List.mem_append_left _ (h.marked row (List.mem_of_mem_filter hrow) hinbox hdelivered)
  · intro seq hwaiting hlog
    rw [hwaits] at hwaiting
    exact h.unmarked seq hwaiting (hold _ (by simp) hlog)
  · exact fun seq request answer hlog =>
      List.mem_append_left _ (h.sent seq request answer (hold _ (by simp) hlog))

lemma Orderly.cleaning (h : Orderly front s) {round : Round}
    (hknown : s.Known front round .cleaning) (answer : Except String ℕ) :
    Sound front (s.proceed c front round answer .cleaning) := by
  have hdrop := h.drop (Row.isOver front.script (s.now - front.retentionDays * DAY_MS))
    (s.rows.filter (Row.isOver front.script (s.now - front.retentionDays * DAY_MS)))
    (by
      intro row hrow
      have hover := (List.mem_filter.mp hrow).2
      simp only [Row.isOver, Bool.and_eq_true] at hover
      cases hdelivered : row.deliveredAt with
      | none => simp [hdelivered] at hover
      | some delivered => rfl)
    (by
      intro row _ hwaits
      simp [Row.isOver, (waits_iff.mp hwaits).2])
  have hrecord := hdrop.record (.returned round.report
    (s.rows.filter (Row.waits front.script)).length round.quiet)
    (hdrop.faithful.snoc (by simp) (by simp) (by simp) (by simp) (by
      intro report unmarked hevent
      rw [Event.returned.injEq] at hevent
      obtain ⟨rfl, rfl, hquiet⟩ := hevent
      rw [hknown hquiet, waitingSeqs, List.length_map])) (by simp) (by simp) (by simp)
  exact { hrecord with round := fun _ hround => by cases hround }

/-! ## Arrivals -/

lemma Orderly.arriveAt (h : Orderly front s) (row : Row) (hseq : row.seq = s.next)
    (hinbox : row.inbox = front.script) (hwaits : row.deliveredAt = none) :
    Orderly front { s with
      rows := s.rows ++ [row], next := s.next + 1, log := s.log ++ [.arrived s.next] } := by
  have hnew : row.waits front.script = true := waits_iff.mpr ⟨hinbox, hwaits⟩
  have hwaiting : Inboxes.waitingSeqs front { s with
      rows := s.rows ++ [row], next := s.next + 1, log := s.log ++ [.arrived s.next] } =
        s.waitingSeqs front ++ [s.next] := by
    rw [waitingSeqs, waitingSeqs, List.filter_append, List.map_append,
      List.filter_cons_of_pos hnew, List.filter_nil, List.map_singleton, hseq]
  refine ⟨?_, ?_, ?_, ?_, ?_, ?_, ?_, ?_, ?_⟩
  · refine h.faithful.snoc (by simp) (by simp) (by simp) ?_ (by simp)
    intro seq hevent seq' request answer hsent
    rw [Event.arrived.injEq] at hevent
    exact hevent ▸ h.arrivedBelow seq' (h.sent seq' request answer hsent)
  · refine List.pairwise_append.mpr ⟨h.sorted, List.pairwise_singleton _ _, ?_⟩
    intro old hold new hmem
    rw [List.mem_singleton.mp hmem, hseq]
    exact h.below old hold
  · intro other hother
    rcases List.mem_append.mp hother with hold | hmem
    · exact (h.below other hold).trans (Nat.lt_succ_self _)
    · rw [List.mem_singleton.mp hmem, hseq]
      exact Nat.lt_succ_self _
  · intro seq hlog
    rcases List.mem_append.mp hlog with hold | hmem
    · exact (h.arrivedBelow seq hold).trans (Nat.lt_succ_self _)
    · rw [List.mem_singleton, Event.arrived.injEq] at hmem
      rw [hmem]
      exact Nat.lt_succ_self _
  · intro seq hlog
    rw [hwaiting]
    rcases List.mem_append.mp hlog with hold | hmem
    · exact (h.here seq hold).imp (List.mem_append_left _) (List.mem_append_left _)
    · rw [List.mem_singleton, Event.arrived.injEq] at hmem
      exact .inr (List.mem_append_right _ (by simp [hmem]))
  · intro other hother hin
    rcases List.mem_append.mp hother with hold | hmem
    · exact List.mem_append_left _ (h.arrived other hold hin)
    · rw [List.mem_singleton.mp hmem, hseq]
      exact List.mem_append_right _ (by simp)
  · intro other hother hin hdelivered
    rcases List.mem_append.mp hother with hold | hmem
    · exact List.mem_append_left _ (h.marked other hold hin hdelivered)
    · rw [List.mem_singleton.mp hmem, hwaits] at hdelivered
      cases hdelivered
  · intro seq hmem hlog
    rw [hwaiting] at hmem
    have hmarked : .marked seq ∈ s.log := by
      rcases List.mem_append.mp hlog with hold | hnew
      · exact hold
      · cases List.mem_singleton.mp hnew
    rcases List.mem_append.mp hmem with hold | hlast
    · exact h.unmarked seq hold hmarked
    · -- the new webhook wasn't taken before it came
      obtain ⟨pre, post, hsplit⟩ := List.append_of_mem hmarked
      obtain ⟨request, status, hsent, -⟩ := h.faithful.taken pre post seq hsplit
      have hbelow := h.arrivedBelow seq (h.sent seq request (.ok status)
        (by rw [hsplit]; exact List.mem_append_left _ hsent))
      rw [List.mem_singleton.mp hlast] at hbelow
      exact lt_irrefl _ hbelow
  · intro seq request answer hlog
    rcases List.mem_append.mp hlog with hold | hmem
    · exact List.mem_append_left _ (h.sent seq request answer hold)
    · cases List.mem_singleton.mp hmem

/-- A webhook of another inbox. -/
lemma Orderly.arriveElsewhere (h : Orderly front s) (row : Row) (hseq : row.seq = s.next)
    (hinbox : row.inbox ≠ front.script) :
    Orderly front { s with rows := s.rows ++ [row], next := s.next + 1 } := by
  have hwaiting : Inboxes.waitingSeqs front { s with rows := s.rows ++ [row], next := s.next + 1 } =
      s.waitingSeqs front := by
    rw [waitingSeqs, waitingSeqs, List.filter_append,
      List.filter_cons_of_neg (by simp [Row.waits, hinbox]), List.filter_nil, List.append_nil]
  refine ⟨h.faithful, ?_, ?_, ?_, ?_, ?_, ?_, ?_, h.sent⟩
  · refine List.pairwise_append.mpr ⟨h.sorted, List.pairwise_singleton _ _, ?_⟩
    intro old hold new hmem
    rw [List.mem_singleton.mp hmem, hseq]
    exact h.below old hold
  · intro other hother
    rcases List.mem_append.mp hother with hold | hmem
    · exact (h.below other hold).trans (Nat.lt_succ_self _)
    · rw [List.mem_singleton.mp hmem, hseq]
      exact Nat.lt_succ_self _
  · exact fun seq hlog => (h.arrivedBelow seq hlog).trans (Nat.lt_succ_self _)
  · intro seq hlog
    rw [hwaiting]
    exact h.here seq hlog
  · intro other hother hin
    rcases List.mem_append.mp hother with hold | hmem
    · exact h.arrived other hold hin
    · exact absurd (List.mem_singleton.mp hmem ▸ hin) hinbox
  · intro other hother hin
    rcases List.mem_append.mp hother with hold | hmem
    · exact h.marked other hold hin
    · exact absurd (List.mem_singleton.mp hmem ▸ hin) hinbox
  · intro seq hmem
    rw [hwaiting] at hmem
    exact h.unmarked seq hmem

/-- What a round has left comes before what arrives. -/
lemma Known.arrived {round : Round} {stage : Stage} (h : s.Known front round stage)
    (hlog : ∀ event ∈ s.log, event ∈ t.log)
    (hwaits : ∃ new, t.waitingSeqs front = s.waitingSeqs front ++ new) :
    t.Known front { round with quiet := false } stage := by
  obtain ⟨new, hnew⟩ := hwaits
  have hleft : ∀ left, s.Left front round left → t.Left front { round with quiet := false } left := by
    rintro left ⟨⟨later, hlater, -⟩, htotal⟩
    exact ⟨⟨later ++ new, by rw [hnew, hlater, List.append_assoc], by simp⟩, htotal⟩
  cases stage with
  | reading => exact h
  | delivering left => exact hleft left h
  | marking webhook status left =>
      obtain ⟨hl, hstatus, request, hsent⟩ := h
      exact ⟨hleft _ hl, hstatus, request, hlog _ hsent⟩
  | noting webhook error =>
      obtain ⟨left, hl⟩ := h
      exact ⟨left, hleft _ hl⟩
  | cleaning => exact fun hquiet => by cases hquiet

lemma Sound.arrive (h : Sound front s) {inbox : String} {retentionDays : ℕ}
    {id method path headers : String} {body : Option String}
    (hfits : Fits c front s (.arrive inbox retentionDays id method path headers body)) :
    Sound front (s.arrive front inbox retentionDays id method path headers body) := by
  set isOld := Row.isOld inbox (s.now - retentionDays * DAY_MS) with hOld
  set dropped := s.rows.filter fun row => isOld row && inbox = front.script with hdropped
  have hgone : ∀ row ∈ dropped, row.deliveredAt.isSome := by
    intro row hrow
    obtain ⟨hmem, hcond⟩ := List.mem_filter.mp hrow
    simp only [Bool.and_eq_true, decide_eq_true_eq] at hcond
    have hin : row.inbox = front.script := by
      have hinbox : row.inbox = inbox := by
        have hold := hcond.1
        simp only [hOld, Row.isOld, Bool.and_eq_true, decide_eq_true_eq] at hold
        exact hold.1
      rw [hinbox, hcond.2]
    cases hdelivered : row.deliveredAt with
    | none =>
        have hnot := hfits row hmem (waits_iff.mpr ⟨hin, hdelivered⟩)
        rw [← hOld, hcond.1] at hnot
        cases hnot
    | some delivered => rfl
  have hdrop := h.toOrderly.drop isOld dropped hgone hfits
  set row : Row := { inbox, seq := s.next, id, receivedAt := s.now, method, path, headers, body }
    with hrow
  have horderly : Orderly front (s.arrive front inbox retentionDays id method path headers body) := by
    by_cases hinbox : inbox = front.script
    · have harrived := hdrop.arriveAt row rfl hinbox rfl
      rw [Inboxes.arrive, if_pos hinbox]
      exact { harrived with }
    · have helsewhere := hdrop.arriveElsewhere row rfl hinbox
      rw [Inboxes.arrive, if_neg hinbox, List.append_nil]
      exact { helsewhere with }
  have hwaits : (s.arrive front inbox retentionDays id method path headers body).waitingSeqs front =
      s.waitingSeqs front ++ ([row].filter (Row.waits front.script)).map (·.seq) := by
    have hkept : ((s.rows.filter fun row => !isOld row).filter (Row.waits front.script)).map
        (·.seq) = (s.rows.filter (Row.waits front.script)).map (·.seq) :=
      waitingSeqs_filter fun other hother hw => by rw [hOld, hfits other hother hw]; rfl
    rw [waitingSeqs, Inboxes.arrive, List.filter_append, List.map_append, hkept]
    rfl
  refine { horderly with round := fun round hround => ?_ }
  rw [Inboxes.arrive, Option.map_eq_some_iff] at hround
  obtain ⟨old, hold, rfl⟩ := hround
  refine (h.round old hold).arrived ?_ ⟨_, hwaits⟩
  intro event hmem
  exact List.mem_append_left _ (List.mem_append_left _ hmem)

/-! ## Runs -/

lemma Sound.step (h : Sound front s) {a : Step} (hfits : Fits c front s a)
    (ht : s.step c front a = some t) : Sound front t := by
  cases a with
  | pass ms =>
      cases ht
      exact { h with }
  | arrive inbox retentionDays id method path headers body =>
      cases ht
      exact h.arrive hfits
  | start service =>
      rw [Inboxes.step] at ht
      split_ifs at ht
      cases ht
      exact h.toOrderly.setRound rfl
  | proceed answer =>
      rw [Inboxes.step, Option.map_eq_some_iff] at ht
      obtain ⟨round, hround, rfl⟩ := ht
      have hknown := h.round round hround
      cases hstage : round.stage with
      | reading =>
          rw [hstage] at hknown
          exact h.reading hround hstage hknown answer hfits
      | delivering left =>
          rw [hstage] at hknown
          cases left with
          | nil => exact h.done hknown
          | cons webhook left => exact h.delivering hknown answer
      | marking webhook status left =>
          rw [hstage] at hknown
          exact h.marking hknown answer
      | noting webhook error =>
          rw [hstage] at hknown
          exact h.noting hknown answer
      | cleaning =>
          rw [hstage] at hknown
          exact h.cleaning hknown answer
  | fail =>
      rw [Inboxes.step] at ht
      split at ht
      · cases ht
      · cases ht
      · cases ht
        exact { h with round := fun _ hround => by cases hround }

lemma sound_empty (now : Timestamp) : Sound front { now } where
  faithful := faithful_nil
  sorted := List.Pairwise.nil
  below _ hrow := by cases hrow
  arrivedBelow _ hlog := by cases hlog
  here _ hlog := by cases hlog
  arrived _ hrow := by cases hrow
  marked _ hrow := by cases hrow
  unmarked _ hmem := by cases hmem
  sent _ _ _ hlog := by cases hlog
  round _ hround := by cases hround

/-- Whatever arrives and whatever fails, the deliveries of an inbox are faithful, and its rows say
what was delivered, when rounds read all that waits and nothing that waits is dropped. -/
theorem webhooks_delivered {now : Timestamp} {steps : List Step}
    (hrun : run (step c front) { now } steps = some s)
    (hfits : Meets (step c front) (Fits c front) { now } steps) :
    Faithful s.log ∧ (∀ row ∈ s.rows, row.inbox = front.script → row.deliveredAt.isSome →
      .marked row.seq ∈ s.log) ∧
      ∀ seq, .arrived seq ∈ s.log → .marked seq ∈ s.log ∨
        ∃ row ∈ s.rows, row.seq = seq ∧ row.inbox = front.script ∧ row.deliveredAt = none := by
  have h : Sound front s := run_invariant (I := fun _ s => Sound front s) (sound_empty now)
    (fun _ _ _ _ _ h hP ht => h.step hP ht) hrun hfits
  refine ⟨h.faithful, h.marked, fun seq hlog => (h.here seq hlog).imp_right fun hmem => ?_⟩
  obtain ⟨row, hrow, hwaits, hseq⟩ := mem_waitingSeqs.mp hmem
  exact ⟨row, hrow, hseq, waits_iff.mp hwaits⟩

/-- Every header list is empty, and every body is. -/
def plain : Codec := ⟨fun _ => some [], fun _ => some []⟩

def hooks : Front := ⟨"app.example.com", "/hooks/", "tt-inbox-1", 7⟩

/-- A webhook arrives. -/
def post : Step := .arrive "tt-inbox-1" 7 "id" "POST" "/hooks/" "[]" none

/-- A round that delivers `n` webhooks. -/
def deliveries (n : ℕ) : List Step :=
  .start "http://localhost:3000" :: List.replicate (2 * n + 3) (.proceed (.ok 200))

/-- One webhook arrives and is delivered. -/
theorem webhooks_delivered_one :
    ∃ s, run (step plain hooks) { now := 0 } (post :: deliveries 1) = some s ∧
      Faithful s.log := by
  obtain ⟨s, hrun⟩ : ∃ s, run (step plain hooks) { now := 0 } (post :: deliveries 1) = some s :=
    ⟨_, rfl⟩
  refine ⟨s, hrun, (webhooks_delivered hrun ?_).1⟩
  have hdone : ∀ (t : Inboxes) (round : Round), t.round = some round → round.stage ≠ .reading →
      Fits plain hooks t (.proceed (.ok 200)) := by
    intro t round hround hstage other hother hreading
    obtain rfl := Option.some.inj (hround.symm.trans hother)
    exact absurd hreading hstage
  refine meets_cons rfl (fun row hrow => by cases hrow) (meets_cons rfl trivial
    (meets_cons rfl ?_ (meets_cons rfl (hdone _ _ rfl (by simp)) (meets_cons rfl
      (hdone _ _ rfl (by simp)) (meets_cons rfl (hdone _ _ rfl (by simp))
        (meets_cons rfl (hdone _ _ rfl (by simp [Round.done])) trivial))))))
  intro round _ _
  exact ⟨by decide +kernel, by decide +kernel⟩

/-- Whether a round that nothing disturbed reports another number than what waits. -/
def miscounts : Event → Bool
  | .returned report unmarked true => report.waiting ≠ unmarked
  | _ => false

/-- Twenty-one webhooks wait, a round delivers twenty, and reports that none waits. -/
theorem webhooks_miscounted :
    ∃ steps s, run (step plain hooks) { now := 0 } steps = some s ∧ ¬ Faithful s.log := by
  refine ⟨List.replicate 21 post ++ deliveries 20, _, rfl, fun h => ?_⟩
  have hany : (run (step plain hooks) { now := 0 }
      (List.replicate 21 post ++ deliveries 20)).any (fun s => s.log.any miscounts) = true := by
    decide +kernel
  obtain ⟨event, hmem, hwrong⟩ := List.any_eq_true.mp hany
  cases event with
  | returned report unmarked quiet =>
      cases quiet with
      | true => exact absurd (h.counted report unmarked hmem) (by simpa [miscounts] using hwrong)
      | false => cases hwrong
  | _ => cases hwrong

end Inboxes

end Teitunnel.Inbox
