import Teitunnel.Mcp.Approvals
import Teitunnel.Properties.JsonTexts
import Teitunnel.Lib.Runs

/-!
# An approval is for what was asked, and for one change

A change is granted with a client's answer only where the server asked that very question about
that very call, and a question grants one change until it lapses.
-/

namespace Teitunnel.Mcp.Mrtr

open Text

/-! ## Arguments -/

mutual

/-- A value with the keys of its objects in order, all through. -/
def ordered : Json → Json
  | .obj fields => .obj (sortKeys (orderedFields fields))
  | .arr items => .arr (orderedItems items)
  | .null => .null
  | .bool b => .bool b
  | .num n => .num n
  | .float text => .float text
  | .str s => .str s

def orderedItems : List Json → List Json
  | [] => []
  | item :: rest => ordered item :: orderedItems rest

def orderedFields : List (String × Json) → List (String × Json)
  | [] => []
  | (key, value) :: rest => (key, ordered value) :: orderedFields rest

end

lemma orderedItems_eq (items : List Json) : orderedItems items = items.map ordered := by
  induction items with
  | nil => rfl
  | cons item items ih => rw [orderedItems, ih, List.map_cons]

lemma orderedFields_eq (fields : List (String × Json)) :
    orderedFields fields = fields.map fun field => (field.1, ordered field.2) := by
  induction fields with
  | nil => rfl
  | cons field fields ih => rw [orderedFields, ih, List.map_cons]

lemma canonicalItems_eq (items : List Json) : canonicalItems items = items.map canonical := by
  induction items with
  | nil => rfl
  | cons item items ih => rw [canonicalItems, ih, List.map_cons]

lemma canonicalFields_eq (fields : List (String × Json)) :
    canonicalFields fields = fields.map fun field => (field.1, canonical field.2) := by
  induction fields with
  | nil => rfl
  | cons field fields ih => rw [canonicalFields, ih, List.map_cons]

lemma sortKeys_map {α β : Type} (f : α → β) (entries : List (String × α)) :
    sortKeys (entries.map fun entry => (entry.1, f entry.2)) =
      (sortKeys entries).map fun entry => (entry.1, f entry.2) := by
  rw [sortKeys, sortKeys]
  exact (List.map_insertionSort (fun a b : String × α => a.1 ≤ b.1)
    (fun a b : String × β => a.1 ≤ b.1) _ entries fun a _ b _ => Iff.rfl).symm

/-- The canonical text is the text of the value in order. -/
lemma canonical_eq (value : Json) : canonical value = writeJson (ordered value) := by
  induction hsize : sizeOf value using Nat.strong_induction_on generalizing value with
  | _ size ih =>
  subst hsize
  cases value with
  | arr items =>
      rw [canonical, ordered, writeJson, writeItems_eq, orderedItems_eq, canonicalItems_eq,
        List.map_map]
      have hitems : items.map canonical = items.map (writeJson ∘ ordered) := by
        refine List.map_congr_left fun item hmem => ih (sizeOf item) ?_ item rfl
        have hlt := List.sizeOf_lt_of_mem hmem
        simp only [Json.arr.sizeOf_spec]
        omega
      rw [hitems]
  | obj fields =>
      have hfields : fields.map (fun field => (field.1, canonical field.2)) =
          (fields.map fun field => (field.1, ordered field.2)).map fun field =>
            (field.1, writeJson field.2) := by
        rw [List.map_map]
        refine List.map_congr_left fun field hmem => ?_
        have hlt := List.sizeOf_lt_of_mem hmem
        have hvalue := ih (sizeOf field.2) (by
          simp only [Json.obj.sizeOf_spec]
          have hfield : sizeOf field = 1 + sizeOf field.1 + sizeOf field.2 := rfl
          omega) field.2 rfl
        rw [hvalue]
        rfl
      rw [canonical, ordered, writeJson, writeFields_eq, orderedFields_eq, canonicalFields_eq, hfields,
        sortKeys_map writeJson, List.map_map]
      rfl
  | _ => rfl

lemma wellWritten_ordered {value : Json} (h : WellWritten value) : WellWritten (ordered value) := by
  induction hsize : sizeOf value using Nat.strong_induction_on generalizing value with
  | _ size ih =>
  subst hsize
  cases value with
  | arr items =>
      have hitems := itemsWritten_iff.mp h
      refine itemsWritten_iff.mpr fun item hmem => ?_
      rw [orderedItems_eq] at hmem
      obtain ⟨item, hitem, rfl⟩ := List.mem_map.mp hmem
      have hlt := List.sizeOf_lt_of_mem hitem
      exact ih (sizeOf item) (by simp only [Json.arr.sizeOf_spec]; omega) (hitems item hitem) rfl
  | obj fields =>
      have hfields := fieldsWritten_iff.mp h
      refine fieldsWritten_iff.mpr fun field hmem => ?_
      have hsorted := (List.perm_insertionSort _ (orderedFields fields)).mem_iff.mp hmem
      rw [orderedFields_eq] at hsorted
      obtain ⟨field, hfield, rfl⟩ := List.mem_map.mp hsorted
      have hlt := List.sizeOf_lt_of_mem hfield
      have hsize : sizeOf field = 1 + sizeOf field.1 + sizeOf field.2 := rfl
      exact ih (sizeOf field.2) (by simp only [Json.obj.sizeOf_spec]; omega) (hfields field hfield)
        rfl
  | _ => exact h

/-- Two calls are one for an approval exactly when they have the same tool and principal, and
arguments that differ in the order of their keys and the agent's own confirmation only. -/
theorem callNew_eq_iff {digest : String → String} (hdigest : Function.Injective digest)
    {tool tool' principal principal' : String} {arguments arguments' : List (String × Json)}
    (h : FieldsWritten arguments) (h' : FieldsWritten arguments') :
    Call.new digest tool arguments principal = Call.new digest tool' arguments' principal' ↔
      tool = tool' ∧ principal = principal' ∧
        ordered (.obj (withoutConfirmed arguments)) =
          ordered (.obj (withoutConfirmed arguments')) := by
  have hwritten : ∀ {fields : List (String × Json)}, FieldsWritten fields →
      WellWritten (ordered (.obj (withoutConfirmed fields))) := by
    intro fields hfields
    refine wellWritten_ordered (fieldsWritten_iff.mpr fun field hmem => ?_)
    exact fieldsWritten_iff.mp hfields field (List.mem_filter.mp hmem).1
  rw [Call.new, Call.new, Call.mk.injEq, canonical_eq, canonical_eq]
  refine and_congr_right fun _ => ⟨fun ⟨hargs, hprincipal⟩ => ?_, fun ⟨hprincipal, hordered⟩ => ?_⟩
  · exact ⟨hprincipal, writeJson_injective (hwritten h) (hwritten h') (hdigest hargs)⟩
  · exact ⟨by rw [hordered], hprincipal⟩

theorem callNew_eq_planOrder :
    Call.new id "apply_plan" [("planId", .str "p1"), ("fingerprint", .str "f1")] "agent via mcp" =
      Call.new id "apply_plan"
        [("confirmed", .bool true), ("fingerprint", .str "f1"), ("planId", .str "p1")]
        "agent via mcp" := by
  have h : FieldsWritten [("planId", .str "p1"), ("fingerprint", .str "f1")] :=
    ⟨trivial, trivial, trivial⟩
  have h' : FieldsWritten
      [("confirmed", .bool true), ("fingerprint", .str "f1"), ("planId", .str "p1")] :=
    ⟨trivial, trivial, trivial, trivial⟩
  exact (callNew_eq_iff Function.injective_id h h').mpr ⟨rfl, rfl, by decide +kernel⟩

/-! ## Sealing -/

section sealing

variable (mac mac' : List UInt8 → List UInt8) (reader : StateReader) (state opened : State)
  (now : ℕ) (call : Call)

lemma sealedParts_seal : sealedParts (sealState mac state) =
    some (state.write, mac state.write) := by
  have hdot : '.' ∉ (Base64.encode .urlSafe state.write).toList := by
    intro hmem
    exact absurd (Base64.mem_encode .urlSafe hmem) (by decide)
  have hsplit : splitOnce '.' (sealState mac state) =
      some (Base64.encode .urlSafe state.write,
        Base64.encode .urlSafe (mac state.write)) := splitOnce_append hdot
  rw [sealedParts, hsplit, Option.bind_eq_bind, Option.bind_some]
  simp only [Base64.decode_encode, Option.bind_eq_bind, Option.bind_some, Option.pure_def]

/-- What comes of a text that was sealed, maybe under another key. -/
lemma openState_seal : openState mac' reader now (sealState mac state) call =
    if mac state.write ≠ mac' state.write then .error .invalid
    else if state.expires ≤ now then .error .expired
    else if state.tool ≠ call.tool ∨ state.args ≠ call.args ∨ state.principal ≠ call.principal then
      .error .otherCall
    else .ok state := by
  rw [openState, sealedParts_seal]
  dsimp only
  rw [reader.read_write]

/-- A sealed state opens under its own key, for its own call, until it lapses, and then says what
was sealed. -/
theorem openState_seal_iff :
    openState mac' reader now (sealState mac state) call = .ok opened ↔
      opened = state ∧ mac state.write = mac' state.write ∧ now < state.expires ∧
        state.tool = call.tool ∧ state.args = call.args ∧ state.principal = call.principal := by
  rw [openState_seal]
  by_cases hmac : mac state.write = mac' state.write
  · rw [if_neg (not_not.mpr hmac)]
    by_cases hover : state.expires ≤ now
    · rw [if_pos hover]
      simp [not_lt.mpr hover]
    · rw [if_neg hover]
      by_cases hother : state.tool ≠ call.tool ∨ state.args ≠ call.args ∨
          state.principal ≠ call.principal
      · rw [if_pos hother]
        refine iff_of_false (fun h => by cases h) ?_
        rintro ⟨-, -, -, htool, hargs, hprincipal⟩
        exact hother.elim (· htool) fun hrest => hrest.elim (· hargs) (· hprincipal)
      · rw [if_neg hother]
        simp only [not_or, not_not] at hother
        simp [hmac, not_le.mp hover, hother, eq_comm]
  · rw [if_pos hmac]
    simp [hmac]

/-- What opens is a state that fits, under a code that is right. -/
lemma openState_eq_ok {sealed : String} (h : openState mac reader now sealed call = .ok opened) :
    ∃ payload, sealedParts sealed = some (payload, mac payload) ∧ reader.read payload = some opened ∧
      opened.tool = call.tool ∧ opened.args = call.args ∧ opened.principal = call.principal := by
  rw [openState] at h
  cases hparts : sealedParts sealed with
  | none =>
      rw [hparts] at h
      cases h
  | some parts =>
      obtain ⟨payload, code⟩ := parts
      rw [hparts] at h
      dsimp only at h
      split_ifs at h with hcode
      obtain rfl := not_not.mp hcode
      cases hread : reader.read payload with
      | none =>
          rw [hread] at h
          cases h
      | some state =>
          rw [hread] at h
          dsimp only at h
          split_ifs at h with hover hother
          obtain rfl := Except.ok.inj h
          simp only [not_or, not_not] at hother
          exact ⟨payload, rfl, hread, hother⟩

end sealing

/-! ## Answers -/

section answers

variable {digest : String → String} {used : Table String ℕ} {now : ℕ} {request : ApprovalRequest}
  {settings : Settings} {app : Option AppAnswer} {incoming : Option (State × Option ElicitResult)}
  {nonce other : String} {time : ℕ}

/-- An outcome that grants nothing through the client. -/
structure Withheld (digest : String → String) (used : Table String ℕ) (now : ℕ)
    (outcome : Outcome) : Prop where
  used : outcome.used = used ∨ ∃ nonce, outcome.used = (consume used now nonce).1
  approval : outcome.approval ≠ .granted "client"
  held : ∀ request approval, outcome.held = some (.input request approval) →
    approval = digest request.shown

lemma withheld_askClient {used' : Table String ℕ}
    (h : used' = used ∨ ∃ nonce, used' = (consume used now nonce).1) :
    Withheld digest used now (askClient digest used' request) where
  used := h
  approval heq := by cases heq
  held other approval heq := by
    obtain ⟨rfl, rfl⟩ := Held.input.inj (Option.some.inj heq)
    rfl

/-- An outcome without a grant and without a question. -/
lemma withheld_of {approval : Approval} {held : Option Held} (h : approval ≠ .granted "client")
    (hheld : ∀ request approval, held ≠ some (.input request approval)) :
    Withheld digest used now ⟨used, approval, held⟩ where
  used := .inl rfl
  approval := h
  held request approval heq := absurd heq (hheld request approval)

/-- The client's answer grants a change that it is for, once; nothing else does. -/
lemma throughMrtr_cases :
    (∃ state response, incoming = some (state, response) ∧ state.approval = digest request.shown ∧
        (consume used now state.nonce).2 = true ∧
        throughMrtr digest used now request incoming =
          ⟨(consume used now state.nonce).1, .granted "client", none⟩) ∨
      Withheld digest used now (throughMrtr digest used now request incoming) := by
  cases incoming with
  | none => exact .inr (withheld_askClient (.inl rfl))
  | some sent =>
      obtain ⟨state, response⟩ := sent
      rw [throughMrtr]
      by_cases happroval : state.approval = digest request.shown
      · rw [if_pos happroval]
        cases answer response with
        | none => exact .inr (withheld_askClient (.inl rfl))
        | some yes =>
            cases yes with
            | false => exact .inr (withheld_of (by simp) (by simp))
            | true =>
                dsimp only
                by_cases hnew : (consume used now state.nonce).2 = true
                · rw [if_pos hnew]
                  exact .inl ⟨state, response, rfl, happroval, hnew, rfl⟩
                · rw [if_neg hnew]
                  exact .inr (withheld_askClient (.inr ⟨state.nonce, rfl⟩))
      · rw [if_neg happroval]
        exact .inr (withheld_askClient (.inl rfl))

lemma approve_cases (digest : String → String) (used : Table String ℕ) (now : ℕ)
    (request : ApprovalRequest) (settings : Settings) (app : Option AppAnswer)
    (incoming : Option (State × Option ElicitResult)) :
    (∃ state response, incoming = some (state, response) ∧ state.approval = digest request.shown ∧
        (consume used now state.nonce).2 = true ∧
        approve digest used now request settings app (some incoming) none =
          ⟨(consume used now state.nonce).1, .granted "client", none⟩) ∨
      Withheld digest used now (approve digest used now request settings app (some incoming) none) := by
  rw [approve]
  cases settings.mode with
  | full => exact .inr (withheld_of (by simp) (by simp))
  | readOnly => exact .inr (withheld_of (by simp) (by simp))
  | ask =>
      cases app.getD .unavailable with
      | approved => exact .inr (withheld_of (by simp) (by simp))
      | declined => exact .inr (withheld_of (by simp) (by simp))
      | busy => exact .inr (withheld_of (by simp) (by simp))
      | unavailable => exact throughMrtr_cases

/-! ## Used approvals -/

/-- A use is remembered, or was a lifetime ago. -/
def Remembered (used : Table String ℕ) (now : ℕ) (nonce : String) (time : ℕ) : Prop :=
  (∃ later, used.find nonce = some later ∧ time ≤ later) ∨ time + STATE_TTL ≤ now

lemma find_consume : (consume used now other).1.find nonce =
    if nonce = other then some now
    else (used.find nonce).filter fun time => now - time < STATE_TTL := by
  rw [consume]
  dsimp only
  rw [Table.find_insert, Table.find_retain]

/-- Uses stay remembered when one is added. -/
lemma Remembered.consume (h : Remembered used now nonce time) (hle : time ≤ now) :
    Remembered (consume used now other).1 now nonce time := by
  rcases h with ⟨later, hfind, hlater⟩ | hover
  · by_cases hsame : nonce = other
    · exact .inl ⟨now, by rw [find_consume, if_pos hsame], hle⟩
    · by_cases hkept : now - later < STATE_TTL
      · refine .inl ⟨later, ?_, hlater⟩
        rw [find_consume, if_neg hsame, hfind, Option.filter_some, if_pos (decide_eq_true hkept)]
      · refine .inr ?_
        have hpos : 0 < STATE_TTL := by decide
        omega
  · exact .inr hover

lemma remembered_consume_self : Remembered (consume used now nonce).1 now nonce now :=
  .inl ⟨now, by rw [find_consume, if_pos rfl], le_rfl⟩

/-- What counts as new was used a lifetime ago at the latest. -/
lemma lifetime_of_new (hnew : (consume used now nonce).2 = true) (h : Remembered used now nonce time) :
    time + STATE_TTL ≤ now := by
  rcases h with ⟨later, hfind, hlater⟩ | hover
  · have hnone : ((used.find nonce).filter fun time => now - time < STATE_TTL) = none := by
      rw [← Table.find_retain (fun _ time => now - time < STATE_TTL)]
      exact Option.isNone_iff_eq_none.mp hnew
    have hkept : ¬ now - later < STATE_TTL := by
      intro hlt
      rw [hfind, Option.filter_some, if_pos (decide_eq_true hlt)] at hnone
      cases hnone
    have hpos : 0 < STATE_TTL := by decide
    omega
  · exact hover

end answers

/-! ## Runs -/

section runs

variable {mac : List UInt8 → List UInt8} {reader : StateReader} {digest : String → String}
  {settings : Settings} {s t : Calls} {a : Step} {steps : List Step}

/-- A client's text has no right code but for a payload that was sealed. -/
def Unforged (mac : List UInt8 → List UInt8) (s : Calls) : Step → Prop
  | .call _ (some (sealed, _)) => ∀ payload, sealedParts sealed = some (payload, mac payload) →
      ∃ question ∈ s.questions, payload = question.state.write
  | _ => True

/-- A state is bound to a call. -/
def State.Fits (state : State) (call : Call) : Prop :=
  state.tool = call.tool ∧ state.args = call.args ∧ state.principal = call.principal

/-- A state is one of a question that was asked by a time. -/
def Asked (s : Calls) (state : State) (time : ℕ) : Prop :=
  ∃ question ∈ s.questions, question.state = state ∧ question.time ≤ time

/-- What every step keeps. -/
structure Sound (digest : String → String) (s : Calls) : Prop where
  questions : ∀ question ∈ s.questions, question.state.expires = question.time + STATE_TTL ∧
    question.time ≤ s.now ∧ question.state.approval = digest question.request.shown
  nonces : ∀ question ∈ s.questions, ∀ other ∈ s.questions,
    question.state.nonce = other.state.nonce → question = other
  incoming : ∀ i running state response, s.running.find i = some running →
    running.incoming = some (state, response) → Asked s state s.now ∧ state.Fits running.call
  held : ∀ i running request approval, s.running.find i = some running →
    running.held = some (.input request approval) → approval = digest request.shown
  granted : ∀ grant ∈ s.granted, grant.time ≤ s.now ∧ Asked s grant.state grant.time ∧
    grant.state.Fits grant.call ∧ grant.state.approval = digest grant.request.shown ∧
    Remembered s.used s.now grant.state.nonce grant.time
  apart : s.granted.Pairwise fun grant later =>
    grant.state.nonce = later.state.nonce → grant.time + STATE_TTL ≤ later.time

lemma sound_empty : Sound digest .empty where
  questions question h := absurd h List.not_mem_nil
  nonces question h := absurd h List.not_mem_nil
  incoming i running state response h := by cases h
  held i running request approval h := by cases h
  granted grant h := absurd h List.not_mem_nil
  apart := .nil

lemma Asked.mono {state : State} {time time' : ℕ} (h : Asked s state time)
    (hquestions : ∀ question ∈ s.questions, question ∈ t.questions) (hle : time ≤ time') :
    Asked t state time' := by
  obtain ⟨question, hquestion, hstate, htime⟩ := h
  exact ⟨question, hquestions question hquestion, hstate, htime.trans hle⟩

lemma sound_pass (h : Sound digest s) (ms : ℕ) : Sound digest { s with now := s.now + ms } where
  questions question hquestion := by
    obtain ⟨hexpires, htime, happroval⟩ := h.questions question hquestion
    exact ⟨hexpires, htime.trans (Nat.le_add_right _ _), happroval⟩
  nonces := h.nonces
  incoming i running state response hi hincoming := by
    obtain ⟨hasked, hfits⟩ := h.incoming i running state response hi hincoming
    exact ⟨hasked.mono (fun _ => id) (Nat.le_add_right _ _), hfits⟩
  held := h.held
  granted grant hgrant := by
    obtain ⟨htime, hasked, hfits, happroval, hremembered⟩ := h.granted grant hgrant
    exact ⟨htime.trans (Nat.le_add_right _ _), hasked, hfits, happroval,
      hremembered.imp_right fun hover => hover.trans (Nat.le_add_right _ _)⟩
  apart := h.apart

/-- A call may begin with a state that was asked about it. -/
lemma sound_start (h : Sound digest s) {call : Call}
    {incoming : Option (State × Option ElicitResult)}
    (hincoming : ∀ state response, incoming = some (state, response) →
      Asked s state s.now ∧ state.Fits call) : Sound digest (s.start call incoming) where
  questions := h.questions
  nonces := h.nonces
  incoming i running state response hi hrunning := by
    have hfind : (s.running.insert s.started ⟨call, incoming, none⟩).find i = some running := hi
    rw [Table.find_insert] at hfind
    split_ifs at hfind with hnew
    · obtain rfl := Option.some.inj hfind
      exact hincoming state response hrunning
    · exact h.incoming i running state response hfind hrunning
  held i running request approval hi hheld := by
    have hfind : (s.running.insert s.started ⟨call, incoming, none⟩).find i = some running := hi
    rw [Table.find_insert] at hfind
    split_ifs at hfind with hnew
    · obtain rfl := Option.some.inj hfind
      cases hheld
    · exact h.held i running request approval hfind hheld
  granted := h.granted
  apart := h.apart

/-- A state that opens was asked, when it is not forged. -/
lemma asked_of_open (h : Sound digest s) {call : Call} {sealed : String} {state : State}
    {response : Option ElicitResult}
    (hunforged : Unforged mac s (.call call (some (sealed, response))))
    (hopen : openState mac reader s.now sealed call = .ok state) :
    Asked s state s.now ∧ state.Fits call := by
  obtain ⟨payload, hparts, hread, hfits⟩ := openState_eq_ok mac reader state s.now call hopen
  obtain ⟨question, hquestion, rfl⟩ := hunforged payload hparts
  rw [reader.read_write] at hread
  obtain rfl := Option.some.inj hread
  exact ⟨⟨question, hquestion, rfl, (h.questions question hquestion).2.1⟩, hfits⟩

/-- A tool's question changes what is set aside for its call. -/
lemma sound_held (h : Sound digest s) {i : ℕ} {running : Running} (hi : s.running.find i = some running)
    (used : Table String ℕ) (held : Option Held)
    (hheld : ∀ request approval, held = some (.input request approval) →
      approval = digest request.shown)
    (hused : used = s.used ∨ ∃ nonce, used = (consume s.used s.now nonce).1) :
    Sound digest { s with
      used := used
      running := s.running.insert i { running with held := held.or running.held } } where
  questions := h.questions
  nonces := h.nonces
  incoming j other state response hj hincoming := by
    rw [Table.find_insert] at hj
    split_ifs at hj with hsame
    · obtain rfl := Option.some.inj hj
      exact h.incoming i running state response hi hincoming
    · exact h.incoming j other state response hj hincoming
  held j other request approval hj hother := by
    rw [Table.find_insert] at hj
    split_ifs at hj with hsame
    · obtain rfl := Option.some.inj hj
      cases held with
      | none => exact h.held i running request approval hi hother
      | some new => exact hheld request approval hother
    · exact h.held j other request approval hj hother
  granted grant hgrant := by
    obtain ⟨htime, hasked, hfits, happroval, hremembered⟩ := h.granted grant hgrant
    refine ⟨htime, hasked, hfits, happroval, ?_⟩
    rcases hused with rfl | ⟨nonce, rfl⟩
    · exact hremembered
    · exact hremembered.consume htime
  apart := h.apart

/-- A change is granted that was asked about, and not within a lifetime of another. -/
lemma sound_grant (h : Sound digest s) {grant : Granted} (htime : grant.time = s.now)
    (hasked : Asked s grant.state s.now) (hfits : grant.state.Fits grant.call)
    (happroval : grant.state.approval = digest grant.request.shown)
    (hself : Remembered s.used s.now grant.state.nonce s.now)
    (hapart : ∀ earlier ∈ s.granted, earlier.state.nonce = grant.state.nonce →
      earlier.time + STATE_TTL ≤ s.now) : Sound digest { s with granted := s.granted ++ [grant] } where
  questions := h.questions
  nonces := h.nonces
  incoming := h.incoming
  held := h.held
  granted other hother := by
    rcases List.mem_append.mp hother with hold | hnew
    · exact h.granted other hold
    · rw [List.mem_singleton.mp hnew, htime]
      exact ⟨le_rfl, hasked, hfits, happroval, hself⟩
  apart := by
    refine List.pairwise_append.mpr ⟨h.apart, List.pairwise_singleton _ _, ?_⟩
    intro earlier hearlier later hlater hnonce
    rw [List.mem_singleton.mp hlater] at hnonce ⊢
    rw [htime]
    exact hapart earlier hearlier hnonce

lemma sound_approve (h : Sound digest s) {i : ℕ} {running : Running} {app : Option AppAnswer}
    {request : ApprovalRequest} (hi : s.running.find i = some running) :
    Sound digest (s.approve digest settings i running app request) := by
  rw [Calls.approve]
  rcases approve_cases digest s.used s.now request settings app running.incoming with
    ⟨state, response, hincoming, happroval, hnew, heq⟩ | hwithheld
  · have hgrants : s.grants running.call running.incoming request
        ⟨(consume s.used s.now state.nonce).1, .granted "client", none⟩ =
          [⟨running.call, state, request, s.now⟩] := by
      rw [hincoming, Calls.grants]
      exact if_pos rfl
    rw [heq]
    dsimp only
    rw [hgrants]
    obtain ⟨hasked, hfits⟩ := h.incoming i running state response hi hincoming
    have hheld := sound_held h hi (consume s.used s.now state.nonce).1 none
      (fun _ _ heq => by cases heq) (.inr ⟨state.nonce, rfl⟩)
    refine sound_grant hheld rfl hasked hfits happroval remembered_consume_self ?_
    intro earlier hearlier hnonce
    obtain ⟨-, -, -, -, hremembered⟩ := h.granted earlier hearlier
    exact lifetime_of_new hnew (hnonce ▸ hremembered)
  · have hgrants : s.grants running.call running.incoming request
        (Mrtr.approve digest s.used s.now request settings app (some running.incoming) none) = [] := by
      rw [Calls.grants.eq_def]
      split
      · exact if_neg hwithheld.approval
      · rfl
    rw [hgrants, List.append_nil]
    exact sound_held h hi _ _ hwithheld.held hwithheld.used

lemma sound_reply (h : Sound digest s) {i : ℕ} {running : Running} {nonce : String}
    (hi : s.running.find i = some running)
    (hnew : ∀ question ∈ s.questions, question.state.nonce ≠ nonce) :
    Sound digest { s with
      running := s.running.erase i
      questions := s.questions ++ (s.question running nonce).toList } := by
  have hkeeps : ∀ question ∈ s.questions,
      question ∈ s.questions ++ (s.question running nonce).toList :=
    fun question => List.mem_append_left _
  have hquestion : ∀ question, s.question running nonce = some question →
      question.state.nonce = nonce ∧ question.state.expires = question.time + STATE_TTL ∧
        question.time ≤ s.now ∧ question.state.approval = digest question.request.shown := by
    intro question hsome
    rw [Calls.question] at hsome
    split at hsome
    · next request approval hheld =>
        obtain rfl := Option.some.inj hsome
        exact ⟨rfl, rfl, le_rfl, h.held i running request approval hi hheld⟩
    · cases hsome
  constructor
  · intro question hmem
    rcases List.mem_append.mp hmem with hold | hlast
    · exact h.questions question hold
    · exact (hquestion question (Option.mem_toList.mp hlast)).2
  · intro question hmem other hother hnonce
    rcases List.mem_append.mp hmem with hold | hlast
    · rcases List.mem_append.mp hother with hold' | hlast'
      · exact h.nonces question hold other hold' hnonce
      · exact absurd (hnonce.trans (hquestion other (Option.mem_toList.mp hlast')).1)
          (hnew question hold)
    · have hlast := Option.mem_toList.mp hlast
      rcases List.mem_append.mp hother with hold' | hlast'
      · exact absurd (hnonce.symm.trans (hquestion question hlast).1) (hnew other hold')
      · have hlast' := Option.mem_toList.mp hlast'
        exact Option.some.inj (hlast.symm.trans hlast')
  · intro j other state response hj hincoming
    obtain ⟨hasked, hfits⟩ := h.incoming j other state response
      (Table.find_retain_eq_some_iff.mp hj).1 hincoming
    exact ⟨hasked.mono hkeeps le_rfl, hfits⟩
  · intro j other request approval hj hheld
    exact h.held j other request approval (Table.find_retain_eq_some_iff.mp hj).1 hheld
  · intro grant hgrant
    obtain ⟨htime, hasked, hrest⟩ := h.granted grant hgrant
    exact ⟨htime, hasked.mono hkeeps le_rfl, hrest⟩
  · exact h.apart

lemma sound_step (h : Sound digest s) (hunforged : Unforged mac s a)
    (hstep : s.step mac reader digest settings a = some t) : Sound digest t := by
  cases a with
  | pass ms => exact Option.some.inj hstep ▸ sound_pass h ms
  | call call incoming =>
      cases incoming with
      | none =>
          refine Option.some.inj hstep ▸ sound_start h fun state response heq => ?_
          cases heq
      | some sent =>
          obtain ⟨sealed, response⟩ := sent
          rw [Calls.step] at hstep
          cases hopen : openState mac reader s.now sealed call with
          | error refused =>
              rw [hopen] at hstep
              exact Option.some.inj hstep ▸ h
          | ok state =>
              rw [hopen] at hstep
              refine Option.some.inj hstep ▸ sound_start h fun other response' heq => ?_
              obtain ⟨rfl, rfl⟩ := Prod.mk.inj (Option.some.inj heq)
              exact asked_of_open h hunforged hopen
  | approve i app request =>
      obtain ⟨running, hi, rfl⟩ := Option.map_eq_some_iff.mp hstep
      exact sound_approve h hi
  | reply i nonce =>
      rw [Calls.step] at hstep
      split_ifs at hstep with hused
      obtain ⟨running, hi, rfl⟩ := Option.map_eq_some_iff.mp hstep
      refine sound_reply h hi fun question hquestion hnonce => hused ?_
      exact List.any_eq_true.mpr ⟨question, hquestion, by simpa using hnonce⟩

/-- In every run without forged codes: a change that the client's answer granted is one that the
server had asked about, word for word and about this very call, before; and a question grants no
second change until it lapses. -/
theorem approvals_kept (hdigest : Function.Injective digest)
    (hrun : Runs.run (Calls.step mac reader digest settings) .empty steps = some s)
    (hmeets : Runs.Meets (Calls.step mac reader digest settings) (Unforged mac) .empty steps) :
    (∀ grant ∈ s.granted, grant.state.Fits grant.call ∧ ∃ question ∈ s.questions,
      question.state = grant.state ∧ question.request.shown = grant.request.shown ∧
        question.time ≤ grant.time) ∧
      s.granted.Pairwise fun grant later =>
        grant.state.nonce = later.state.nonce → later.state.expires ≤ later.time := by
  have h : Sound digest s := Runs.run_invariant (I := fun _ => Sound digest) sound_empty
    (fun _ _ _ _ _ hs hunforged hstep => sound_step hs hunforged hstep) hrun hmeets
  constructor
  · intro grant hgrant
    obtain ⟨-, ⟨question, hquestion, hstate, htime⟩, hfits, happroval, -⟩ := h.granted grant hgrant
    refine ⟨hfits, question, hquestion, hstate, hdigest ?_, htime⟩
    rw [← (h.questions question hquestion).2.2, hstate, happroval]
  · refine h.apart.imp_of_mem fun {grant later} hgrant hlater happart hnonce => ?_
    obtain ⟨-, ⟨question, hquestion, hstate, htime⟩, -⟩ := h.granted grant hgrant
    obtain ⟨-, ⟨other, hother, hstate', -⟩, -⟩ := h.granted later hlater
    have hsame : question = other := h.nonces question hquestion other hother (by
      rw [hstate, hstate', hnonce])
    rw [← hstate', ← hsame, (h.questions question hquestion).1]
    exact (Nat.add_le_add_right htime _).trans (happart hnonce)

end runs

/-! ## A change that is asked about and approved -/

lemma write_injective {state other : State} (h : state.write = other.write) : state = other := by
  have hwritten : ∀ state : State, WellWritten state.toJson := fun state => by
    simp [State.toJson, WellWritten, FieldsWritten]
  have hjson := writeJson_injective (hwritten state) (hwritten other) (utf8_injective h)
  obtain ⟨tool, args, principal, approval, nonce, expires⟩ := state
  obtain ⟨tool', args', principal', approval', nonce', expires'⟩ := other
  simp only [State.toJson, Json.obj.injEq, List.cons.injEq, Prod.mk.injEq, Json.str.injEq,
    Json.num.injEq, Int.natCast_inj, true_and, and_true] at hjson
  obtain ⟨rfl, rfl, rfl, rfl, rfl, rfl⟩ := hjson
  rfl

open Classical in
/-- The reader of what is written. -/
noncomputable def plainReader : StateReader where
  read payload := if h : ∃ state : State, state.write = payload then some h.choose else none
  read_write state := by
    have hexists : ∃ other : State, other.write = state.write := ⟨state, rfl⟩
    rw [dif_pos hexists]
    exact congrArg some (write_injective hexists.choose_spec)

def serverMac : List UInt8 → List UInt8 := Sha256.hmac [1, 2, 3]

def askSettings : Settings := ⟨.ask, true⟩

def shareCall : Call := ⟨"share_port", "\x7b\x7d", "agent via mcp"⟩

def shareRequest : ApprovalRequest := ⟨"Share port 3000", "1. Start a tunnel", false⟩

def shareState : State :=
  ⟨"share_port", "\x7b\x7d", "agent via mcp", shareRequest.shown, "n1", STATE_TTL⟩

/-- The agent calls, the person is asked. -/
def asking : List Step := [.call shareCall none, .approve 0 none shareRequest, .reply 0 "n1"]

/-- The person's yes. -/
def yes : ElicitResult := ⟨.accept, some (.obj [("approve", .bool true)])⟩

/-- The agent calls again with the person's yes. -/
def approving : List Step :=
  [.call shareCall (some (sealState serverMac shareState, some yes)), .approve 1 none shareRequest]

/-- The server when the person is asked. -/
def asked : Calls where
  now := 0
  used := .empty
  running := (Table.empty.insert 0 ⟨shareCall, none, some (.input shareRequest shareRequest.shown)⟩).erase 0
  started := 1
  questions := [⟨shareState, shareRequest, 0⟩]
  granted := []

lemma run_asking : Runs.run (Calls.step serverMac plainReader id askSettings) .empty asking =
    some asked := by
  rfl

/-- The server when the change is granted. -/
def answered : Calls :=
  (asked.start shareCall (some (shareState, some yes))).approve id askSettings 1
    ⟨shareCall, some (shareState, some yes), none⟩ none shareRequest

lemma open_share : openState serverMac plainReader 0 (sealState serverMac shareState) shareCall =
    .ok shareState := by
  rw [openState_seal, if_neg (not_not.mpr rfl), if_neg (by decide), if_neg (by decide)]

lemma run_approving :
    Runs.run (Calls.step serverMac plainReader id askSettings) asked approving = some answered := by
  have hfirst : asked.step serverMac plainReader id askSettings
      (.call shareCall (some (sealState serverMac shareState, some yes))) =
        some (asked.start shareCall (some (shareState, some yes))) := by
    have hopen : openState serverMac plainReader asked.now (sealState serverMac shareState)
        shareCall = .ok shareState := open_share
    rw [Calls.step, hopen]
  exact Runs.run_cons.mpr ⟨_, hfirst, rfl⟩

theorem approvals_kept_share :
    ∃ s, Runs.run (Calls.step serverMac plainReader id askSettings) .empty (asking ++ approving) =
        some s ∧ s.granted.length = 1 ∧
      ∀ grant ∈ s.granted, ∃ question ∈ s.questions, question.request.shown = grant.request.shown := by
  have hrun := Runs.run_append.mpr ⟨asked, run_asking, run_approving⟩
  have hmeets : Runs.Meets (Calls.step serverMac plainReader id askSettings) (Unforged serverMac)
      .empty (asking ++ approving) := by
    refine Runs.meets_append_of ⟨trivial, fun _ _ => ⟨trivial, fun _ _ => ⟨trivial, fun _ _ => trivial⟩⟩⟩
      fun s hs => ?_
    obtain rfl := Option.some.inj (run_asking.symm.trans hs)
    refine ⟨fun payload hparts => ?_, fun _ _ => ⟨trivial, fun _ _ => trivial⟩⟩
    have hpayload := congrArg (Option.map Prod.fst) ((sealedParts_seal serverMac shareState).symm.trans
      hparts)
    exact ⟨⟨shareState, shareRequest, 0⟩, List.mem_cons_self, (Option.some.inj hpayload).symm⟩
  have hkept := (approvals_kept Function.injective_id hrun hmeets).1
  refine ⟨answered, hrun, rfl, fun grant hgrant => ?_⟩
  obtain ⟨-, question, hquestion, -, hshown, -⟩ := hkept grant hgrant
  exact ⟨question, hquestion, hshown⟩

end Teitunnel.Mcp.Mrtr
