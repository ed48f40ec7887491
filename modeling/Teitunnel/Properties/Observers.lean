import Teitunnel.Lens.Stream

/-!
# An observer reads frames however their bytes are cut

Reading some bytes and then more is reading both, up to the heads of compressed messages.  So a
frame may be read as its header and its payload, each whole.
-/

namespace Teitunnel.Lens.Stream

namespace WsObserver

variable [Decompress]

/-! ## Pieces -/

/-- A report without the head of a compressed message. -/
def outline : Observed → Observed
  | .frame frame => .frame frame
  | .message message =>
      .message (if message.compressed then { message with head := [], inflated := false }
        else message)

/-- Observers that differ in what is inflated, and not at all where `exactly` holds. -/
structure Alike (exactly : Prop) (o o' : WsObserver) : Prop where
  rest : o' = { o with inflater := o'.inflater, msgHead := o'.msgHead }
  head : o.msgCompressed = false → o'.msgHead = o.msgHead
  same : exactly → o' = o
  plain : exactly → o.inflater = none

/-- Reports and observers that differ in what is inflated. -/
structure Agree (exactly : Prop) (r r' : WsObserver × List Observed) : Prop where
  state : Alike exactly r.1 r'.1
  reports : r'.2.map outline = r.2.map outline
  same : exactly → r'.2 = r.2

variable {exactly : Prop} {o o' o'' : WsObserver} {r r' r'' : WsObserver × List Observed}
  {data : List UInt8}

lemma Alike.refl (h : exactly → o.inflater = none) : Alike exactly o o :=
  ⟨rfl, fun _ => rfl, fun _ => rfl, h⟩

lemma Alike.trans (h : Alike exactly o o') (h' : Alike exactly o' o'') : Alike exactly o o'' := by
  have hcompressed : o'.msgCompressed = o.msgCompressed := by rw [h.rest]
  refine ⟨?_, fun hc => ?_, fun he => (h'.same he).trans (h.same he), h.plain⟩
  · conv_lhs => rw [h'.rest, h.rest]
  · exact (h'.head (hcompressed.trans hc)).trans (h.head hc)

lemma Alike.isBroken (h : Alike exactly o o') : o'.isBroken = o.isBroken := by
  rw [WsObserver.isBroken, h.rest]
  rfl

lemma Agree.refl (h : exactly → r.1.inflater = none) : Agree exactly r r :=
  ⟨.refl h, rfl, fun _ => rfl⟩

lemma Agree.trans (h : Agree exactly r r') (h' : Agree exactly r' r'') : Agree exactly r r'' :=
  ⟨h.state.trans h'.state, h'.reports.trans h.reports,
    fun he => (h'.same he).trans (h.same he)⟩

/-! ## What one step does -/

lemma payload_of_control (h : o.isControl = true) (chunk : List UInt8) :
    o.payload chunk = { o with
      control := o.control ++ unmask o.mask o.maskPos (chunk.take (125 - o.control.length))
      frameHead := o.frameHead ++ unmask o.mask o.maskPos (chunk.take (125 - o.control.length))
      maskPos := (o.maskPos + chunk.length) % 4 } := by
  unfold payload
  dsimp only
  rw [if_pos h]

/-- What is kept of a data frame that isn't compressed. -/
def keptBytes (o : WsObserver) (chunk : List UInt8) : List UInt8 :=
  unmask o.mask o.maskPos (chunk.take
    (max (o.frameBytes - o.frameHead.length) (o.previewBytes - o.msgHead.length)))

lemma payload_of_data (h : o.isControl = false) (hc : o.msgCompressed = false)
    (chunk : List UInt8) :
    o.payload chunk = { o with
      msgSize := (o.msgSize + chunk.length) % 2 ^ 64
      frameHead := o.frameHead ++ (o.keptBytes chunk).take (o.frameBytes - o.frameHead.length)
      msgHead := o.msgHead ++ (o.keptBytes chunk).take (o.previewBytes - o.msgHead.length)
      maskPos := (o.maskPos + chunk.length) % 4 } := by
  unfold payload compressed
  dsimp only
  rw [h, hc, if_neg Bool.false_ne_true, if_neg (by decide)]
  rfl

lemma payload_of_compressed (h : o.isControl = false) (hc : o.msgCompressed = true)
    (chunk : List UInt8) :
    ∃ inflater msgHead, o.payload chunk = { o with
        msgSize := (o.msgSize + chunk.length) % 2 ^ 64
        maskPos := (o.maskPos + chunk.length) % 4
        inflater := inflater
        msgHead := msgHead } ∧
      (o.inflater = none → inflater = none ∧ msgHead = o.msgHead) := by
  unfold payload compressed
  dsimp only
  rw [h, hc, if_neg Bool.false_ne_true, if_pos (by decide)]
  cases hinflater : o.inflater with
  | none => exact ⟨none, o.msgHead, rfl, fun _ => ⟨rfl, rfl⟩⟩
  | some inflater =>
      dsimp only
      split
      · exact ⟨o.inflater, o.msgHead, by rw [hinflater], nofun⟩
      · exact ⟨_, _, rfl, nofun⟩

lemma payload_of_inflating (h : o.isControl = false) (hc : o.msgCompressed = true)
    {inflater inflater' : Inflater} (hsome : o.inflater = some inflater)
    (hbroken : inflater.broken = false) {chunk msgHead : List UInt8}
    (hfeed : inflater.feed (unmask o.mask o.maskPos chunk) o.msgHead o.previewBytes =
      (inflater', msgHead)) :
    o.payload chunk = { o with
      msgSize := (o.msgSize + chunk.length) % 2 ^ 64
      maskPos := (o.maskPos + chunk.length) % 4
      inflater := some inflater'
      msgHead := msgHead } := by
  unfold payload compressed
  dsimp only
  rw [h, hc, if_neg Bool.false_ne_true, if_pos (by decide), hsome]
  dsimp only
  rw [hbroken, if_neg Bool.false_ne_true, hfeed]

lemma frameDone_of_control (h : o.isControl = true) : o.frameDone =
    ({ o with need := 2, header := [], frameHead := [], control := [] }, [.frame o.frameReport,
      .message (.plain (controlKind (frameOpcode o.opcode)) o.payloadLen
        (o.control.take (max o.previewBytes 2)))]) := by
  unfold frameDone
  dsimp only
  exact if_pos h

/-- An inflater that gave up gives nothing more. -/
lemma endMessage_of_broken {inflater : Inflater} (h : inflater.broken = true) (out : List UInt8)
    (keep : ℕ) :
    ∃ inflater', inflater.endMessage out keep = (inflater', out) ∧ inflater'.broken = true := by
  unfold Inflater.endMessage
  rw [Inflater.feed, if_pos h]
  exact ⟨_, rfl, h⟩

/-- A message that couldn't be inflated ends. -/
lemma frameDone_of_corrupt (h : o.isControl = false) (hfin : o.fin = true) {kind : MessageKind}
    (hkind : o.msgKind = some kind) (hc : o.msgCompressed = true) {inflater : Inflater}
    (hsome : o.inflater = some inflater) (hbroken : inflater.broken = true) :
    o.frameDone.2 = [.frame o.frameReport, .message ⟨kind, o.msgSize, o.msgHead, true, false⟩] := by
  obtain ⟨inflater', hend, hbroken'⟩ := endMessage_of_broken hbroken o.msgHead o.previewBytes
  unfold frameDone messageDone
  dsimp only
  rw [hfin, hkind, hc, hsome]
  dsimp only
  rw [if_pos rfl, hend]
  refine (congrArg Prod.snd (if_neg (ne_true_of_eq_false h))).trans ?_
  dsimp only
  rw [hbroken']
  rfl

lemma frameDone_of_open (h : o.isControl = false) (hopen : o.fin = false ∨ o.msgKind = none) :
    o.frameDone = ({ o with need := 2, header := [], frameHead := [] }, [.frame o.frameReport]) := by
  unfold frameDone
  dsimp only
  refine (if_neg (ne_true_of_eq_false h)).trans ?_
  rcases hopen with hfin | hkind
  · rw [hfin]
  · rw [hkind]
    cases o.fin <;> rfl

lemma frameDone_of_last (h : o.isControl = false) (hfin : o.fin = true) {kind : MessageKind}
    (hkind : o.msgKind = some kind) :
    ∃ inflater head inflated, o.frameDone =
      ({ o with
          need := 2, header := [], frameHead := [], msgKind := none, msgHead := []
          msgCompressed := false, inflater := inflater },
        [.frame o.frameReport, .message ⟨kind, o.msgSize, head, o.msgCompressed, inflated⟩]) ∧
      (o.msgCompressed = false → inflater = o.inflater ∧ head = o.msgHead ∧ inflated = false) ∧
      (o.inflater = none → inflater = none ∧ head = o.msgHead ∧ inflated = false) := by
  unfold frameDone messageDone
  dsimp only
  rw [hfin, hkind]
  refine ⟨_, _, _, if_neg (ne_true_of_eq_false h), ?_, ?_⟩
  · intro hc
    rw [hc]
    exact ⟨rfl, rfl, rfl⟩
  · intro hnone
    rw [hnone]
    dsimp only
    split
    · exact ⟨rfl, rfl, rfl⟩
    · exact ⟨rfl, rfl, rfl⟩

/-! ## Steps of observers that are alike -/

lemma payload_none (h : o.inflater = none) (chunk : List UInt8) :
    (o.payload chunk).inflater = none := by
  rcases hcontrol : o.isControl with _ | _
  · rcases hc : o.msgCompressed with _ | _
    · rw [payload_of_data hcontrol hc]
      exact h
    · obtain ⟨inflater, msgHead, hpayload, hnone⟩ := payload_of_compressed hcontrol hc chunk
      rw [hpayload]
      exact (hnone h).1
  · rw [payload_of_control hcontrol]
    exact h

lemma Alike.cases (h : Alike exactly o o') : (o' = o ∧ (exactly → o.inflater = none)) ∨
    ¬ exactly ∧ ∃ inflater msgHead, (o.msgCompressed = false → msgHead = o.msgHead) ∧
      o' = { o with inflater := inflater, msgHead := msgHead } := by
  by_cases he : exactly
  · exact .inl ⟨h.same he, h.plain⟩
  · exact .inr ⟨he, o'.inflater, o'.msgHead, h.head, h.rest⟩

lemma alike_with (he : ¬ exactly) {inflater : Option Inflater} {msgHead : List UInt8}
    (hhead : o.msgCompressed = false → msgHead = o.msgHead) :
    Alike exactly o { o with inflater := inflater, msgHead := msgHead } :=
  ⟨rfl, hhead, fun h => absurd h he, fun h => absurd h he⟩

lemma Alike.payload (h : Alike exactly o o') (chunk : List UInt8) :
    Alike exactly (o.payload chunk) (o'.payload chunk) := by
  rcases h.cases with ⟨rfl, hplain⟩ | ⟨he, inflater, msgHead, hhead, rfl⟩
  · exact .refl fun h' => payload_none (hplain h') chunk
  · generalize hother : { o with inflater := inflater, msgHead := msgHead } = other
    have hcontrol' : other.isControl = o.isControl := by rw [← hother]; rfl
    have hc' : other.msgCompressed = o.msgCompressed := by rw [← hother]
    rcases hcontrol : o.isControl with _ | _
    · rw [hcontrol] at hcontrol'
      rcases hc : o.msgCompressed with _ | _
      · have hkept : other.keptBytes chunk = o.keptBytes chunk := by
          rw [← hother, keptBytes, keptBytes, hhead hc]
        rw [payload_of_data hcontrol hc, payload_of_data hcontrol' (hc'.trans hc), hkept, ← hother,
          hhead hc]
        exact alike_with he fun _ => rfl
      · obtain ⟨inflater₁, head₁, hpayload, -⟩ := payload_of_compressed hcontrol hc chunk
        obtain ⟨inflater₂, head₂, hpayload', -⟩ := payload_of_compressed hcontrol' (hc'.trans hc)
          chunk
        rw [hpayload, hpayload', ← hother]
        exact alike_with he fun h' => absurd (hc.symm.trans h') nofun
    · rw [hcontrol] at hcontrol'
      rw [payload_of_control hcontrol, payload_of_control hcontrol', ← hother]
      exact alike_with he hhead

lemma frameDone_none (h : o.inflater = none) : o.frameDone.1.inflater = none := by
  rcases hcontrol : o.isControl with _ | _
  · rcases hfin : o.fin with _ | _
    · rw [frameDone_of_open hcontrol (.inl hfin)]
      exact h
    · rcases hkind : o.msgKind with _ | kind
      · rw [frameDone_of_open hcontrol (.inr hkind)]
        exact h
      · obtain ⟨inflater, head, inflated, hdone, -, hnone⟩ := frameDone_of_last hcontrol hfin hkind
        rw [hdone]
        exact (hnone h).1
  · rw [frameDone_of_control hcontrol]
    exact h

lemma Alike.frameDone (h : Alike exactly o o') : Agree exactly o.frameDone o'.frameDone := by
  rcases h.cases with ⟨rfl, hplain⟩ | ⟨he, inflater, msgHead, hhead, rfl⟩
  · exact .refl fun h' => frameDone_none (hplain h')
  · generalize hother : { o with inflater := inflater, msgHead := msgHead } = other
    have hcontrol' : other.isControl = o.isControl := by rw [← hother]; rfl
    have hreport : other.frameReport = o.frameReport := by rw [← hother]; rfl
    rcases hcontrol : o.isControl with _ | _
    · rw [hcontrol] at hcontrol'
      rcases hfin : o.fin with _ | _
      · have hfin' : other.fin = false := by rw [← hother]; exact hfin
        rw [frameDone_of_open hcontrol (.inl hfin), frameDone_of_open hcontrol' (.inl hfin'),
          hreport, ← hother]
        exact ⟨alike_with he hhead, rfl, fun _ => rfl⟩
      · have hfin' : other.fin = true := by rw [← hother]; exact hfin
        rcases hkind : o.msgKind with _ | kind
        · have hkind' : other.msgKind = none := by rw [← hother]; exact hkind
          rw [frameDone_of_open hcontrol (.inr hkind), frameDone_of_open hcontrol' (.inr hkind'),
            hreport, ← hother]
          exact ⟨alike_with he hhead, rfl, fun _ => rfl⟩
        · have hkind' : other.msgKind = some kind := by rw [← hother]; exact hkind
          obtain ⟨inflater₁, head₁, inflated₁, hdone, hdata, -⟩ :=
            frameDone_of_last hcontrol hfin hkind
          obtain ⟨inflater₂, head₂, inflated₂, hdone', hdata', -⟩ :=
            frameDone_of_last hcontrol' hfin' hkind'
          rw [hdone, hdone', hreport, ← hother]
          refine ⟨alike_with he fun _ => rfl, ?_, fun h' => absurd h' he⟩
          rcases hc : o.msgCompressed with _ | _
          · obtain ⟨-, hhead₁, hinflated₁⟩ := hdata hc
            obtain ⟨-, hhead₂, hinflated₂⟩ := hdata' (by rw [← hother]; exact hc)
            rw [hhead₁, hhead₂, hinflated₁, hinflated₂, ← hother, hhead hc]
          · rfl
    · rw [hcontrol] at hcontrol'
      rw [frameDone_of_control hcontrol, frameDone_of_control hcontrol', hreport, ← hother]
      exact ⟨alike_with he hhead, rfl, fun _ => rfl⟩

/-- A frame that begins changes only the message. -/
lemma beginFrame_eq (o : WsObserver) : o.beginFrame = none ∨
    ∃ control kind size head compressed, o.beginFrame = some { o with
      control := control, msgKind := kind, msgSize := size, msgHead := head
      msgCompressed := compressed } := by
  unfold beginFrame
  split
  · split
    · exact .inl rfl
    · exact .inr ⟨_, _, _, _, _, rfl⟩
  · exact .inr ⟨_, _, _, _, _, rfl⟩
  · exact .inr ⟨_, _, _, _, _, rfl⟩
  · split
    · exact .inl rfl
    · exact .inr ⟨_, _, _, _, _, rfl⟩
  · split
    · exact .inl rfl
    · exact .inr ⟨_, _, _, _, _, rfl⟩
  · split
    · exact .inl rfl
    · exact .inr ⟨_, _, _, _, _, rfl⟩
  · exact .inl rfl

/-- A frame begins the same way, whatever is inflated. -/
lemma Alike.beginFrame (h : Alike exactly o o') :
    Option.Rel (Alike exactly) o.beginFrame o'.beginFrame := by
  rcases h.cases with ⟨rfl, hplain⟩ | ⟨he, inflater, msgHead, hhead, rfl⟩
  · rcases o'.beginFrame_eq with hnone | ⟨control, kind, size, head, compressed, hsome⟩
    · rw [hnone]
      exact .none
    · rw [hsome]
      exact .some (.refl hplain)
  · have hgoes : Alike exactly o { o with inflater := inflater, msgHead := msgHead } :=
      alike_with he hhead
    unfold WsObserver.beginFrame
    dsimp only
    split
    · split
      · exact .none
      · exact .some hgoes
    · exact .some (alike_with he fun _ => rfl)
    · exact .some (alike_with he fun _ => rfl)
    · split
      · exact .none
      · exact .some (alike_with he hhead)
    · split
      · exact .none
      · exact .some (alike_with he hhead)
    · split
      · exact .none
      · exact .some (alike_with he hhead)
    · exact .none

/-- The frame of a whole header, with its opcode and its length. -/
def withHeader (o : WsObserver) : WsObserver :=
  { o with
    fin := (o.header.getD 0 0).toNat.testBit 7
    rsv1 := (o.header.getD 0 0).toNat.testBit 6
    opcode := (o.header.getD 0 0).toNat % 16
    mask := if (o.header.getD 1 0).toNat.testBit 7 then
      some ((o.header.drop (lengthOf o.header).2).take 4) else none
    maskPos := 0
    payloadLen := (lengthOf o.header).1
    payloadLeft := (lengthOf o.header).1
    header := []
    need := 0
    frameHead := [] }

/-- The frame begins, and ends when it has no payload. -/
def startFrame (o : WsObserver) : WsObserver × List Observed :=
  match o.beginFrame with
  | none => ({ o with broken := true }, [])
  | some started => if o.payloadLen = 0 then started.frameDone else (started, [])

lemma headerReady_short (h : o.header.length < 2 + extraBytes (o.header.getD 1 0)) :
    o.headerReady =
      ({ o with need := 2 + extraBytes (o.header.getD 1 0) - o.header.length }, []) := by
  unfold headerReady
  dsimp only
  rw [if_pos h]

lemma headerReady_long (h : 2 + extraBytes (o.header.getD 1 0) ≤ o.header.length)
    (hlong : 2 ^ 62 < (lengthOf o.header).1) :
    o.headerReady = ({ o with
      fin := (o.header.getD 0 0).toNat.testBit 7
      rsv1 := (o.header.getD 0 0).toNat.testBit 6
      opcode := (o.header.getD 0 0).toNat % 16
      broken := true }, []) := by
  unfold headerReady
  dsimp only
  rw [if_neg (by omega), if_pos hlong]

lemma headerReady_whole (h : 2 + extraBytes (o.header.getD 1 0) ≤ o.header.length)
    (hlong : (lengthOf o.header).1 ≤ 2 ^ 62) : o.headerReady = o.withHeader.startFrame := by
  unfold headerReady
  dsimp only
  rw [if_neg (by omega), if_neg (by omega)]
  rfl

lemma startFrame_none (h : o.inflater = none) : o.startFrame.1.inflater = none := by
  unfold startFrame
  rcases o.beginFrame_eq with hnone | ⟨control, kind, size, head, compressed, hsome⟩
  · rw [hnone]
    exact h
  · rw [hsome]
    dsimp only
    split
    · exact frameDone_none h
    · exact h

lemma Alike.broken (h : Alike exactly o o') :
    Alike exactly { o with broken := true } { o' with broken := true } := by
  rcases h.cases with ⟨rfl, hplain⟩ | ⟨he, inflater, msgHead, hhead, rfl⟩
  · exact .refl hplain
  · exact alike_with he hhead

lemma Alike.startFrame (h : Alike exactly o o') : Agree exactly o.startFrame o'.startFrame := by
  have hbegin := h.beginFrame
  have hlength : o'.payloadLen = o.payloadLen := by rw [h.rest]
  have hbroken := h.broken
  unfold WsObserver.startFrame
  rw [hlength]
  rw [hlength] at hbroken
  generalize o.beginFrame = started at hbegin
  generalize o'.beginFrame = started' at hbegin
  cases hbegin with
  | none => exact ⟨hbroken, rfl, fun _ => rfl⟩
  | some hstarted =>
      dsimp only
      split
      · exact hstarted.frameDone
      · exact ⟨hstarted, rfl, fun _ => rfl⟩

lemma Alike.headerReady (h : Alike exactly o o') : Agree exactly o.headerReady o'.headerReady := by
  have hheader : o'.header = o.header := by rw [h.rest]
  by_cases hshort : o.header.length < 2 + extraBytes (o.header.getD 1 0)
  · rw [headerReady_short hshort, headerReady_short (by rw [hheader]; exact hshort), hheader]
    rcases h.cases with ⟨rfl, hplain⟩ | ⟨he, inflater, msgHead, hhead, rfl⟩
    · exact .refl hplain
    · exact ⟨alike_with he hhead, rfl, fun _ => rfl⟩
  · have hwhole := Nat.le_of_not_lt hshort
    by_cases hlong : 2 ^ 62 < (lengthOf o.header).1
    · rw [headerReady_long hwhole hlong, headerReady_long (by rw [hheader]; exact hwhole)
        (by rw [hheader]; exact hlong), hheader]
      rcases h.cases with ⟨rfl, hplain⟩ | ⟨he, inflater, msgHead, hhead, rfl⟩
      · exact .refl hplain
      · exact ⟨alike_with he hhead, rfl, fun _ => rfl⟩
    · have hfits := Nat.le_of_not_lt hlong
      rw [headerReady_whole hwhole hfits, headerReady_whole (by rw [hheader]; exact hwhole)
        (by rw [hheader]; exact hfits)]
      refine Alike.startFrame ?_
      rcases h.cases with ⟨rfl, hplain⟩ | ⟨he, inflater, msgHead, hhead, rfl⟩
      · exact .refl hplain
      · exact alike_with he hhead

lemma Alike.readHeader (h : Alike exactly o o') (bytes : List UInt8) :
    Agree exactly (o.readHeader bytes) (o'.readHeader bytes) := by
  have hneed : o'.need = o.need := by rw [h.rest]
  have hmore : Alike exactly
      { o with header := o.header ++ bytes, need := o.need - bytes.length }
      { o' with header := o'.header ++ bytes, need := o'.need - bytes.length } := by
    rcases h.cases with ⟨rfl, hplain⟩ | ⟨he, inflater, msgHead, hhead, rfl⟩
    · exact .refl hplain
    · exact alike_with he hhead
  unfold WsObserver.readHeader
  dsimp only
  rw [hneed]
  rw [hneed] at hmore
  split
  · exact hmore.headerReady
  · exact ⟨hmore, rfl, fun _ => rfl⟩

lemma Alike.readPayload (h : Alike exactly o o') (bytes : List UInt8) :
    Agree exactly (o.readPayload bytes) (o'.readPayload bytes) := by
  have hpayload := h.payload bytes
  have hleft : (o'.payload bytes).payloadLeft = (o.payload bytes).payloadLeft := by
    rw [hpayload.rest]
  generalize hp : o.payload bytes = p at hpayload hleft
  generalize hp' : o'.payload bytes = p' at hpayload hleft
  have hmore : Alike exactly { p with payloadLeft := p.payloadLeft - bytes.length }
      { p' with payloadLeft := p'.payloadLeft - bytes.length } := by
    rcases hpayload.cases with ⟨rfl, hplain⟩ | ⟨he, inflater, msgHead, hhead, rfl⟩
    · exact .refl hplain
    · exact alike_with he hhead
  unfold WsObserver.readPayload
  dsimp only
  rw [hp, hp', hleft]
  rw [hleft] at hmore
  split
  · exact hmore.frameDone
  · exact ⟨hmore, rfl, fun _ => rfl⟩

/-! ## Reading more -/

/-- Reading on after some reports. -/
def andThen (r : WsObserver × List Observed) (data : List UInt8) : WsObserver × List Observed :=
  ((r.1.feed data).1, r.2 ++ (r.1.feed data).2)

lemma feed_stop (h : data = [] ∨ o.broken = true) : o.feed data = (o, []) := by
  rw [WsObserver.feed, dif_pos h]

omit [Decompress] in
lemma take_min_length (n : ℕ) (data : List UInt8) : data.take (min n data.length) = data.take n := by
  rw [List.take_eq_take_iff]
  omega

omit [Decompress] in
lemma drop_min_length (n : ℕ) (data : List UInt8) : data.drop (min n data.length) = data.drop n := by
  rcases Nat.le_total n data.length with hle | hle
  · rw [Nat.min_eq_left hle]
  · rw [Nat.min_eq_right hle, List.drop_length, List.drop_eq_nil_of_le hle]

lemma feed_header (h : ¬ (data = [] ∨ o.broken = true)) (hneed : 0 < o.need) :
    o.feed data = andThen (o.readHeader (data.take o.need)) (data.drop o.need) := by
  rw [WsObserver.feed, dif_neg h, dif_pos hneed]
  dsimp only
  rw [take_min_length, drop_min_length]
  rfl

lemma feed_payload (h : ¬ (data = [] ∨ o.broken = true)) (hneed : o.need = 0) :
    o.feed data = andThen (o.readPayload (data.take o.payloadLeft)) (data.drop o.payloadLeft) := by
  rw [WsObserver.feed, dif_neg h, dif_neg (by omega)]
  dsimp only
  rw [take_min_length, drop_min_length]
  rfl

/-- What holds at the end and is kept from after a step to before it holds of all reading. -/
lemma feed_induction {motive : WsObserver → List UInt8 → Prop}
    (stop : ∀ o data, data = [] ∨ o.broken = true → motive o data)
    (header : ∀ o data, ¬ (data = [] ∨ o.broken = true) → 0 < o.need →
      motive (o.readHeader (data.take o.need)).1 (data.drop o.need) → motive o data)
    (payload : ∀ o data, ¬ (data = [] ∨ o.broken = true) → o.need = 0 →
      motive (o.readPayload (data.take o.payloadLeft)).1 (data.drop o.payloadLeft) →
        motive o data) (o : WsObserver) (data : List UInt8) : motive o data := by
  induction o, data using WsObserver.feed.induct with
  | case1 o data hstop => exact stop o data hstop
  | case2 o data hgo hneed take read rest hread _ _ _ ih =>
      refine header o data hgo hneed ?_
      rw [show take = min o.need data.length from rfl, drop_min_length] at ih
      rw [show take = min o.need data.length from rfl, take_min_length] at hread
      rw [hread]
      exact ih
  | case3 o data hgo hneed take read _ _ _ ih =>
      refine payload o data hgo (by omega) ?_
      rw [show take = min o.payloadLeft data.length from rfl, drop_min_length] at ih
      rw [show read = o.readPayload (data.take take) from rfl,
        show take = min o.payloadLeft data.length from rfl, take_min_length] at ih
      exact ih

lemma Agree.andThen (h : Agree exactly r r')
    (hrest : Agree exactly (r.1.feed data) (r'.1.feed data)) :
    Agree exactly (WsObserver.andThen r data) (WsObserver.andThen r' data) := by
  refine ⟨hrest.state, ?_, fun he => ?_⟩
  · unfold WsObserver.andThen
    rw [List.map_append, List.map_append, h.reports, hrest.reports]
  · unfold WsObserver.andThen
    rw [h.same he, hrest.same he]

/-- Observers that are alike read alike. -/
lemma Alike.feed (h : Alike exactly o o') (data : List UInt8) :
    Agree exactly (o.feed data) (o'.feed data) := by
  induction o, data using feed_induction generalizing o' with
  | stop o data hstop =>
      have hbroken : o'.broken = o.broken := by rw [h.rest]
      rw [feed_stop hstop, feed_stop (by rw [hbroken]; exact hstop)]
      exact ⟨h, rfl, fun _ => rfl⟩
  | header o data hgo hneed ih =>
      have hbroken : o'.broken = o.broken := by rw [h.rest]
      have hneed' : o'.need = o.need := by rw [h.rest]
      have hread := h.readHeader (data.take o.need)
      rw [feed_header hgo hneed, feed_header (by rw [hbroken]; exact hgo)
        (by rw [hneed']; exact hneed), hneed']
      exact hread.andThen (ih hread.state)
  | payload o data hgo hneed ih =>
      have hbroken : o'.broken = o.broken := by rw [h.rest]
      have hneed' : o'.need = o.need := by rw [h.rest]
      have hleft : o'.payloadLeft = o.payloadLeft := by rw [h.rest]
      have hread := h.readPayload (data.take o.payloadLeft)
      rw [feed_payload hgo hneed, feed_payload (by rw [hbroken]; exact hgo)
        (by rw [hneed']; exact hneed), hleft]
      exact hread.andThen (ih hread.state)

/-! ## Two pieces of a payload -/

omit [Decompress] in
lemma unmask_append (mask : Option (List UInt8)) (pos : ℕ) (a c : List UInt8) :
    unmask mask pos (a ++ c) = unmask mask pos a ++ unmask mask ((pos + a.length) % 4) c := by
  cases mask with
  | none => rfl
  | some mask =>
      have hplace : ∀ i, (pos + (i + a.length)) % 4 = ((pos + a.length) % 4 + i) % 4 := by
        intro i
        omega
      unfold unmask
      dsimp only
      rw [List.mapIdx_append]
      congr 2
      funext i b
      rw [hplace]

omit [Decompress] in
@[simp]
lemma length_unmask (mask : Option (List UInt8)) (pos : ℕ) (a : List UInt8) :
    (unmask mask pos a).length = a.length := by
  cases mask with
  | none => rfl
  | some mask => exact List.length_mapIdx

omit [Decompress] in
lemma unmask_take (mask : Option (List UInt8)) (pos n : ℕ) (a : List UInt8) :
    unmask mask pos (a.take n) = (unmask mask pos a).take n := by
  cases mask with
  | none => rfl
  | some mask =>
      refine List.ext_getElem? fun i => ?_
      unfold unmask
      simp only [List.getElem?_mapIdx, List.getElem?_take]
      split
      · rfl
      · rfl

omit [Decompress] in
lemma unmask_nil (mask : Option (List UInt8)) (pos : ℕ) : unmask mask pos [] = [] := by
  cases mask <;> rfl

omit [Decompress] in
/-- What is kept of two pieces is what is kept of one and then of the other. -/
lemma unmask_take_append (mask : Option (List UInt8)) (pos limit : ℕ) (acc a c : List UInt8) :
    unmask mask pos ((a ++ c).take (limit - acc.length)) =
      unmask mask pos (a.take (limit - acc.length)) ++ unmask mask ((pos + a.length) % 4)
        (c.take (limit - (acc ++ unmask mask pos (a.take (limit - acc.length))).length)) := by
  have hroom : limit - (acc ++ unmask mask pos (a.take (limit - acc.length))).length =
      limit - acc.length - a.length := by
    rw [List.length_append, length_unmask, List.length_take]
    omega
  rw [hroom, List.take_append, unmask_append]
  congr 1
  rcases Nat.le_total a.length (limit - acc.length) with hle | hle
  · rw [List.take_of_length_le hle]
  · rw [Nat.sub_eq_zero_of_le hle, List.take_zero, unmask_nil, unmask_nil]

lemma payload_of_data' (h : o.isControl = false) (hc : o.msgCompressed = false)
    (chunk : List UInt8) :
    o.payload chunk = { o with
      msgSize := (o.msgSize + chunk.length) % 2 ^ 64
      frameHead := o.frameHead ++
        unmask o.mask o.maskPos (chunk.take (o.frameBytes - o.frameHead.length))
      msgHead := o.msgHead ++
        unmask o.mask o.maskPos (chunk.take (o.previewBytes - o.msgHead.length))
      maskPos := (o.maskPos + chunk.length) % 4 } := by
  have hkept : ∀ n ≤ max (o.frameBytes - o.frameHead.length) (o.previewBytes - o.msgHead.length),
      (o.keptBytes chunk).take n = unmask o.mask o.maskPos (chunk.take n) := by
    intro n hn
    rw [keptBytes, ← unmask_take, List.take_take, Nat.min_eq_left hn]
  rw [payload_of_data h hc, hkept _ (Nat.le_max_left _ _), hkept _ (Nat.le_max_right _ _)]

/-- Two pieces of a payload are read as one. -/
lemma payload_append (hplain : exactly → o.inflater = none) (a c : List UInt8) :
    Alike exactly (o.payload (a ++ c)) ((o.payload a).payload c) := by
  have hpos : ((o.maskPos + a.length) % 4 + c.length) % 4 = (o.maskPos + (a ++ c).length) % 4 := by
    rw [List.length_append]
    omega
  have hsize : ((o.msgSize + a.length) % 2 ^ 64 + c.length) % 2 ^ 64 =
      (o.msgSize + (a ++ c).length) % 2 ^ 64 := by
    rw [List.length_append]
    omega
  generalize hfirst : o.payload a = first
  rcases hcontrol : o.isControl with _ | _
  · rcases hc : o.msgCompressed with _ | _
    · have hread := payload_of_data' hcontrol hc a
      rw [hfirst] at hread
      have hcontrol' : first.isControl = false := by rw [hread]; exact hcontrol
      have hc' : first.msgCompressed = false := by rw [hread]; exact hc
      rw [payload_of_data' hcontrol hc, payload_of_data' hcontrol' hc', hread,
        unmask_take_append o.mask o.maskPos o.frameBytes o.frameHead a c,
        unmask_take_append o.mask o.maskPos o.previewBytes o.msgHead a c, ← List.append_assoc,
        ← List.append_assoc, ← hpos, ← hsize]
      exact .refl hplain
    · obtain ⟨inflater₁, head₁, hread, hnone₁⟩ := payload_of_compressed hcontrol hc a
      rw [hfirst] at hread
      have hcontrol' : first.isControl = false := by rw [hread]; exact hcontrol
      have hc' : first.msgCompressed = true := by rw [hread]; exact hc
      obtain ⟨inflater₂, head₂, hread', hnone₂⟩ := payload_of_compressed hcontrol' hc' c
      obtain ⟨inflater₃, head₃, hread'', hnone₃⟩ := payload_of_compressed hcontrol hc (a ++ c)
      by_cases he : exactly
      · obtain ⟨hinflater₁, hhead₁⟩ := hnone₁ (hplain he)
        obtain ⟨hinflater₃, hhead₃⟩ := hnone₃ (hplain he)
        obtain ⟨hinflater₂, hhead₂⟩ := hnone₂ (by rw [hread]; exact hinflater₁)
        rw [hread'', hread', hinflater₂, hhead₂, hinflater₃, hhead₃, hread, ← hpos, ← hsize, hhead₁]
        exact .refl fun _ => rfl
      · rw [hread'', hread', hread, ← hpos, ← hsize]
        exact alike_with he fun h' => absurd (hc.symm.trans h') nofun
  · have hread := payload_of_control hcontrol a
    rw [hfirst] at hread
    have hcontrol' : first.isControl = true := by rw [hread]; exact hcontrol
    rw [payload_of_control hcontrol, payload_of_control hcontrol', hread,
      unmask_take_append o.mask o.maskPos 125 o.control a c, ← List.append_assoc,
      ← List.append_assoc, ← hpos]
    exact .refl hplain

lemma feed_none (h : o.inflater = none) (data : List UInt8) :
    (o.feed data).1.inflater = none := by
  have hsame : Alike True o o := .refl fun _ => h
  exact ((hsame.feed data).state).plain trivial

lemma andThen_nil (r : WsObserver × List Observed) : andThen r [] = r := by
  rw [andThen, feed_stop (.inl rfl), List.append_nil]

lemma andThen_start (o : WsObserver) (data : List UInt8) : andThen (o, []) data = o.feed data := rfl

/-- Reading two pieces after some reports. -/
lemma Agree.assoc {first more : List UInt8}
    (h : Agree exactly (r.1.feed (first ++ more)) (WsObserver.andThen (r.1.feed first) more)) :
    Agree exactly (WsObserver.andThen r (first ++ more))
      (WsObserver.andThen (WsObserver.andThen r first) more) := by
  refine ⟨h.state, ?_, fun he => ?_⟩
  · have hreports := h.reports
    unfold WsObserver.andThen at hreports ⊢
    dsimp only at hreports ⊢
    rw [List.append_assoc, List.map_append, hreports, List.map_append]
  · have hsame := h.same he
    unfold WsObserver.andThen at hsame ⊢
    dsimp only at hsame ⊢
    rw [List.append_assoc, hsame]

/-- A header that isn't whole yet. -/
lemma readHeader_part (h : data.length < o.need) : o.readHeader data =
    ({ o with header := o.header ++ data, need := o.need - data.length }, []) := by
  unfold readHeader
  dsimp only
  rw [if_neg (by omega)]

lemma readHeader_append (o : WsObserver) (data more : List UInt8) :
    o.readHeader (data ++ more) =
      readHeader { o with header := o.header ++ data, need := o.need - data.length } more := by
  unfold readHeader
  dsimp only
  rw [← List.append_assoc, List.length_append, Nat.sub_add_eq]

/-- A payload that isn't whole yet. -/
lemma readPayload_part (h : data.length < o.payloadLeft) : o.readPayload data =
    ({ o.payload data with payloadLeft := o.payloadLeft - data.length }, []) := by
  unfold readPayload
  dsimp only
  rw [payload_payloadLeft, if_neg (by omega)]

lemma payload_need (o : WsObserver) (chunk : List UInt8) :
    (o.payload chunk).need = o.need ∧ (o.payload chunk).broken = o.broken := by
  rcases hcontrol : o.isControl with _ | _
  · rcases hc : o.msgCompressed with _ | _
    · rw [payload_of_data hcontrol hc]
      exact ⟨rfl, rfl⟩
    · obtain ⟨inflater, msgHead, hpayload, -⟩ := payload_of_compressed hcontrol hc chunk
      rw [hpayload]
      exact ⟨rfl, rfl⟩
  · rw [payload_of_control hcontrol]
    exact ⟨rfl, rfl⟩

lemma payload_left (o : WsObserver) (chunk : List UInt8) (n : ℕ) :
    payload { o with payloadLeft := n } chunk = { o.payload chunk with payloadLeft := n } := by
  unfold payload
  dsimp only
  rw [show isControl { o with payloadLeft := n } = o.isControl from rfl,
    show compressed { o with payloadLeft := n } = o.compressed from rfl]
  split
  · rfl
  · split
    · split
      · split
        · rfl
        · rfl
      · rfl
    · rfl

lemma Alike.withLeft (h : Alike exactly o o') (n : ℕ) :
    Alike exactly { o with payloadLeft := n } { o' with payloadLeft := n } := by
  rcases h.cases with ⟨rfl, hplain⟩ | ⟨he, inflater, msgHead, hhead, rfl⟩
  · exact .refl hplain
  · exact alike_with he hhead

/-- The end of a piece of a payload. -/
def endPayload (o : WsObserver) (n : ℕ) : WsObserver × List Observed :=
  if n = 0 then frameDone { o with payloadLeft := n } else ({ o with payloadLeft := n }, [])

lemma readPayload_eq (o : WsObserver) (bytes : List UInt8) :
    o.readPayload bytes = (o.payload bytes).endPayload (o.payloadLeft - bytes.length) := by
  unfold readPayload
  dsimp only
  rw [payload_payloadLeft]
  rfl

lemma Alike.endPayload (h : Alike exactly o o') (n : ℕ) :
    Agree exactly (o.endPayload n) (o'.endPayload n) := by
  have hleft := h.withLeft n
  unfold WsObserver.endPayload
  split
  · exact hleft.frameDone
  · exact ⟨hleft, rfl, fun _ => rfl⟩

lemma readPayload_append (hplain : exactly → o.inflater = none) (data more : List UInt8) :
    Agree exactly (o.readPayload (data ++ more)) (readPayload
      { o.payload data with payloadLeft := o.payloadLeft - data.length } more) := by
  have hboth := (payload_append hplain data more).endPayload
    (o.payloadLeft - (data ++ more).length)
  have hleft : ∀ (p : WsObserver) n m, WsObserver.endPayload { p with payloadLeft := n } m =
      p.endPayload m := fun _ _ _ => rfl
  rw [readPayload_eq, readPayload_eq,
    payload_left (o.payload data) more (o.payloadLeft - data.length), hleft]
  dsimp only
  rw [Nat.sub_sub, ← List.length_append]
  exact hboth

lemma readHeader_none (h : o.inflater = none) (bytes : List UInt8) :
    (o.readHeader bytes).1.inflater = none := by
  have hsame : Alike True o o := .refl fun _ => h
  exact (hsame.readHeader bytes).state.plain trivial

lemma readPayload_none (h : o.inflater = none) (bytes : List UInt8) :
    (o.readPayload bytes).1.inflater = none := by
  have hsame : Alike True o o := .refl fun _ => h
  exact (hsame.readPayload bytes).state.plain trivial

/-- More bytes after a header that isn't whole. -/
lemma feed_append_header (hgo : ¬ (data = [] ∨ o.broken = true)) (hpart : data.length < o.need)
    {more : List UInt8} (hmore : more ≠ []) :
    o.feed (data ++ more) = andThen (o.feed data) more := by
  have hneed : 0 < o.need := by omega
  have hgo' : ¬ (data ++ more = [] ∨ o.broken = true) := by
    rintro (hnil | hbroken)
    · exact hgo (.inl (List.append_eq_nil_iff.mp hnil).1)
    · exact hgo (.inr hbroken)
  have hgo'' : ¬ (more = [] ∨ o.broken = true) := not_or.mpr ⟨hmore, fun h => hgo (.inr h)⟩
  have hrest : 0 < o.need - data.length := Nat.sub_pos_of_lt hpart
  have hlast := feed_header
    (o := { o with header := o.header ++ data, need := o.need - data.length }) hgo'' hrest
  rw [feed_header hgo' hneed, feed_header hgo hneed, List.take_of_length_le hpart.le,
    List.drop_eq_nil_of_le hpart.le, andThen_nil, readHeader_part hpart, List.take_append,
    List.take_of_length_le hpart.le, List.drop_append, List.drop_eq_nil_of_le hpart.le,
    List.nil_append, readHeader_append, andThen_start]
  exact hlast.symm

/-- Reading some bytes and then more is reading both. -/
lemma feed_append (hplain : exactly → o.inflater = none) (data more : List UInt8) :
    Agree exactly (o.feed (data ++ more)) (andThen (o.feed data) more) := by
  by_cases hmore : more = []
  · rw [hmore, List.append_nil, andThen_nil]
    exact .refl fun he => feed_none (hplain he) _
  induction o, data using feed_induction with
  | stop o data hstop =>
      rw [feed_stop hstop]
      rcases hstop with rfl | hbroken
      · exact .refl fun he => feed_none (hplain he) _
      · rw [feed_stop (.inr hbroken), andThen, feed_stop (.inr hbroken)]
        exact .refl hplain
  | header o data hgo hneed ih =>
      rcases Nat.lt_or_ge data.length o.need with hpart | hwhole
      · rw [← feed_append_header hgo hpart hmore]
        exact .refl fun he => feed_none (hplain he) _
      · have hgo' : ¬ (data ++ more = [] ∨ o.broken = true) := by
          rintro (hnil | hbroken)
          · exact hgo (.inl (List.append_eq_nil_iff.mp hnil).1)
          · exact hgo (.inr hbroken)
        rw [feed_header hgo' hneed, feed_header hgo hneed, List.take_append_of_le_length hwhole,
          List.drop_append_of_le_length hwhole]
        exact Agree.assoc (ih fun he => readHeader_none (hplain he) _)
  | payload o data hgo hneed ih =>
      have hgo' : ¬ (data ++ more = [] ∨ o.broken = true) := by
        rintro (hnil | hbroken)
        · exact hgo (.inl (List.append_eq_nil_iff.mp hnil).1)
        · exact hgo (.inr hbroken)
      rcases Nat.lt_or_ge data.length o.payloadLeft with hpart | hwhole
      · obtain ⟨hneed', hbroken'⟩ := payload_need o data
        have hgo'' : ¬ (more = [] ∨ (o.payload data).broken = true) := by
          rw [hbroken']
          exact not_or.mpr ⟨hmore, fun h => hgo (.inr h)⟩
        have hlast := feed_payload
          (o := { o.payload data with payloadLeft := o.payloadLeft - data.length }) hgo''
          (hneed'.trans hneed)
        rw [feed_payload hgo' hneed, feed_payload hgo hneed, List.take_of_length_le hpart.le,
          List.drop_eq_nil_of_le hpart.le, andThen_nil, readPayload_part hpart, List.take_append,
          List.take_of_length_le hpart.le, List.drop_append, List.drop_eq_nil_of_le hpart.le,
          List.nil_append, andThen_start, hlast]
        have hread := readPayload_append hplain data (more.take (o.payloadLeft - data.length))
        exact hread.andThen (hread.state.feed _)
      · rw [feed_payload hgo' hneed, feed_payload hgo hneed,
          List.take_append_of_le_length hwhole, List.drop_append_of_le_length hwhole]
        exact Agree.assoc (ih fun he => readPayload_none (hplain he) _)

/-- Reads pieces, one after the other. -/
def feedAll (o : WsObserver) : List (List UInt8) → WsObserver × List Observed
  | [] => (o, [])
  | chunk :: rest =>
      let (o, out) := o.feed chunk
      let (o, more) := feedAll o rest
      (o, out ++ more)

/-- Reading pieces is reading what they are pieces of. -/
lemma feedAll_agree (hplain : exactly → o.inflater = none) (chunks : List (List UInt8)) :
    Agree exactly (o.feed chunks.flatten) (o.feedAll chunks) := by
  induction chunks generalizing o with
  | nil =>
      rw [List.flatten_nil, feed_stop (.inl rfl)]
      exact .refl hplain
  | cons chunk rest ih =>
      have hrest := ih (o := (o.feed chunk).1) fun he => feed_none (hplain he) chunk
      rw [List.flatten_cons]
      refine (feed_append hplain chunk rest.flatten).trans ⟨hrest.state, ?_, fun he => ?_⟩
      · show ((o.feed chunk).2 ++ ((o.feed chunk).1.feedAll rest).2).map outline =
          ((o.feed chunk).2 ++ ((o.feed chunk).1.feed rest.flatten).2).map outline
        rw [List.map_append, List.map_append, hrest.reports]
      · show (o.feed chunk).2 ++ ((o.feed chunk).1.feedAll rest).2 =
          (o.feed chunk).2 ++ ((o.feed chunk).1.feed rest.flatten).2
        rw [hrest.same he]

/-- Without compression nothing differs. -/
lemma Agree.eq (h : Agree True r r') : r' = r :=
  Prod.ext (h.state.same trivial) (h.same trivial)

lemma feed_append_eq (h : o.inflater = none) (data more : List UInt8) :
    o.feed (data ++ more) = andThen (o.feed data) more :=
  have hagree : Agree True (o.feed (data ++ more)) (andThen (o.feed data) more) :=
    feed_append (fun _ => h) data more
  hagree.eq.symm

end WsObserver

end Teitunnel.Lens.Stream
