import Teitunnel.Properties.Observers

/-!
# The frames of a WebSocket and what is reported of them

A frame as it is on the wire, a sequence of frames that one side may send, and what an observer is
to report of it.
-/

namespace Teitunnel.Lens.Stream

/-! ## Frames on the wire -/

namespace FrameOpcode

def toNat : FrameOpcode → ℕ
  | .continuation => 0x0
  | .text => 0x1
  | .binary => 0x2
  | .close => 0x8
  | .ping => 0x9
  | .pong => 0xa

def isControl : FrameOpcode → Bool
  | .close | .ping | .pong => true
  | _ => false

end FrameOpcode

/-- The three ways to write a length. -/
inductive LengthForm where
  | short
  | medium
  | long

namespace LengthForm

/-- The bytes that follow the first two. -/
def bytes : LengthForm → ℕ
  | .short => 0
  | .medium => 2
  | .long => 8

/-- The lengths that can be written. -/
def bound : LengthForm → ℕ
  | .short => 126
  | .medium => 2 ^ 16
  | .long => 2 ^ 62

/-- The seven bits of the second byte. -/
def sevenBits (length : ℕ) : LengthForm → ℕ
  | .short => length
  | .medium => 126
  | .long => 127

end LengthForm

/-- A frame, not compressed. -/
structure WireFrame where
  fin : Bool
  opcode : FrameOpcode
  mask : Option {key : List UInt8 // key.length = 4}
  form : LengthForm
  payload : List UInt8
  fits : payload.length < form.bound
  control : opcode.isControl = true → fin = true ∧ payload.length ≤ 125

namespace WireFrame

variable (f : WireFrame)

def maskBytes : Option (List UInt8) := f.mask.map Subtype.val

def first : UInt8 := UInt8.ofNat (f.opcode.toNat + if f.fin then 128 else 0)

def second : UInt8 :=
  UInt8.ofNat (f.form.sevenBits f.payload.length + if f.mask.isSome then 128 else 0)

def header : List UInt8 :=
  [f.first, f.second] ++ (Bytes.ofNat f.form.bytes f.payload.length ++ f.maskBytes.getD [])

/-- The payload with its mask. -/
def masked : List UInt8 :=
  match f.maskBytes with
  | some key => f.payload.mapIdx fun i b => b ^^^ key.getD (i % 4) 0
  | none => f.payload

def encode : List UInt8 := f.header ++ f.masked

end WireFrame

/-! ## Messages -/

/-- The message a sender is in the middle of: its kind and its payload so far. -/
abbrev Pending := Option (MessageKind × List UInt8)

/-- The message that a data frame is of, before its payload. -/
def begun (pending : Pending) : FrameOpcode → Pending
  | .text => some (.text, [])
  | .binary => some (.binary, [])
  | _ => pending

/-- The message with a data frame's payload. -/
def extended (pending : Pending) (f : WireFrame) : Pending :=
  (begun pending f.opcode).map fun (kind, bytes) => (kind, bytes ++ f.payload)

/-- The message a sender is in the middle of after a frame. -/
def after (pending : Pending) (f : WireFrame) : Pending :=
  if f.opcode.isControl then pending
  else if f.fin then none
  else extended pending f

/-- A frame that may be sent: a message goes on or one begins, control frames come anywhere. -/
def Allowed (pending : Pending) : FrameOpcode → Prop
  | .continuation => pending.isSome = true
  | .text | .binary => pending = none
  | _ => True

/-- Frames that may be sent one after the other. -/
def Legal : Pending → List WireFrame → Prop
  | _, [] => True
  | pending, f :: rest => Allowed pending f.opcode ∧ Legal (after pending f) rest

/-- What is to be reported of a frame, and of the message it ends.  Of a control frame two bytes
are kept at least. -/
def reportsOf (limits : PreviewLimits) (pending : Pending) (f : WireFrame) : List Observed :=
  if f.opcode.isControl then
    [.frame {
        opcode := f.opcode
        fin := f.fin
        masked := f.mask.isSome
        compressed := false
        size := f.payload.length
        head := f.payload.take (max limits.frameBytes 2)
        text := decide (f.opcode = .close) },
      .message (.plain (WsObserver.controlKind f.opcode) f.payload.length
        (f.payload.take (max limits.bytes 2)))]
  else
    .frame {
        opcode := f.opcode
        fin := f.fin
        masked := f.mask.isSome
        compressed := false
        size := f.payload.length
        head := f.payload.take limits.frameBytes
        text := decide ((begun pending f.opcode).map Prod.fst = some .text) } ::
      if f.fin then
        ((extended pending f).map fun (kind, bytes) =>
          Observed.message (.plain kind (bytes.length % 2 ^ 64) (bytes.take limits.bytes))).toList
      else []

/-- What is to be reported of frames. -/
def reports (limits : PreviewLimits) : Pending → List WireFrame → List Observed
  | _, [] => []
  | pending, f :: rest => reportsOf limits pending f ++ reports limits (after pending f) rest

/-! ## The header -/

namespace WireFrame

variable {f : WireFrame}

lemma first_toNat : f.first.toNat = f.opcode.toNat + if f.fin then 128 else 0 := by
  unfold first FrameOpcode.toNat
  cases f.opcode <;> cases f.fin <;> rfl

lemma first_bits : f.first.toNat.testBit 7 = f.fin ∧ f.first.toNat.testBit 6 = false ∧
    f.first.toNat % 16 = f.opcode.toNat := by
  rw [first_toNat]
  unfold FrameOpcode.toNat
  cases f.opcode <;> cases f.fin <;> decide

lemma sevenBits_lt : f.form.sevenBits f.payload.length < 128 := by
  have hfits := f.fits
  cases hform : f.form with
  | short =>
      rw [hform] at hfits
      exact hfits.trans (by decide)
  | medium => exact (by decide : 126 < 128)
  | long => exact (by decide : 127 < 128)

lemma second_toNat : f.second.toNat =
    f.form.sevenBits f.payload.length + if f.mask.isSome then 128 else 0 := by
  have hlt := f.sevenBits_lt
  rw [second, UInt8.toNat_ofNat']
  refine Nat.mod_eq_of_lt ?_
  split
  · omega
  · omega

lemma second_bits : f.second.toNat.testBit 7 = f.mask.isSome ∧
    f.second.toNat % 128 = f.form.sevenBits f.payload.length := by
  have hlt := f.sevenBits_lt
  have hbit : ∀ n, n < 128 → (n + 128).testBit 7 = true ∧ n.testBit 7 = false := by decide +kernel
  rw [second_toNat]
  cases f.mask.isSome with
  | false =>
      rw [if_neg Bool.false_ne_true, Nat.add_zero]
      exact ⟨(hbit _ hlt).2, Nat.mod_eq_of_lt hlt⟩
  | true =>
      rw [if_pos rfl]
      exact ⟨(hbit _ hlt).1, by omega⟩

lemma length_maskBytes : (f.maskBytes.getD []).length = if f.mask.isSome then 4 else 0 := by
  unfold maskBytes
  cases f.mask with
  | none => rfl
  | some key => exact key.property

lemma extraBytes_second : WsObserver.extraBytes f.second =
    f.form.bytes + (f.maskBytes.getD []).length := by
  have hfits := f.fits
  unfold WsObserver.extraBytes
  rw [second_bits.1, second_bits.2, length_maskBytes]
  congr 1
  cases hform : f.form with
  | short =>
      rw [hform] at hfits
      have hlt : f.payload.length < 126 := hfits
      rw [LengthForm.sevenBits]
      split
      · omega
      · omega
      · rfl
  | medium => rfl
  | long => rfl

lemma length_header : f.header.length = 2 + WsObserver.extraBytes f.second := by
  rw [header, List.length_append, List.length_append, Bytes.length_ofNat, extraBytes_second]
  rfl

lemma lengthOf_header : WsObserver.lengthOf f.header = (f.payload.length, 2 + f.form.bytes) := by
  have hfits := f.fits
  have hsecond : f.header.getD 1 0 = f.second := rfl
  unfold WsObserver.lengthOf
  rw [hsecond, second_bits.2]
  cases hform : f.form with
  | short =>
      rw [hform] at hfits
      have hlt : f.payload.length < 126 := hfits
      rw [LengthForm.sevenBits]
      split
      · omega
      · omega
      · rfl
  | medium =>
      rw [hform] at hfits
      have hbytes : (f.header.drop 2).take 2 = Bytes.ofNat 2 f.payload.length := by
        rw [header, hform]
        exact List.take_left' (Bytes.length_ofNat 2 _)
      have hlt : f.payload.length < 256 ^ 2 := hfits
      dsimp only [LengthForm.sevenBits]
      rw [hbytes, Bytes.toNat_ofNat, Nat.mod_eq_of_lt hlt]
      rfl
  | long =>
      rw [hform] at hfits
      have hbytes : (f.header.drop 2).take 8 = Bytes.ofNat 8 f.payload.length := by
        rw [header, hform]
        exact List.take_left' (Bytes.length_ofNat 8 _)
      have hlt : f.payload.length < 256 ^ 8 := lt_trans hfits (by decide)
      dsimp only [LengthForm.sevenBits]
      rw [hbytes, Bytes.toNat_ofNat, Nat.mod_eq_of_lt hlt]
      rfl

lemma mask_header {key : List UInt8} (h : f.maskBytes = some key) :
    (f.header.drop (2 + f.form.bytes)).take 4 = key := by
  have hlength : key.length = 4 := by
    have hlen := length_maskBytes (f := f)
    rw [h] at hlen
    have hsome : f.mask.isSome = true := by
      have := congrArg Option.isSome h
      rwa [maskBytes, Option.isSome_map] at this
    rw [hsome] at hlen
    exact hlen
  have hdrop : f.header.drop (2 + f.form.bytes) = key := by
    rw [header, h, ← List.append_assoc]
    refine List.drop_left' ?_
    rw [List.length_append, Bytes.length_ofNat]
    rfl
  rw [hdrop, List.take_of_length_le hlength.le]

lemma length_masked : f.masked.length = f.payload.length := by
  unfold masked
  split
  · exact List.length_mapIdx
  · rfl

/-- The mask taken off. -/
lemma unmask_masked : WsObserver.unmask f.maskBytes 0 f.masked = f.payload := by
  unfold WsObserver.unmask masked
  cases f.maskBytes with
  | none => rfl
  | some key =>
      refine List.ext_getElem? fun i => ?_
      simp only [List.getElem?_mapIdx, Nat.zero_add, Option.map_map]
      have hself : ∀ b : UInt8, b ^^^ key.getD (i % 4) 0 ^^^ key.getD (i % 4) 0 = b := by
        intro b
        rw [UInt8.xor_assoc, UInt8.xor_self, UInt8.xor_zero]
      rw [show ((fun b => b ^^^ key.getD (i % 4) 0) ∘ fun b => b ^^^ key.getD (i % 4) 0) = id from
        funext hself, Option.map_id, id]

end WireFrame

namespace WsObserver

variable [Decompress] {limits : PreviewLimits} {pending : Pending} {f : WireFrame} {o p : WsObserver}

/-! ## One frame -/

/-- An observer without compression, in the middle of a message or of none. -/
structure Follows (limits : PreviewLimits) (pending : Pending) (o : WsObserver) : Prop where
  previewBytes : o.previewBytes = limits.bytes
  frameBytes : o.frameBytes = limits.frameBytes
  broken : o.broken = false
  inflater : o.inflater = none
  msgCompressed : o.msgCompressed = false
  msgKind : o.msgKind = pending.map Prod.fst
  msgSize : ∀ m ∈ pending, o.msgSize = m.2.length % 2 ^ 64
  msgHead : ∀ m ∈ pending, o.msgHead = m.2.take limits.bytes

/-- An observer between two frames. -/
structure Between (limits : PreviewLimits) (pending : Pending) (o : WsObserver) : Prop
    extends Follows limits pending o where
  need : o.need = 2
  header : o.header = []
  frameHead : o.frameHead = []

/-- The message that the payload of a frame is of, before it. -/
def current (pending : Pending) (f : WireFrame) : Pending :=
  if f.opcode.isControl then pending else begun pending f.opcode

/-- An observer that has read a frame's header. -/
structure Started (limits : PreviewLimits) (pending : Pending) (f : WireFrame) (o : WsObserver) :
    Prop extends Follows limits (current pending f) o where
  need : o.need = 0
  header : o.header = []
  opcode : o.opcode = f.opcode.toNat
  fin : o.fin = f.fin
  mask : o.mask = f.maskBytes
  maskPos : o.maskPos = 0
  payloadLen : o.payloadLen = f.payload.length
  payloadLeft : o.payloadLeft = f.payload.length
  frameHead : o.frameHead = []
  control : f.opcode.isControl = true → o.control = []

/-- With a frame's header read. -/
def opened (o : WsObserver) (f : WireFrame) : WsObserver :=
  { o with
    fin := f.fin
    rsv1 := false
    opcode := f.opcode.toNat
    mask := f.maskBytes
    maskPos := 0
    payloadLen := f.payload.length
    payloadLeft := f.payload.length
    header := []
    need := 0
    frameHead := [] }

lemma withHeader_eq (hheader : o.header = f.header) : o.withHeader = o.opened f := by
  have hfirst : f.header.getD 0 0 = f.first := rfl
  have hsecond : f.header.getD 1 0 = f.second := rfl
  have hmask : (if f.second.toNat.testBit 7 then some ((f.header.drop (2 + f.form.bytes)).take 4)
      else none) = f.maskBytes := by
    rw [WireFrame.second_bits.1]
    cases hkey : f.mask with
    | none =>
        rw [WireFrame.maskBytes, hkey]
        rfl
    | some key =>
        have hbytes : f.maskBytes = some key.val := by rw [WireFrame.maskBytes, hkey]; rfl
        rw [WireFrame.mask_header hbytes, hbytes]
        rfl
  unfold withHeader opened
  rw [hheader, hfirst, hsecond, WireFrame.lengthOf_header, WireFrame.first_bits.1,
    WireFrame.first_bits.2.1, WireFrame.first_bits.2.2, hmask]

lemma headerReady_header (hheader : o.header = f.header) :
    o.headerReady = (o.opened f).startFrame := by
  have hsecond : o.header.getD 1 0 = f.second := by rw [hheader]; rfl
  have hlength : (lengthOf o.header).1 ≤ 2 ^ 62 := by
    have hfits := f.fits
    have hbound : f.form.bound ≤ 2 ^ 62 := by cases f.form <;> decide
    rw [hheader, WireFrame.lengthOf_header]
    exact le_trans hfits.le hbound
  rw [headerReady_whole (by rw [hsecond, hheader, WireFrame.length_header]) hlength,
    withHeader_eq hheader]

omit [Decompress] in
/-- What a frame's header has after its first two bytes. -/
lemma header_eq : ∃ rest, f.header = [f.first, f.second] ++ rest ∧
    rest.length = extraBytes f.second := by
  refine ⟨_, rfl, ?_⟩
  rw [List.length_append, Bytes.length_ofNat, WireFrame.extraBytes_second]

lemma feed_firstBytes (h : Between limits pending o) : o.feed [f.first, f.second] =
    headerReady { o with header := [f.first, f.second], need := 0 } := by
  have hgo : ¬ ([f.first, f.second] = [] ∨ o.broken = true) := by
    rw [h.broken]
    exact not_or.mpr ⟨nofun, nofun⟩
  rw [feed_header hgo (by rw [h.need]; decide), h.need]
  show andThen (o.readHeader [f.first, f.second]) [] = _
  rw [andThen_nil]
  unfold readHeader
  dsimp only
  rw [h.header, h.need]
  rfl

/-- A whole header is read, in one turn or two. -/
lemma feed_wholeHeader (h : Between limits pending o) :
    o.feed f.header = (o.opened f).startFrame := by
  obtain ⟨rest, hheader, hlength⟩ := header_eq (f := f)
  rw [hheader, feed_append_eq h.inflater, feed_firstBytes h]
  rcases Nat.eq_zero_or_pos (extraBytes f.second) with hzero | hpos
  · have hrest : rest = [] := List.length_eq_zero_iff.mp (hlength.trans hzero)
    subst hrest
    rw [andThen_nil]
    exact headerReady_header (o := { o with header := [f.first, f.second], need := 0 })
      hheader.symm
  · have hshort := headerReady_short (o := { o with header := [f.first, f.second], need := 0 })
      (show 2 < 2 + extraBytes f.second by omega)
    have hgo : ¬ (rest = [] ∨ o.broken = true) := by
      rw [h.broken]
      refine not_or.mpr ⟨?_, nofun⟩
      rintro rfl
      rw [← hlength] at hpos
      exact absurd hpos (lt_irrefl 0)
    have hneed : 2 + extraBytes f.second - 2 = rest.length := by omega
    have hfeed := feed_header
      (o := { o with header := [f.first, f.second], need := rest.length }) hgo
      (by show 0 < rest.length; omega)
    rw [hshort, andThen_start]
    show feed { o with header := [f.first, f.second], need := 2 + extraBytes f.second - 2 } rest = _
    rw [hneed, hfeed]
    dsimp only
    rw [List.take_length, List.drop_length, andThen_nil]
    unfold readHeader
    dsimp only
    rw [Nat.sub_self, if_pos rfl]
    exact headerReady_header (o := { o with header := [f.first, f.second] ++ rest, need := 0 })
      hheader.symm

lemma isControl_toNat (h : o.opcode = f.opcode.toNat) : o.isControl = f.opcode.isControl := by
  unfold isControl
  rw [h]
  cases f.opcode <;> rfl

lemma started_of {kind : Option MessageKind} {size : ℕ} {head control : List UInt8}
    (h : Follows limits (current pending f) { o.opened f with
      msgKind := kind, msgSize := size, msgHead := head, msgCompressed := false
      control := control })
    (hcontrol : f.opcode.isControl = true → control = []) :
    Started limits pending f { o.opened f with
      msgKind := kind, msgSize := size, msgHead := head, msgCompressed := false
      control := control } :=
  ⟨h, rfl, rfl, rfl, rfl, rfl, rfl, rfl, rfl, rfl, hcontrol⟩

/-! What begins with each kind of frame. -/

lemma beginFrame_continuation (h : f.opcode = .continuation) :
    (o.opened f).beginFrame = if o.msgKind.isNone then none else some (o.opened f) := by
  rw [beginFrame, opened, h]
  rfl

lemma beginFrame_text (h : f.opcode = .text) :
    (o.opened f).beginFrame = some { o.opened f with
      msgKind := some .text, msgSize := 0, msgHead := [], msgCompressed := false } := by
  rw [beginFrame, opened, h]
  rfl

lemma beginFrame_binary (h : f.opcode = .binary) :
    (o.opened f).beginFrame = some { o.opened f with
      msgKind := some .binary, msgSize := 0, msgHead := [], msgCompressed := false } := by
  rw [beginFrame, opened, h]
  rfl

lemma beginFrame_control (h : f.opcode.isControl = true) :
    (o.opened f).beginFrame = if f.payload.length > 125 ∨ f.fin = false then none
      else some { o.opened f with control := [] } := by
  rw [beginFrame, opened]
  revert h
  cases f.opcode <;> intro h <;> first | rfl | cases h

lemma beginFrame_allowed (h : Between limits pending o) (hallowed : Allowed pending f.opcode) :
    ∃ started, (o.opened f).beginFrame = some started ∧ Started limits pending f started := by
  have hgoes : current pending f = pending → ∀ control,
      Follows limits (current pending f) { o.opened f with
        msgKind := o.msgKind, msgSize := o.msgSize, msgHead := o.msgHead, msgCompressed := false
        control := control } := by
    intro hsame control
    rw [hsame]
    exact ⟨h.previewBytes, h.frameBytes, h.broken, h.inflater, rfl, h.msgKind, h.msgSize,
      h.msgHead⟩
  have hnew : ∀ kind, current pending f = some (kind, []) →
      Follows limits (current pending f) { o.opened f with
        msgKind := some kind, msgSize := 0, msgHead := [], msgCompressed := false
        control := o.control } := by
    intro kind hkind
    rw [hkind]
    refine ⟨h.previewBytes, h.frameBytes, h.broken, h.inflater, rfl, rfl, ?_, ?_⟩
    · rintro m ⟨⟩
      rfl
    · rintro m ⟨⟩
      exact List.take_nil.symm
  -- a control frame is short and the only one of its kind
  have hcontrol : f.opcode.isControl = true → ¬ (f.payload.length > 125 ∨ f.fin = false) := by
    intro hc
    obtain ⟨hfin, hshort⟩ := f.control hc
    rw [hfin]
    rintro (hlong | hfalse)
    · omega
    · cases hfalse
  have hclosed : f.opcode.isControl = true →
      ∃ started, (o.opened f).beginFrame = some started ∧ Started limits pending f started := by
    intro hc
    have hsame : current pending f = pending := if_pos hc
    rw [beginFrame_control hc, if_neg (hcontrol hc)]
    refine ⟨_, rfl, ?_⟩
    have hstarted := started_of (hgoes hsame []) fun _ => rfl
    rw [← h.msgCompressed] at hstarted
    exact hstarted
  have hdata : f.opcode.isControl = false → f.opcode.isControl = true → o.control = [] := by
    intro hd hc
    rw [hd] at hc
    cases hc
  cases hcode : f.opcode with
  | continuation =>
      rw [hcode] at hallowed
      have hkind : o.msgKind.isNone = false := by
        rw [h.msgKind, Option.isNone_map]
        exact Option.isNone_eq_false_iff.mpr hallowed
      have hsame : current pending f = pending := by rw [current, hcode]; rfl
      rw [beginFrame_continuation hcode, hkind, if_neg Bool.false_ne_true]
      refine ⟨_, rfl, ?_⟩
      have hstarted := started_of (hgoes hsame o.control) (hdata (by rw [hcode]; rfl))
      rw [← h.msgCompressed] at hstarted
      exact hstarted
  | text =>
      rw [beginFrame_text hcode]
      refine ⟨_, rfl, started_of (hnew .text (by rw [current, hcode]; rfl)) ?_⟩
      exact fun hc => hdata (by rw [hcode]; rfl) hc
  | binary =>
      rw [beginFrame_binary hcode]
      refine ⟨_, rfl, started_of (hnew .binary (by rw [current, hcode]; rfl)) ?_⟩
      exact fun hc => hdata (by rw [hcode]; rfl) hc
  | close => exact hclosed (by rw [hcode]; rfl)
  | ping => exact hclosed (by rw [hcode]; rfl)
  | pong => exact hclosed (by rw [hcode]; rfl)

/-- An observer that has read a frame's payload. -/
structure Finished (limits : PreviewLimits) (pending : Pending) (f : WireFrame) (o : WsObserver) :
    Prop extends Follows limits (if f.opcode.isControl then pending else extended pending f) o where
  opcode : o.opcode = f.opcode.toNat
  fin : o.fin = f.fin
  mask : o.mask = f.maskBytes
  payloadLen : o.payloadLen = f.payload.length
  control : f.opcode.isControl = true → o.control = f.payload ∧ o.frameHead = f.payload
  frameHead : f.opcode.isControl = false → o.frameHead = f.payload.take limits.frameBytes

/-- A message with more of its payload. -/
lemma Follows.extended {size : ℕ} {head : List UInt8}
    (h : Follows limits (begun pending f.opcode) o)
    (hsize : o.msgSize % 2 ^ 64 = o.msgSize → size = (o.msgSize + f.payload.length) % 2 ^ 64)
    (hhead : head = o.msgHead ++ f.payload.take (limits.bytes - o.msgHead.length))
    (hp : p.previewBytes = o.previewBytes ∧ p.frameBytes = o.frameBytes ∧ p.broken = o.broken ∧
      p.inflater = o.inflater ∧ p.msgCompressed = o.msgCompressed ∧ p.msgKind = o.msgKind ∧
      p.msgSize = size ∧ p.msgHead = head) :
    Follows limits (Stream.extended pending f) p := by
  obtain ⟨hpreview, hframe, hbroken, hinflater, hcompressed, hkind, hsize', hhead'⟩ := hp
  refine ⟨hpreview.trans h.previewBytes, hframe.trans h.frameBytes, hbroken.trans h.broken,
    hinflater.trans h.inflater, hcompressed.trans h.msgCompressed, ?_, ?_, ?_⟩
  · rw [hkind, h.msgKind, Stream.extended, Option.map_map]
    rfl
  · intro m hm
    obtain ⟨⟨kind, bytes⟩, hbegun, rfl⟩ := Option.mem_map.mp hm
    have hbefore : o.msgSize = bytes.length % 2 ^ 64 := h.msgSize _ hbegun
    rw [hsize', hsize (by rw [hbefore, Nat.mod_mod]), hbefore, List.length_append]
    omega
  · intro m hm
    obtain ⟨⟨kind, bytes⟩, hbegun, rfl⟩ := Option.mem_map.mp hm
    have hbefore : o.msgHead = bytes.take limits.bytes := h.msgHead _ hbegun
    have hroom : limits.bytes - (bytes.take limits.bytes).length = limits.bytes - bytes.length := by
      rw [List.length_take]
      omega
    rw [hhead', hhead, hbefore, hroom, List.take_append]

/-- A payload is read. -/
lemma Started.payload (h : Started limits pending f o) :
    Finished limits pending f (o.payload f.masked) := by
  have hunmask : ∀ n, unmask f.maskBytes 0 (f.masked.take n) = f.payload.take n := by
    intro n
    rw [unmask_take, WireFrame.unmask_masked]
  have hcontrol' := isControl_toNat h.opcode
  cases hcontrol : f.opcode.isControl with
  | true =>
      have hfollows := h.toFollows
      rw [current, if_pos hcontrol] at hfollows
      have hread : f.payload.take (125 - o.control.length) = f.payload := by
        rw [h.control hcontrol]
        exact List.take_of_length_le (f.control hcontrol).2
      rw [payload_of_control (hcontrol'.trans hcontrol), h.mask, h.maskPos, hunmask, hread,
        h.control hcontrol, h.frameHead]
      refine ⟨?_, h.opcode, h.fin, rfl, h.payloadLen, fun _ => ⟨rfl, rfl⟩, fun hdata => ?_⟩
      · rw [if_pos hcontrol]
        exact ⟨hfollows.previewBytes, hfollows.frameBytes, hfollows.broken, hfollows.inflater,
          hfollows.msgCompressed, hfollows.msgKind, hfollows.msgSize, hfollows.msgHead⟩
      · rw [hcontrol] at hdata
        exact absurd hdata nofun
  | false =>
      have hfollows := h.toFollows
      rw [current, hcontrol, if_neg Bool.false_ne_true] at hfollows
      rw [payload_of_data' (hcontrol'.trans hcontrol) h.msgCompressed, h.mask, h.maskPos, hunmask,
        hunmask, h.frameHead, h.frameBytes, WireFrame.length_masked, h.previewBytes]
      refine ⟨?_, h.opcode, h.fin, rfl, h.payloadLen, fun hc => ?_, fun _ => rfl⟩
      · rw [hcontrol, if_neg Bool.false_ne_true]
        exact hfollows.extended (fun _ => rfl) rfl ⟨h.previewBytes.symm, h.frameBytes.symm, rfl, rfl,
          rfl, rfl, rfl, rfl⟩
      · rw [hcontrol] at hc
        exact absurd hc nofun

/-- A frame without a payload is read with its header. -/
lemma Started.finished (h : Started limits pending f o) (hempty : f.payload = []) :
    Finished limits pending f o := by
  have hfollows := h.toFollows
  refine ⟨?_, h.opcode, h.fin, h.mask, h.payloadLen, fun hcontrol => ?_, fun _ => ?_⟩
  · cases hcontrol : f.opcode.isControl with
    | true =>
        rw [current, hcontrol] at hfollows
        exact hfollows
    | false =>
        rw [current, hcontrol, if_neg Bool.false_ne_true] at hfollows
        rw [if_neg Bool.false_ne_true]
        refine hfollows.extended ?_ ?_ ⟨rfl, rfl, rfl, rfl, rfl, rfl, rfl, rfl⟩
        · intro hsize
          rw [hempty, List.length_nil, Nat.add_zero, hsize]
        · rw [hempty, List.take_nil, List.append_nil]
  · rw [h.control hcontrol, h.frameHead, hempty]
    exact ⟨rfl, rfl⟩
  · rw [h.frameHead, hempty, List.take_nil]

lemma Finished.frameReport (h : Finished limits pending f o) : o.frameReport =
    { opcode := f.opcode
      fin := f.fin
      masked := f.mask.isSome
      compressed := false
      size := f.payload.length
      head := o.frameHead.take (max limits.frameBytes 2)
      text := decide (o.msgKind = some .text) && !f.opcode.isControl ||
        decide (f.opcode = .close) } := by
  have hopcode : frameOpcode o.opcode = f.opcode := by
    rw [h.opcode]
    cases f.opcode <;> rfl
  have hmask : o.mask.isSome = f.mask.isSome := by
    rw [h.mask, WireFrame.maskBytes, Option.isSome_map]
  have hcompressed : o.compressed = false := by
    rw [compressed, h.msgCompressed, Bool.and_false]
  unfold WsObserver.frameReport
  rw [hopcode, hmask, hcompressed, isControl_toNat h.opcode, h.fin, h.payloadLen, h.frameBytes]
  rfl

lemma Finished.controlDone (h : Finished limits pending f o)
    (hcontrol : f.opcode.isControl = true) :
    ∃ o', o.frameDone = (o', reportsOf limits pending f) ∧ Between limits (after pending f) o' := by
  have hfollows := h.toFollows
  rw [if_pos hcontrol] at hfollows
  obtain ⟨hbytes, hhead⟩ := h.control hcontrol
  have hopcode : frameOpcode o.opcode = f.opcode := by
    rw [h.opcode]
    cases f.opcode <;> rfl
  rw [frameDone_of_control ((isControl_toNat h.opcode).trans hcontrol), h.frameReport, hbytes,
    hhead, hopcode, h.payloadLen, h.previewBytes, after, if_pos hcontrol, reportsOf,
    if_pos hcontrol, hcontrol]
  refine ⟨_, Prod.ext rfl ?_, ⟨⟨rfl, hfollows.frameBytes, hfollows.broken,
    hfollows.inflater, hfollows.msgCompressed, hfollows.msgKind, hfollows.msgSize,
    hfollows.msgHead⟩, rfl, rfl, rfl⟩⟩
  dsimp only
  rw [Bool.not_true, Bool.and_false, Bool.false_or]

/-- A frame ends with its reports. -/
lemma Finished.frameDone (h : Finished limits pending f o) :
    ∃ o', o.frameDone = (o', reportsOf limits pending f) ∧ Between limits (after pending f) o' := by
  cases hcontrol : f.opcode.isControl with
  | true => exact h.controlDone hcontrol
  | false =>
      have hfollows := h.toFollows
      rw [hcontrol, if_neg Bool.false_ne_true] at hfollows
      have hdata := (isControl_toNat h.opcode).trans hcontrol
      have hclose : decide (f.opcode = .close) = false := by
        refine decide_eq_false ?_
        intro hopcode
        rw [hopcode] at hcontrol
        exact absurd hcontrol nofun
      have hkind : (Stream.extended pending f).map Prod.fst =
          (begun pending f.opcode).map Prod.fst := by
        rw [Stream.extended, Option.map_map]
        rfl
      have hreport : o.frameReport =
          { opcode := f.opcode
            fin := f.fin
            masked := f.mask.isSome
            compressed := false
            size := f.payload.length
            head := f.payload.take limits.frameBytes
            text := decide ((begun pending f.opcode).map Prod.fst = some .text) } := by
        rw [h.frameReport, h.frameHead hcontrol, List.take_take,
          Nat.min_eq_right (Nat.le_max_left _ _), hcontrol, hclose, Bool.not_false, Bool.and_true,
          Bool.or_false, hfollows.msgKind, hkind]
      unfold reportsOf after
      rw [hcontrol, if_neg Bool.false_ne_true, if_neg Bool.false_ne_true, ← hreport]
      cases hfin : f.fin with
      | false =>
          rw [frameDone_of_open hdata (.inl (h.fin.trans hfin)), if_neg Bool.false_ne_true,
            if_neg Bool.false_ne_true]
          exact ⟨_, rfl, ⟨⟨hfollows.previewBytes, hfollows.frameBytes, hfollows.broken,
            hfollows.inflater, hfollows.msgCompressed, hfollows.msgKind, hfollows.msgSize,
            hfollows.msgHead⟩, rfl, rfl, rfl⟩⟩
      | true =>
          rw [if_pos rfl, if_pos rfl]
          cases hmessage : Stream.extended pending f with
          | none =>
              rw [hmessage] at hfollows
              rw [frameDone_of_open hdata (.inr hfollows.msgKind)]
              exact ⟨_, rfl, ⟨⟨hfollows.previewBytes, hfollows.frameBytes, hfollows.broken,
                hfollows.inflater, hfollows.msgCompressed, hfollows.msgKind, nofun, nofun⟩,
                rfl, rfl, rfl⟩⟩
          | some message =>
              obtain ⟨kind, bytes⟩ := message
              rw [hmessage] at hfollows
              obtain ⟨inflater, head, inflated, hdone, hplain, -⟩ :=
                frameDone_of_last hdata (h.fin.trans hfin) hfollows.msgKind
              obtain ⟨rfl, rfl, rfl⟩ := hplain h.msgCompressed
              rw [hdone]
              refine ⟨_, Prod.ext rfl ?_, ⟨⟨hfollows.previewBytes, hfollows.frameBytes,
                hfollows.broken, hfollows.inflater, rfl, rfl, nofun, nofun⟩, rfl, rfl, rfl⟩⟩
              dsimp only
              rw [hfollows.msgSize (kind, bytes) rfl, hfollows.msgHead (kind, bytes) rfl,
                h.msgCompressed]
              rfl

/-- A frame is read whole. -/
lemma Between.frame (h : Between limits pending o) (hallowed : Allowed pending f.opcode) :
    ∃ o', o.feed f.encode = (o', reportsOf limits pending f) ∧
      Between limits (after pending f) o' := by
  obtain ⟨started, hbegin, hstarted⟩ := beginFrame_allowed h hallowed
  have hopened : (o.opened f).payloadLen = f.payload.length := rfl
  rw [WireFrame.encode, feed_append_eq h.inflater, feed_wholeHeader h, startFrame, hbegin]
  dsimp only
  rw [hopened]
  by_cases hempty : f.payload = []
  · have hmasked : f.masked = [] :=
      List.length_eq_zero_iff.mp (by rw [WireFrame.length_masked, hempty]; rfl)
    rw [if_pos (by rw [hempty]; rfl), hmasked, andThen_nil]
    exact (hstarted.finished hempty).frameDone
  · have hlength : f.payload.length ≠ 0 := fun h' => hempty (List.length_eq_zero_iff.mp h')
    have hmasked : f.masked.length = f.payload.length := WireFrame.length_masked
    have hgo : ¬ (f.masked = [] ∨ started.broken = true) := by
      rw [hstarted.broken]
      refine not_or.mpr ⟨fun hnil => ?_, nofun⟩
      rw [hnil] at hmasked
      exact hlength hmasked.symm
    rw [if_neg hlength, andThen_start, feed_payload hgo hstarted.need, hstarted.payloadLeft,
      ← hmasked, List.take_length, List.drop_length, andThen_nil, readPayload_eq,
      hstarted.payloadLeft, hmasked, Nat.sub_self, endPayload, if_pos rfl]
    have hfinished := hstarted.payload
    exact Finished.frameDone ⟨⟨hfinished.previewBytes, hfinished.frameBytes, hfinished.broken,
      hfinished.inflater, hfinished.msgCompressed, hfinished.msgKind, hfinished.msgSize,
      hfinished.msgHead⟩, hfinished.opcode, hfinished.fin, hfinished.mask, hfinished.payloadLen,
      hfinished.control, hfinished.frameHead⟩

/-- Frames are read one after the other. -/
lemma Between.frames {frames : List WireFrame} (h : Between limits pending o)
    (hlegal : Legal pending frames) :
    ∃ o', o.feed (frames.flatMap WireFrame.encode) = (o', reports limits pending frames) ∧
      Between limits (frames.foldl after pending) o' := by
  induction frames generalizing o pending with
  | nil => exact ⟨o, feed_stop (.inl rfl), h⟩
  | cons f rest ih =>
      obtain ⟨hallowed, hrest⟩ := hlegal
      obtain ⟨o₁, hfeed, hbetween⟩ := h.frame hallowed
      obtain ⟨o₂, hmore, hlast⟩ := ih hbetween hrest
      refine ⟨o₂, ?_, hlast⟩
      rw [List.flatMap_cons, feed_append_eq h.inflater, hfeed, andThen, hmore]
      rfl

/-- Nothing ends among bytes of a header that isn't whole. -/
lemma feed_partHeader {data : List UInt8} (h : data.length < o.need) (hbroken : o.broken = false) :
    (o.feed data).2 = [] ∧ (o.feed data).1.broken = false := by
  by_cases hstop : data = [] ∨ o.broken = true
  · rw [feed_stop hstop]
    exact ⟨rfl, hbroken⟩
  · rw [feed_header hstop (by omega), List.take_of_length_le h.le, List.drop_eq_nil_of_le h.le,
      andThen_nil, readHeader_part h]
    exact ⟨rfl, hbroken⟩

/-- Nothing ends among bytes of a payload that isn't whole. -/
lemma feed_partPayload {data : List UInt8} (hneed : o.need = 0) (h : data.length < o.payloadLeft)
    (hbroken : o.broken = false) : (o.feed data).2 = [] ∧ (o.feed data).1.broken = false := by
  by_cases hstop : data = [] ∨ o.broken = true
  · rw [feed_stop hstop]
    exact ⟨rfl, hbroken⟩
  · rw [feed_payload hstop hneed, List.take_of_length_le h.le, List.drop_eq_nil_of_le h.le,
      andThen_nil, readPayload_part h]
    exact ⟨rfl, (payload_need o data).2.trans hbroken⟩

/-- Nothing is reported of a frame before it ends. -/
lemma Between.part (h : Between limits pending o) (hallowed : Allowed pending f.opcode)
    {part : List UInt8} (hpart : part <+: f.encode) (hne : part ≠ f.encode) :
    (o.feed part).2 = [] ∧ (o.feed part).1.broken = false := by
  obtain ⟨rest, hheader, hlength⟩ := header_eq (f := f)
  have hbefore := List.prefix_append f.header f.masked
  rcases Nat.lt_or_ge part.length f.header.length with hinside | hbehind
  · rcases Nat.lt_or_ge part.length 2 with hshort | htwo
    · exact feed_partHeader (by rw [h.need]; exact hshort) h.broken
    · have hbegins : part <+: [f.first, f.second] ++ rest :=
        hheader ▸ List.prefix_of_prefix_length_le hpart hbefore hinside.le
      obtain ⟨more, rfl⟩ := List.prefix_of_prefix_length_le
        (List.prefix_append [f.first, f.second] rest) hbegins htwo
      have hneed : more.length < 2 + extraBytes f.second - 2 := by
        rw [WireFrame.length_header, List.length_append] at hinside
        have htwo' : [f.first, f.second].length = 2 := rfl
        omega
      have hheader' := headerReady_short
        (o := { o with header := [f.first, f.second], need := 0 })
        (show 2 < 2 + extraBytes f.second by omega)
      rw [feed_append_eq h.inflater, feed_firstBytes h, hheader', andThen_start]
      exact feed_partHeader hneed h.broken
  · obtain ⟨more, rfl⟩ := List.prefix_of_prefix_length_le hbefore hpart hbehind
    have hmore : more.length < f.payload.length := by
      have hbegins : more <+: f.masked := (List.prefix_append_right_inj f.header).mp hpart
      rw [← WireFrame.length_masked]
      refine lt_of_le_of_ne hbegins.length_le fun heq => hne ?_
      rw [hbegins.eq_of_length heq]
      rfl
    obtain ⟨started, hbegin, hstarted⟩ := beginFrame_allowed h hallowed
    have hopened : (o.opened f).payloadLen ≠ 0 := by
      show f.payload.length ≠ 0
      omega
    rw [feed_append_eq h.inflater, feed_wholeHeader h, startFrame, hbegin]
    dsimp only
    rw [if_neg hopened, andThen_start]
    exact feed_partPayload hstarted.need (by rw [hstarted.payloadLeft]; exact hmore)
      hstarted.broken

end WsObserver

/-- The bytes of frames. -/
def encodeAll (frames : List WireFrame) : List UInt8 := frames.flatMap WireFrame.encode

/-- A beginning of one more frame, or nothing. -/
def IsPart (frames : List WireFrame) (part : List UInt8) : Prop :=
  part = [] ∨ ∃ next, Legal none (frames ++ [next]) ∧ part <+: next.encode ∧ part ≠ next.encode

lemma legal_append {pending : Pending} {frames : List WireFrame} {f : WireFrame}
    (h : Legal pending (frames ++ [f])) :
    Legal pending frames ∧ Allowed (frames.foldl after pending) f.opcode := by
  induction frames generalizing pending with
  | nil => exact ⟨trivial, h.1⟩
  | cons g rest ih =>
      obtain ⟨hallowed, hrest⟩ := h
      obtain ⟨hlegal, hlast⟩ := ih hrest
      exact ⟨⟨hallowed, hlegal⟩, hlast⟩

section

variable [Decompress]

/-- An observer reports each frame, and each message, when it ends, however the bytes come.  What
it reports of any bytes doesn't depend on how they come, but for what is inflated. -/
theorem frames_observed (limits : PreviewLimits) :
    (∀ frames part chunks, Legal none frames → IsPart frames part →
      chunks.flatten = encodeAll frames ++ part →
        ((WsObserver.new limits none).feedAll chunks).2 = reports limits none frames ∧
        ((WsObserver.new limits none).feedAll chunks).1.isBroken = false) ∧
    ∀ deflate chunks chunks', chunks.flatten = chunks'.flatten →
      (((WsObserver.new limits deflate).feedAll chunks).2.map WsObserver.outline =
        ((WsObserver.new limits deflate).feedAll chunks').2.map WsObserver.outline) ∧
      ((WsObserver.new limits deflate).feedAll chunks).1.isBroken =
        ((WsObserver.new limits deflate).feedAll chunks').1.isBroken ∧
      (deflate = none → (WsObserver.new limits deflate).feedAll chunks =
        (WsObserver.new limits deflate).feedAll chunks') := by
  refine ⟨fun frames part chunks hlegal hpart hchunks => ?_, fun deflate chunks chunks' hsame => ?_⟩
  · have hplain : (WsObserver.new limits none).inflater = none := rfl
    have hbetween : WsObserver.Between limits none (WsObserver.new limits none) :=
      ⟨⟨rfl, rfl, rfl, rfl, rfl, rfl, nofun, nofun⟩, rfl, rfl, rfl⟩
    have hall : WsObserver.Agree True _ _ := WsObserver.feedAll_agree (fun _ => hplain) chunks
    obtain ⟨o, hfeed, hlast⟩ := hbetween.frames hlegal
    rw [hall.eq, hchunks, WsObserver.feed_append_eq hplain, encodeAll, hfeed, WsObserver.andThen]
    have hrest : (o.feed part).2 = [] ∧ (o.feed part).1.broken = false := by
      rcases hpart with rfl | ⟨next, hnext, hbegins, hne⟩
      · rw [WsObserver.feed_stop (.inl rfl)]
        exact ⟨rfl, hlast.broken⟩
      · exact hlast.part (legal_append hnext).2 hbegins hne
    dsimp only
    rw [hrest.1, List.append_nil]
    exact ⟨rfl, hrest.2⟩
  · have hplain : deflate = none → (WsObserver.new limits deflate).inflater = none := by
      rintro rfl
      rfl
    have hread := WsObserver.feedAll_agree hplain chunks
    have hread' := WsObserver.feedAll_agree hplain chunks'
    rw [hsame] at hread
    refine ⟨hread.reports.trans hread'.reports.symm,
      hread.state.isBroken.trans hread'.state.isBroken.symm, fun hnone => ?_⟩
    exact Prod.ext ((hread.state.same hnone).trans (hread'.state.same hnone).symm)
      ((hread.same hnone).trans (hread'.same hnone).symm)

end

/-- What a decompressor reads of blocks that are stored as they are: it keeps a block that isn't
whole and reads no others. -/
def readStored : ℕ → List UInt8 → Option (List UInt8 × List UInt8)
  | 0, bytes => some ([], bytes)
  | _, [] => some ([], [])
  | n + 1, kind :: rest =>
      if kind ≠ 0 then none
      else
        let length := (rest.getD 0 0).toNat + 256 * (rest.getD 1 0).toNat
        if rest.length < 4 + length then some ([], kind :: rest)
        else
          (readStored n (rest.drop (4 + length))).map fun (out, left) =>
            ((rest.drop 4).take length ++ out, left)

section

/-- A decompressor of stored blocks. -/
local instance stored : Decompress where
  State := List UInt8
  new := []
  decompress state input _ :=
    (readStored input.length (state ++ input)).map fun (out, left) => (input.length, out, left)

/-- A close frame with the code 1000. -/
def goingAway : WireFrame where
  fin := true
  opcode := .close
  mask := none
  form := .short
  payload := [0x03, 0xe8]
  fits := by decide
  control _ := ⟨rfl, by decide⟩

/-- The frames of a message with a ping in between. -/
def pinged : List WireFrame :=
  [{ fin := false
     opcode := .text
     mask := some ⟨[1, 2, 3, 4], rfl⟩
     form := .short
     payload := [0x68, 0x65]
     fits := by decide
     control := nofun },
   { fin := true
     opcode := .ping
     mask := none
     form := .short
     payload := []
     fits := by decide
     control := fun _ => ⟨rfl, by decide⟩ },
   { fin := true
     opcode := .continuation
     mask := none
     form := .medium
     payload := [0x79]
     fits := by decide
     control := nofun }]

/-- Such a message, a byte at a time. -/
theorem frames_observed_pinged :
    ((WsObserver.new ⟨100, 100⟩ none).feedAll ((encodeAll pinged).map fun b => [b])).2 =
      reports ⟨100, 100⟩ none pinged := by
  have hflatten : ((encodeAll pinged).map fun b => [b]).flatten = encodeAll pinged ++ [] := by
    decide +kernel
  have hlegal : Legal none pinged := ⟨rfl, trivial, rfl, trivial⟩
  exact ((frames_observed ⟨100, 100⟩).1 pinged [] _ hlegal (.inl rfl) hflatten).1

/-- The bytes of a compressed frame: a stored block of one byte, and what is no block. -/
def corrupt : List UInt8 := [0xc2, 0x07, 0x00, 0x01, 0x00, 0xfe, 0xff, 0x61, 0x07]

/-- An observer of compressed messages that read the header of `corrupt`. -/
def corruptHeader : WsObserver :=
  { WsObserver.new ⟨100, 100⟩ (some false) with
    fin := true
    rsv1 := true
    opcode := 2
    payloadLen := 7
    payloadLeft := 7
    need := 0
    msgKind := some .binary
    msgCompressed := true }

lemma feed_corrupt (data : List UInt8) :
    (WsObserver.new ⟨100, 100⟩ (some false)).feed ([0xc2, 0x07] ++ data) =
      corruptHeader.feed data := by
  have hgo : ¬ ([0xc2, 0x07] ++ data = [] ∨
      (WsObserver.new ⟨100, 100⟩ (some false)).broken = true) := not_or.mpr ⟨nofun, nofun⟩
  have hheader : (WsObserver.new ⟨100, 100⟩ (some false)).readHeader [0xc2, 0x07] =
      (corruptHeader, []) := Prod.ext rfl rfl
  rw [WsObserver.feed_header hgo (by decide)]
  show WsObserver.andThen ((WsObserver.new ⟨100, 100⟩ (some false)).readHeader [0xc2, 0x07]) data = _
  rw [hheader, WsObserver.andThen_start]

/-- Read whole, nothing of the message comes out. -/
lemma feed_corrupt_whole :
    ((WsObserver.new ⟨100, 100⟩ (some false)).feed corrupt).2 =
      [.frame ⟨.binary, true, false, true, 7, [], false⟩,
        .message ⟨.binary, 7, [], true, false⟩] := by
  have hgo : ¬ ([0x00, 0x01, 0x00, 0xfe, 0xff, 0x61, 0x07] = ([] : List UInt8) ∨
      corruptHeader.broken = true) := not_or.mpr ⟨nofun, nofun⟩
  have hfeed : Inflater.feed ⟨[], false, false, 0⟩ [0x00, 0x01, 0x00, 0xfe, 0xff, 0x61, 0x07] []
      100 = (⟨[], false, true, 0⟩, []) := by
    rw [Inflater.feed]
    rfl
  have hpayload : corruptHeader.payload [0x00, 0x01, 0x00, 0xfe, 0xff, 0x61, 0x07] =
      { corruptHeader with
        msgSize := 7
        maskPos := 3
        inflater := some ⟨[], false, true, 0⟩ } :=
    WsObserver.payload_of_inflating rfl rfl rfl rfl hfeed
  rw [show corrupt = [0xc2, 0x07] ++ [0x00, 0x01, 0x00, 0xfe, 0xff, 0x61, 0x07] from rfl,
    feed_corrupt, WsObserver.feed_payload hgo rfl]
  show (WsObserver.andThen
    (corruptHeader.readPayload [0x00, 0x01, 0x00, 0xfe, 0xff, 0x61, 0x07]) []).2 = _
  rw [WsObserver.andThen_nil, WsObserver.readPayload_eq, hpayload]
  exact WsObserver.frameDone_of_corrupt (o := { corruptHeader with
    msgSize := 7, maskPos := 3, payloadLeft := 0, inflater := some ⟨[], false, true, 0⟩ })
    rfl rfl rfl rfl rfl rfl

/-- An observer that read the stored block too. -/
def corruptBlock : WsObserver :=
  { corruptHeader with
    payloadLeft := 1
    maskPos := 2
    msgSize := 6
    msgHead := [0x61]
    inflater := some ⟨[], false, false, 1⟩ }

lemma feed_corrupt_block :
    corruptHeader.feed [0x00, 0x01, 0x00, 0xfe, 0xff, 0x61] = (corruptBlock, []) := by
  have hgo : ¬ ([0x00, 0x01, 0x00, 0xfe, 0xff, 0x61] = ([] : List UInt8) ∨
      corruptHeader.broken = true) := not_or.mpr ⟨nofun, nofun⟩
  have hfeed : Inflater.feed ⟨[], false, false, 0⟩ [0x00, 0x01, 0x00, 0xfe, 0xff, 0x61] [] 100 =
      (⟨[], false, false, 1⟩, [0x61]) := by
    rw [Inflater.feed]
    rfl
  have hpayload : corruptHeader.payload [0x00, 0x01, 0x00, 0xfe, 0xff, 0x61] =
      { corruptHeader with
        msgSize := 6
        maskPos := 2
        msgHead := [0x61]
        inflater := some ⟨[], false, false, 1⟩ } :=
    WsObserver.payload_of_inflating rfl rfl rfl rfl hfeed
  rw [WsObserver.feed_payload hgo rfl]
  show WsObserver.andThen
    (corruptHeader.readPayload [0x00, 0x01, 0x00, 0xfe, 0xff, 0x61]) [] = _
  rw [WsObserver.andThen_nil, WsObserver.readPayload_part (by decide), hpayload]
  rfl

/-- Read in two pieces, the stored byte comes out. -/
lemma feed_corrupt_pieces :
    ((WsObserver.new ⟨100, 100⟩ (some false)).feedAll [corrupt.take 8, corrupt.drop 8]).2 =
      [.frame ⟨.binary, true, false, true, 7, [], false⟩,
        .message ⟨.binary, 7, [0x61], true, false⟩] := by
  have hgo : ¬ ([0x07] = ([] : List UInt8) ∨ corruptBlock.broken = true) :=
    not_or.mpr ⟨nofun, nofun⟩
  have hfirst : (WsObserver.new ⟨100, 100⟩ (some false)).feed (corrupt.take 8) =
      (corruptBlock, []) := (feed_corrupt _).trans feed_corrupt_block
  have hfeed : Inflater.feed ⟨[], false, false, 1⟩ [0x07] [0x61] 100 =
      (⟨[], false, true, 1⟩, [0x61]) := by
    rw [Inflater.feed]
    rfl
  have hpayload : corruptBlock.payload [0x07] =
      { corruptBlock with
        msgSize := 7
        maskPos := 3
        inflater := some ⟨[], false, true, 1⟩ } :=
    WsObserver.payload_of_inflating rfl rfl rfl rfl hfeed
  have hlast : (corruptBlock.feed [0x07]).2 =
      [.frame ⟨.binary, true, false, true, 7, [], false⟩,
        .message ⟨.binary, 7, [0x61], true, false⟩] := by
    rw [WsObserver.feed_payload hgo rfl]
    show (WsObserver.andThen (corruptBlock.readPayload [0x07]) []).2 = _
    rw [WsObserver.andThen_nil, WsObserver.readPayload_eq, hpayload]
    exact WsObserver.frameDone_of_corrupt (o := { corruptBlock with
      msgSize := 7, maskPos := 3, payloadLeft := 0, inflater := some ⟨[], false, true, 1⟩ })
      rfl rfl rfl rfl rfl rfl
  show ((WsObserver.new ⟨100, 100⟩ (some false)).feed (corrupt.take 8)).2 ++
    ((((WsObserver.new ⟨100, 100⟩ (some false)).feed (corrupt.take 8)).1.feed [0x07]).2 ++ []) = _
  rw [hfirst, hlast]
  rfl

/-- Two bytes of a control frame are kept where none should be, and a message that can't be
inflated is reported with what came out of it before, which hangs on the pieces. -/
theorem frames_misread :
    (¬ ∀ limits frames chunks, Legal none frames → chunks.flatten = encodeAll frames →
      ∀ frame ∈ frames.head?, ∀ report rest,
        ((WsObserver.new limits none).feedAll chunks).2 = .frame report :: rest →
          report.head = frame.payload.take limits.frameBytes) ∧
    ¬ ∀ limits deflate chunks chunks', chunks.flatten = chunks'.flatten →
      ((WsObserver.new limits deflate).feedAll chunks).2 =
        ((WsObserver.new limits deflate).feedAll chunks').2 := by
  constructor
  · intro hall
    have hbetween : WsObserver.Between ⟨0, 0⟩ none (WsObserver.new ⟨0, 0⟩ none) :=
      ⟨⟨rfl, rfl, rfl, rfl, rfl, rfl, nofun, nofun⟩, rfl, rfl, rfl⟩
    obtain ⟨o, hfeed, -⟩ := hbetween.frame (f := goingAway) trivial
    have hreport : ((WsObserver.new ⟨0, 0⟩ none).feedAll [goingAway.encode]).2 =
        .frame ⟨.close, true, false, false, 2, [0x03, 0xe8], true⟩ ::
          [.message ⟨.close, 2, [0x03, 0xe8], false, false⟩] := by
      show ((WsObserver.new ⟨0, 0⟩ none).feed goingAway.encode).2 ++ [] = _
      rw [hfeed]
      rfl
    have hhead := hall ⟨0, 0⟩ [goingAway] [goingAway.encode] ⟨trivial, trivial⟩ rfl goingAway rfl
      _ _ hreport
    exact absurd hhead nofun
  · intro hall
    have hsame := hall ⟨100, 100⟩ (some false) [corrupt] [corrupt.take 8, corrupt.drop 8] rfl
    rw [feed_corrupt_pieces] at hsame
    have hwhole : ((WsObserver.new ⟨100, 100⟩ (some false)).feedAll [corrupt]).2 = _ ++ [] :=
      congrArg (· ++ []) feed_corrupt_whole
    rw [hwhole] at hsame
    exact absurd hsame (by decide)

end

end Teitunnel.Lens.Stream
