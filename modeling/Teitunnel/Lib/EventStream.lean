import Mathlib.Tactic

/-!
# Reading an event stream

Lines end with LF, CR or CR LF; a blank line ends an event, and a line that starts with a colon is
a comment.  A byte order mark is left out at the start only.
-/

namespace EventStream

/-- What a stream gives. -/
inductive Item where
  | event (type data lastId : List UInt8)
  | retry (digits : List UInt8)
  deriving DecidableEq

/-- A reader, with the line and the event it is in the middle of. -/
structure Reader where
  /-- The last byte was a CR: an LF belongs to it. -/
  afterCr : Bool := false
  line : List UInt8 := []
  data : List UInt8 := []
  type : List UInt8 := []
  lastId : List UInt8 := []
  items : List Item := []
  deriving DecidableEq

def LF : UInt8 := 10
def CR : UInt8 := 13
def COLON : UInt8 := 58

/-- The end of an event: nothing without data. -/
def dispatch (r : Reader) : Reader :=
  if r.data = [] then { r with type := [] }
  else
    { r with
      data := []
      type := []
      items := r.items ++ [.event r.type r.data.dropLast r.lastId] }

def name (field : String) : List UInt8 := field.toList.map fun c => UInt8.ofNat c.toNat

/-- A field of an event. -/
def processField (r : Reader) (field value : List UInt8) : Reader :=
  if field = name "event" then { r with type := value }
  else if field = name "data" then { r with data := r.data ++ value ++ [LF] }
  else if field = name "id" then if 0 ∈ value then r else { r with lastId := value }
  else if field = name "retry" then
    if value ≠ [] ∧ value.all (fun b => 48 ≤ b ∧ b ≤ 57) then
      { r with items := r.items ++ [.retry value] }
    else r
  else r

/-- A value without the space before it. -/
def trimSpace : List UInt8 → List UInt8
  | 32 :: value => value
  | value => value

/-- A whole line. -/
def processLine (r : Reader) (line : List UInt8) : Reader :=
  match line with
  | [] => dispatch r
  | first :: _ =>
      if first = COLON then r
      else
        processField r (line.takeWhile (· ≠ COLON))
          (trimSpace (line.dropWhile (· ≠ COLON)).tail)

/-- The end of a line. -/
def endLine (r : Reader) (afterCr : Bool) : Reader :=
  { processLine r r.line with line := [], afterCr := afterCr }

def step (r : Reader) (b : UInt8) : Reader :=
  if b = LF then if r.afterCr then { r with afterCr := false } else endLine r false
  else if b = CR then endLine r true
  else { r with line := r.line ++ [b], afterCr := false }

/-- Reads bytes that are not at the start of a stream. -/
def readOn (r : Reader) (bytes : List UInt8) : Reader := bytes.foldl step r

def MARK : List UInt8 := [0xef, 0xbb, 0xbf]

/-- A stream without its byte order mark. -/
def withoutMark (bytes : List UInt8) : List UInt8 :=
  if MARK <+: bytes then bytes.drop MARK.length else bytes

/-- What a stream gives, with the last id. -/
def read (bytes : List UInt8) : List Item × List UInt8 :=
  let r := readOn {} (withoutMark bytes)
  (r.items, r.lastId)

/-- What a stream gives with its byte order mark read as text. -/
def readMarked (bytes : List UInt8) : List Item × List UInt8 :=
  let r := readOn {} bytes
  (r.items, r.lastId)

/-! ## Between events -/

/-- Nothing of an event or of a line has come. -/
def Reader.Idle (r : Reader) : Prop := r.line = [] ∧ r.data = [] ∧ r.type = []

/-- A CR has ended a line. -/
def Reader.Sound (r : Reader) : Prop := r.afterCr = true → r.line = []

lemma readOn_append (r : Reader) (a b : List UInt8) : readOn r (a ++ b) = readOn (readOn r a) b :=
  List.foldl_append

lemma dispatch_spec (r : Reader) : (dispatch r).data = [] ∧ (dispatch r).type = [] := by
  unfold dispatch
  split
  · next hdata => exact ⟨hdata, rfl⟩
  · exact ⟨rfl, rfl⟩

lemma sound_step (r : Reader) (b : UInt8) : (step r b).Sound := by
  unfold step
  split
  · split
    · exact nofun
    · exact fun _ => rfl
  · split
    · exact fun _ => rfl
    · exact nofun

lemma sound_readOn {r : Reader} (h : r.Sound) (bytes : List UInt8) : (readOn r bytes).Sound := by
  induction bytes generalizing r with
  | nil => exact h
  | cons b rest ih => exact ih (sound_step r b)

/-- A blank line ends any event. -/
lemma idle_endLine {r : Reader} (h : r.line = []) (afterCr : Bool) : (endLine r afterCr).Idle := by
  unfold endLine
  rw [h]
  exact ⟨rfl, dispatch_spec r⟩

lemma step_cr (r : Reader) : step r CR = endLine r true := by
  unfold step
  rw [if_neg (by decide), if_pos rfl]

lemma step_lf_afterCr {r : Reader} (h : r.afterCr = true) : step r LF = { r with afterCr := false } := by
  unfold step
  rw [if_pos rfl, if_pos h]

lemma step_lf {r : Reader} (h : r.afterCr = false) : step r LF = endLine r false := by
  unfold step
  rw [if_pos rfl, if_neg (ne_true_of_eq_false h)]

lemma line_lf {r : Reader} (h : r.Sound) :
    (step r LF).line = [] ∧ (step r LF).afterCr = false := by
  cases hcr : r.afterCr with
  | true =>
      rw [step_lf_afterCr hcr]
      exact ⟨h hcr, rfl⟩
  | false =>
      rw [step_lf hcr]
      exact ⟨rfl, rfl⟩

/-- After two LFs, two CRs or two CR LFs a reader is between events. -/
lemma idle_of_blank {r : Reader} (h : r.Sound) {last : List UInt8}
    (hlast : last = [LF, LF] ∨ last = [CR, CR] ∨ last = [CR, LF, CR, LF]) :
    (readOn r last).Idle := by
  rcases hlast with rfl | rfl | rfl
  · obtain ⟨hline, hcr⟩ := line_lf h
    show (step (step r LF) LF).Idle
    rw [step_lf hcr]
    exact idle_endLine hline false
  · show (step (step r CR) CR).Idle
    rw [step_cr, step_cr]
    exact idle_endLine rfl true
  · show (step (step (step (step r CR) LF) CR) LF).Idle
    rw [step_cr r, step_lf_afterCr rfl, step_cr, step_lf_afterCr rfl]
    exact idle_endLine rfl true

/-- A blank line between events does nothing. -/
lemma endLine_idle {r : Reader} (h : r.Idle) (afterCr : Bool) :
    endLine r afterCr = { r with afterCr := afterCr } := by
  obtain ⟨cr, line, data, type, lastId, items⟩ := r
  obtain ⟨hline, hdata, htype⟩ := h
  dsimp only at hline hdata htype
  subst hline hdata htype
  rfl

/-- Bytes within a line. -/
lemma readOn_line (r : Reader) {text : List UInt8} (hne : text ≠ [])
    (h : ∀ b ∈ text, b ≠ LF ∧ b ≠ CR) :
    readOn r text = { r with line := r.line ++ text, afterCr := false } := by
  induction text generalizing r with
  | nil => exact absurd rfl hne
  | cons b rest ih =>
      obtain ⟨hlf, hcr⟩ := h b List.mem_cons_self
      have hstep : step r b = { r with line := r.line ++ [b], afterCr := false } := by
        unfold step
        rw [if_neg hlf, if_neg hcr]
      show readOn (step r b) rest = _
      by_cases hrest : rest = []
      · rw [hrest, hstep]
        rfl
      · rw [hstep, ih _ hrest fun c hc => h c (List.mem_cons_of_mem b hc)]
        dsimp only
        rw [List.append_assoc]
        rfl

/-- A comment between events is read and gone. -/
lemma readOn_comment {r : Reader} (h : r.Idle) {text : List UInt8}
    (htext : ∀ b ∈ text, b ≠ LF ∧ b ≠ CR) :
    readOn r (COLON :: text ++ [LF, LF]) = { r with afterCr := false } := by
  have hcomment : ∀ b ∈ COLON :: text, b ≠ LF ∧ b ≠ CR := by
    intro b hb
    rcases List.mem_cons.mp hb with rfl | hb
    · decide
    · exact htext b hb
  have hline : readOn r (COLON :: text) = { r with line := COLON :: text, afterCr := false } := by
    rw [readOn_line r (List.cons_ne_nil _ _) hcomment, h.1]
    rfl
  have hidle : Reader.Idle { r with afterCr := false } := h
  have hend : step { r with line := COLON :: text, afterCr := false } LF =
      { r with afterCr := false } := by
    have hempty : ({ r with afterCr := false } : Reader) =
        { r with line := [], afterCr := false } := by
      rw [← h.1]
    rw [step_lf rfl, hempty]
    rfl
  rw [readOn_append, hline]
  show step (step { r with line := COLON :: text, afterCr := false } LF) LF = _
  rw [hend, step_lf rfl, endLine_idle hidle]

/-! ## Readers that differ in a CR -/

/-- The second reader is the first, or the first without the CR it has just read between events. -/
def SameBut (r r' : Reader) : Prop := r' = r ∨ r.Idle ∧ r' = { r with afterCr := false }

lemma SameBut.trans {a b c : Reader} (h : SameBut a b) (h' : SameBut b c) : SameBut a c := by
  rcases h with rfl | ⟨hidle, rfl⟩
  · exact h'
  · rcases h' with rfl | ⟨-, rfl⟩
    · exact .inr ⟨hidle, rfl⟩
    · exact .inr ⟨hidle, rfl⟩

lemma SameBut.idle {r r' : Reader} (h : SameBut r r') (hidle : r'.Idle) : r.Idle := by
  rcases h with rfl | ⟨hr, -⟩
  · exact hidle
  · exact hr

lemma SameBut.step {r r' : Reader} (h : SameBut r r') (b : UInt8) :
    SameBut (EventStream.step r b) (EventStream.step r' b) := by
  rcases h with rfl | ⟨hidle, rfl⟩
  · exact .inl rfl
  · have hidle' : Reader.Idle { r with afterCr := false } := hidle
    left
    by_cases hlf : b = LF
    · subst hlf
      rw [step_lf rfl, endLine_idle hidle']
      cases hcr : r.afterCr with
      | true => rw [step_lf_afterCr hcr]
      | false => rw [step_lf hcr, endLine_idle hidle]
    · by_cases hcr : b = CR
      · rw [hcr, step_cr, step_cr, endLine_idle hidle, endLine_idle hidle']
      · unfold EventStream.step
        rw [if_neg hlf, if_neg hcr, if_neg hlf, if_neg hcr]

lemma SameBut.readOn {r r' : Reader} (h : SameBut r r') (bytes : List UInt8) :
    SameBut (EventStream.readOn r bytes) (EventStream.readOn r' bytes) := by
  induction bytes generalizing r r' with
  | nil => exact h
  | cons b rest ih => exact ih (h.step b)

/-- A comment between events leaves nothing behind. -/
lemma SameBut.comment {r r' : Reader} (h : SameBut r r') (hidle : r'.Idle) {text : List UInt8}
    (htext : ∀ b ∈ text, b ≠ LF ∧ b ≠ CR) :
    SameBut r (EventStream.readOn r' (COLON :: text ++ [LF, LF])) := by
  rw [readOn_comment hidle htext]
  right
  refine ⟨h.idle hidle, ?_⟩
  rcases h with rfl | ⟨-, rfl⟩
  · rfl
  · rfl

lemma SameBut.items {r r' : Reader} (h : SameBut r r') :
    r'.items = r.items ∧ r'.lastId = r.lastId := by
  rcases h with rfl | ⟨-, rfl⟩
  · exact ⟨rfl, rfl⟩
  · exact ⟨rfl, rfl⟩

end EventStream
