import Teitunnel.Lib.EventStream
import Teitunnel.Lens.KeepAlive

/-!
# What a client sees of the heartbeats

The client's reader and a reader of the origin's own body stay the same but for a CR that one of
them has just read between events.
-/

namespace Teitunnel.Lens

open EventStream

/-- What the clients do with the encodings. -/
class Decoders where
  decode : String → List UInt8 → Option (List UInt8)

/-- A body as a client decodes it. -/
def decoded [Decoders] (headers : HeaderMap) (body : List UInt8) : Option (List UInt8) :=
  (encodings headers).reverse.foldlM (fun data encoding => Decoders.decode encoding data) body

lemma decoded_plain [Decoders] {headers : HeaderMap} (h : encodings headers = [])
    (body : List UInt8) : decoded headers body = some body := by
  unfold decoded
  rw [h]
  rfl

namespace KeepAliveBody

def Sent.bytes : Sent → List UInt8
  | .origin (.data data) => data
  | .origin (.trailers _) => []
  | .heartbeat => HEARTBEAT

def sentBytes (sent : List Sent) : List UInt8 := sent.flatMap Sent.bytes

/-- The bytes of the origin's body, up to an error. -/
def originBytes : List (Polled × Bool) → List UInt8
  | [] => []
  | (.pending, _) :: polls => originBytes polls
  | (.failed, _) :: _ => []
  | (.frame (.data data), _) :: polls => data ++ originBytes polls
  | (.frame (.trailers _), _) :: polls => originBytes polls

/-- Nothing comes for too long after these bytes of the origin's. -/
def IdleAfter : List (Polled × Bool) → List UInt8 → Prop
  | [], _ => False
  | (.pending, elapsed) :: polls, bytes =>
      (elapsed = true ∧ bytes = []) ∨ IdleAfter polls bytes
  | (.failed, _) :: _, _ => False
  | (.frame (.data data), _) :: polls, bytes => ∃ rest, bytes = data ++ rest ∧ IdleAfter polls rest
  | (.frame (.trailers _), _) :: polls, bytes => IdleAfter polls bytes

/-- Nothing at all, or a blank line at the end. -/
def Boundary (bytes : List UInt8) : Prop :=
  bytes = [] ∨ [LF, LF] <:+ bytes ∨ [CR, CR] <:+ bytes ∨ [CR, LF, CR, LF] <:+ bytes

/-- A reader from the beginning of a stream on. -/
def reader (text : List UInt8) : Reader := readOn {} (withoutMark text)

/-- A client that decodes what is sent reads what it would read of the origin's own body, and each
heartbeat comes between two events. -/
def Unseen [Decoders] (headers : HeaderMap) (origin : List UInt8) (sent : List Sent) : Prop :=
  (decoded headers (sentBytes sent)).map EventStream.read =
      (decoded headers origin).map EventStream.read ∧
    ∀ before after, sent = before ++ .heartbeat :: after →
      ∀ text, decoded headers (sentBytes before) = some text → (reader text).Idle

/-! ## The last four bytes -/

def lastFour (bytes : List UInt8) : List UInt8 := bytes.drop (bytes.length - 4)

lemma length_lastFour (bytes : List UInt8) : (lastFour bytes).length = min 4 bytes.length := by
  unfold lastFour
  rw [List.length_drop]
  omega

lemma suffix_lastFour {last bytes : List UInt8} (h : last.length ≤ 4) :
    last <:+ lastFour bytes ↔ last <:+ bytes := by
  constructor
  · exact fun hlast => hlast.trans (List.drop_suffix _ bytes)
  · intro hlast
    refine List.suffix_of_suffix_length_le hlast (List.drop_suffix _ bytes) ?_
    have hle := hlast.length_le
    rw [length_lastFour]
    omega

lemma push_lastFour (bytes : List UInt8) (b : UInt8) :
    push (lastFour bytes) b = lastFour (bytes ++ [b]) := by
  have hlength := length_lastFour bytes
  unfold push
  split
  · next hshort =>
      have hfew : bytes.length - 4 = 0 := by omega
      have hfew' : (bytes ++ [b]).length - 4 = 0 := by
        rw [List.length_append, List.length_singleton]
        omega
      unfold lastFour
      rw [hfew, hfew']
      rfl
  · next hlong =>
      have hmany : (bytes ++ [b]).length - 4 = bytes.length - 4 + 1 := by
        rw [List.length_append, List.length_singleton]
        omega
      unfold lastFour
      rw [List.drop_drop, hmany, List.drop_append_of_le_length (by omega)]

lemma foldl_push (bytes data : List UInt8) :
    data.foldl push (lastFour bytes) = lastFour (bytes ++ data) := by
  induction data generalizing bytes with
  | nil => rw [List.append_nil]; rfl
  | cons b rest ih =>
      rw [List.foldl_cons, push_lastFour, ih (bytes ++ [b]), List.append_assoc]
      rfl

lemma lastFour_append (bytes data : List UInt8) :
    lastFour (bytes ++ lastFour data) = lastFour (bytes ++ data) := by
  unfold lastFour
  by_cases hshort : data.length ≤ 4
  · have hall : data.length - 4 = 0 := by omega
    rw [hall]
    rfl
  · have hlong : (bytes ++ data.drop (data.length - 4)).length - 4 = bytes.length := by
      rw [List.length_append, List.length_drop]
      omega
    have hwhole : (bytes ++ data).length - 4 = bytes.length + (data.length - 4) := by
      rw [List.length_append]
      omega
    rw [hlong, hwhole, List.drop_left, List.drop_length_add_append]

/-- The tail of what was sent. -/
lemma remember_tail {self : KeepAliveBody} {sent : List UInt8} (h : self.tail = lastFour sent)
    (data : List UInt8) : (self.remember data).tail = lastFour (sent ++ data) := by
  have hfold := foldl_push sent (lastFour data)
  rw [lastFour_append] at hfold
  unfold remember
  rw [h]
  exact hfold

lemma atBoundary_iff {self : KeepAliveBody} {sent : List UInt8} (h : self.tail = lastFour sent) :
    self.atBoundary = true ↔ Boundary sent := by
  have hempty : lastFour sent = [] ↔ sent = [] := by
    have hlength := length_lastFour sent
    constructor
    · intro hnone
      rw [hnone] at hlength
      exact List.eq_nil_of_length_eq_zero (by simp only [List.length_nil] at hlength; omega)
    · rintro rfl
      rfl
  unfold atBoundary Boundary
  rw [decide_eq_true_iff, h, hempty]
  refine or_congr_right (or_congr ?_ (or_congr ?_ ?_))
  · exact suffix_lastFour (by decide)
  · exact suffix_lastFour (by decide)
  · exact suffix_lastFour (by decide)

/-! ## One poll -/

lemma sendAll_idle {self : KeepAliveBody} {sent : List UInt8} (h : self.tail = lastFour sent)
    (hsent : Boundary sent) (polls : List (Polled × Bool)) :
    self.sendAll ((.pending, true) :: polls) =
      .heartbeat :: (self.remember HEARTBEAT).sendAll polls := by
  rw [sendAll, pollFrame, if_pos ⟨rfl, (atBoundary_iff h).mpr hsent⟩]

lemma sendAll_pending {self : KeepAliveBody} {sent : List UInt8} {elapsed : Bool}
    (h : self.tail = lastFour sent) (hbusy : ¬ (elapsed = true ∧ Boundary sent))
    (polls : List (Polled × Bool)) :
    self.sendAll ((.pending, elapsed) :: polls) = self.sendAll polls := by
  rw [sendAll, pollFrame, if_neg (by rwa [atBoundary_iff h])]

/-- The state after some data. -/
def forward (self : KeepAliveBody) (data : List UInt8) : KeepAliveBody :=
  if data = [] then self else self.remember data

lemma forward_tail {self : KeepAliveBody} {sent : List UInt8} (h : self.tail = lastFour sent)
    (data : List UInt8) : (self.forward data).tail = lastFour (sent ++ data) := by
  unfold forward
  split
  · next hnone => rw [h, hnone, List.append_nil]
  · exact remember_tail h data

lemma sendAll_data (self : KeepAliveBody) (data : List UInt8) (elapsed : Bool)
    (polls : List (Polled × Bool)) :
    self.sendAll ((.frame (.data data), elapsed) :: polls) =
      .origin (.data data) :: (self.forward data).sendAll polls := rfl

/-! ## No heartbeat at all -/

/-- Where no idle moment comes at a boundary, the body goes through as it is. -/
lemma sendAll_quiet {polls : List (Polled × Bool)} {self : KeepAliveBody} {sent : List UInt8}
    (h : self.tail = lastFour sent)
    (hquiet : ∀ bytes, IdleAfter polls bytes → ¬ Boundary (sent ++ bytes)) :
    .heartbeat ∉ self.sendAll polls ∧ sentBytes (self.sendAll polls) = originBytes polls := by
  induction polls generalizing self sent with
  | nil => exact ⟨List.not_mem_nil, rfl⟩
  | cons poll polls ih =>
      obtain ⟨inner, elapsed⟩ := poll
      rcases inner with _ | _ | data | trailers
      · have hbusy : ¬ (elapsed = true ∧ Boundary sent) := by
          rintro ⟨helapsed, hsent⟩
          refine hquiet [] (.inl ⟨helapsed, rfl⟩) ?_
          rwa [List.append_nil]
        rw [sendAll_pending h hbusy]
        exact ih h fun bytes hidle => hquiet bytes (.inr hidle)
      · exact ⟨List.not_mem_nil, rfl⟩
      · rw [sendAll_data]
        obtain ⟨hnone, hbytes⟩ := ih (forward_tail h data) fun bytes hidle => by
          rw [List.append_assoc]
          exact hquiet (data ++ bytes) ⟨bytes, rfl, hidle⟩
        refine ⟨?_, ?_⟩
        · intro hmem
          rcases List.mem_cons.mp hmem with heq | hmem
          · exact absurd heq nofun
          · exact hnone hmem
        · show data ++ sentBytes _ = data ++ originBytes polls
          rw [hbytes]
      · obtain ⟨hnone, hbytes⟩ := ih h hquiet
        refine ⟨?_, hbytes⟩
        intro hmem
        rcases List.mem_cons.mp hmem with heq | hmem
        · exact absurd heq nofun
        · exact hnone hmem

/-! ## Heartbeats between events -/

/-- Bytes that end a line. -/
lemma not_prefix_mark {sent : List UInt8} (h : Boundary sent) (hne : sent ≠ []) :
    ¬ sent <+: MARK := by
  intro hbegins
  have hends : ∃ b ∈ sent, b = LF ∨ b = CR := by
    rcases h with hnone | hend | hend | hend
    · exact absurd hnone hne
    · exact ⟨LF, hend.mem List.mem_cons_self, .inl rfl⟩
    · exact ⟨CR, hend.mem List.mem_cons_self, .inr rfl⟩
    · exact ⟨CR, hend.mem List.mem_cons_self, .inr rfl⟩
  obtain ⟨b, hb, heq⟩ := hends
  have hmark : b ∈ MARK := hbegins.mem hb
  rcases heq with rfl | rfl
  · exact absurd hmark (by decide)
  · exact absurd hmark (by decide)

lemma withoutMark_append {sent : List UInt8} (h : ¬ sent <+: MARK) (more : List UInt8) :
    withoutMark (sent ++ more) = withoutMark sent ++ more := by
  have hiff : MARK <+: sent ++ more ↔ MARK <+: sent := by
    constructor
    · intro hbegins
      rcases List.prefix_or_prefix_of_prefix hbegins (List.prefix_append sent more) with hm | hs
      · exact hm
      · exact absurd hs h
    · exact fun hbegins => hbegins.trans (List.prefix_append sent more)
  unfold withoutMark
  by_cases hmark : MARK <+: sent
  · rw [if_pos hmark, if_pos (hiff.mpr hmark),
      List.drop_append_of_le_length hmark.length_le]
  · rw [if_neg hmark, if_neg (fun hw => hmark (hiff.mp hw))]

lemma reader_append {sent : List UInt8} (h : ¬ sent <+: MARK) (more : List UInt8) :
    reader (sent ++ more) = readOn (reader sent) more := by
  unfold reader
  rw [withoutMark_append h, readOn_append]

/-- At a boundary a reader is between events. -/
lemma idle_of_boundary {sent : List UInt8} (h : Boundary sent) : (reader sent).Idle := by
  have hblank : ∀ last : List UInt8,
      last = [LF, LF] ∨ last = [CR, CR] ∨ last = [CR, LF, CR, LF] →
      last <:+ sent → (reader sent).Idle := by
    intro last hlast hend
    have hinside : last <:+ withoutMark sent := by
      unfold withoutMark
      split
      · next hmark =>
          obtain ⟨rest, rfl⟩ := hmark
          rw [List.drop_left]
          rcases List.suffix_or_suffix_of_suffix hend (List.suffix_append MARK rest) with hl | hr
          · exact hl
          · -- the mark has no line end
            obtain ⟨front, rfl⟩ := hr
            obtain ⟨before, hbefore⟩ := hend
            rw [← List.append_assoc] at hbefore
            have hfront : front <:+ MARK := ⟨before, List.append_cancel_right hbefore⟩
            cases front with
            | nil => exact List.suffix_refl _
            | cons b front =>
                have hmem : b ∈ MARK := hfront.mem List.mem_cons_self
                rcases hlast with heq | heq | heq
                · rw [(List.cons.inj heq).1] at hmem
                  exact absurd hmem (by decide)
                · rw [(List.cons.inj heq).1] at hmem
                  exact absurd hmem (by decide)
                · rw [(List.cons.inj heq).1] at hmem
                  exact absurd hmem (by decide)
      · exact hend
    obtain ⟨front, hfront⟩ := hinside
    unfold reader
    rw [← hfront, readOn_append]
    exact idle_of_blank (sound_readOn (r := {}) (fun _ => rfl) front) hlast
  rcases h with rfl | hend | hend | hend
  · exact ⟨rfl, rfl, rfl⟩
  · exact hblank _ (.inl rfl) hend
  · exact hblank _ (.inr (.inl rfl)) hend
  · exact hblank _ (.inr (.inr rfl)) hend

/-- Each heartbeat comes between events. -/
lemma sendAll_between {polls : List (Polled × Bool)} {self : KeepAliveBody} {sent : List UInt8}
    (h : self.tail = lastFour sent) {before after : List Sent}
    (hsent : self.sendAll polls = before ++ .heartbeat :: after) :
    Boundary (sent ++ sentBytes before) := by
  induction polls generalizing self sent before with
  | nil => exact absurd hsent.symm (by simp [sendAll])
  | cons poll polls ih =>
      obtain ⟨inner, elapsed⟩ := poll
      rcases inner with _ | _ | data | trailers
      · by_cases hidle : elapsed = true ∧ Boundary sent
        · obtain ⟨rfl, hbound⟩ := hidle
          rw [sendAll_idle h hbound] at hsent
          cases before with
          | nil => rwa [sentBytes, List.flatMap_nil, List.append_nil]
          | cons first before =>
              obtain ⟨rfl, hrest⟩ := List.cons.inj hsent
              have hnext := ih (remember_tail h HEARTBEAT) hrest
              rwa [List.append_assoc] at hnext
        · rw [sendAll_pending h hidle] at hsent
          exact ih h hsent
      · exact absurd hsent.symm (by simp [sendAll, pollFrame])
      · rw [sendAll_data] at hsent
        cases before with
        | nil => exact absurd (List.cons.inj hsent).1 nofun
        | cons first before =>
            obtain ⟨rfl, hrest⟩ := List.cons.inj hsent
            have hnext := ih (forward_tail h data) hrest
            rwa [List.append_assoc] at hnext
      · cases before with
        | nil => exact absurd (List.cons.inj hsent).1 nofun
        | cons first before =>
            obtain ⟨rfl, hrest⟩ := List.cons.inj hsent
            show Boundary (sent ++ sentBytes before)
            exact ih h hrest

/-- Whatever comes next, the reader of what was sent and the origin's are the same but for a CR. -/
def Follows (start : List UInt8 → Reader) (origin sent : List UInt8) : Prop :=
  ∀ more, SameBut (start (origin ++ more)) (reader (sent ++ more))

lemma heartbeat_eq : ∃ text, HEARTBEAT = COLON :: text ++ [LF, LF] ∧
    ∀ b ∈ text, b ≠ LF ∧ b ≠ CR :=
  ⟨[32, 107, 101, 101, 112, 45, 97, 108, 105, 118, 101], rfl, by decide +kernel⟩

lemma Follows.heartbeat {start : List UInt8 → Reader} {origin sent : List UInt8}
    (h : Follows start origin sent) (hbound : Boundary sent) (hne : sent ≠ []) :
    Follows start origin (sent ++ HEARTBEAT) := by
  intro more
  obtain ⟨text, htext, hline⟩ := heartbeat_eq
  have hmark := not_prefix_mark hbound hne
  have hidle := idle_of_boundary hbound
  have hnow : SameBut (reader sent) (readOn (reader sent) HEARTBEAT) := by
    rw [htext]
    exact SameBut.comment (.inl rfl) hidle hline
  refine (h more).trans ?_
  rw [List.append_assoc, reader_append hmark, reader_append hmark, readOn_append]
  exact hnow.readOn more

lemma Follows.data {start : List UInt8 → Reader} {origin sent : List UInt8}
    (h : Follows start origin sent) (data : List UInt8) :
    Follows start (origin ++ data) (sent ++ data) := by
  intro more
  rw [List.append_assoc, List.append_assoc]
  exact h (data ++ more)

/-- Once something was sent, or when no heartbeat comes before the origin's first byte. -/
lemma sendAll_follows {start : List UInt8 → Reader} {polls : List (Polled × Bool)}
    {self : KeepAliveBody} {origin sent : List UInt8} (h : self.tail = lastFour sent)
    (hfollows : Follows start origin sent) (hfirst : sent = [] → ¬ IdleAfter polls []) :
    Follows start (origin ++ originBytes polls) (sent ++ sentBytes (self.sendAll polls)) := by
  induction polls generalizing self origin sent with
  | nil =>
      show Follows start (origin ++ []) (sent ++ [])
      rwa [List.append_nil, List.append_nil]
  | cons poll polls ih =>
      obtain ⟨inner, elapsed⟩ := poll
      rcases inner with _ | _ | data | trailers
      · by_cases hidle : elapsed = true ∧ Boundary sent
        · obtain ⟨rfl, hbound⟩ := hidle
          have hne : sent ≠ [] := fun hnone => hfirst hnone (.inl ⟨rfl, rfl⟩)
          rw [sendAll_idle h hbound]
          have hnext := ih (remember_tail h HEARTBEAT) (hfollows.heartbeat hbound hne)
            fun hnone => absurd hnone (by simp [HEARTBEAT])
          rwa [List.append_assoc] at hnext
        · rw [sendAll_pending h hidle]
          exact ih h hfollows fun hnone hlater => hfirst hnone (.inr hlater)
      · show Follows start (origin ++ []) (sent ++ [])
        rwa [List.append_nil, List.append_nil]
      · rw [sendAll_data]
        have hnext := ih (forward_tail h data) (hfollows.data data) fun hnone hlater =>
          hfirst (List.append_eq_nil_iff.mp hnone).1
            ⟨[], (by rw [(List.append_eq_nil_iff.mp hnone).2]; rfl), hlater⟩
        rwa [List.append_assoc, List.append_assoc] at hnext
      · exact ih h hfollows hfirst

/-- A heartbeat before the origin's first byte makes its byte order mark text. -/
lemma sendAll_early {polls : List (Polled × Bool)} {self : KeepAliveBody} (h : self.tail = [])
    (hidle : IdleAfter polls []) :
    Follows (readOn {}) (originBytes polls) (sentBytes (self.sendAll polls)) := by
  have hnone : self.tail = lastFour [] := h
  induction polls generalizing self with
  | nil => exact absurd hidle id
  | cons poll polls ih =>
      obtain ⟨inner, elapsed⟩ := poll
      rcases inner with _ | _ | data | trailers
      · by_cases helapsed : elapsed = true
        · subst helapsed
          rw [sendAll_idle hnone (.inl rfl)]
          have hstart : Follows (readOn {}) [] HEARTBEAT := by
            intro more
            left
            rw [reader_append (by decide)]
            rfl
          exact sendAll_follows (remember_tail hnone HEARTBEAT) hstart
            fun hempty => absurd hempty (by simp [HEARTBEAT])
        · rw [sendAll_pending hnone fun hboth => helapsed hboth.1]
          exact ih h (hidle.resolve_left fun hboth => helapsed hboth.1) hnone
      · exact absurd hidle id
      · obtain ⟨rest, hrest, hlater⟩ := hidle
        obtain ⟨rfl, rfl⟩ := List.append_eq_nil_iff.mp hrest.symm
        exact ih h hlater hnone
      · exact ih h hidle hnone

end KeepAliveBody

open KeepAliveBody

lemma originBytes_map (body : List (Polled × Bool)) :
    originBytes (body.map fun poll => (poll.1, false)) = originBytes body := by
  induction body with
  | nil => rfl
  | cons poll body ih =>
      obtain ⟨inner, elapsed⟩ := poll
      rcases inner with _ | _ | data | trailers
      · exact ih
      · rfl
      · exact congrArg (data ++ ·) ih
      · exact ih

lemma not_idle_map (body : List (Polled × Bool)) (bytes : List UInt8) :
    ¬ IdleAfter (body.map fun poll => (poll.1, false)) bytes := by
  induction body generalizing bytes with
  | nil => exact id
  | cons poll body ih =>
      obtain ⟨inner, elapsed⟩ := poll
      rcases inner with _ | _ | data | trailers
      · rintro (⟨hfalse, -⟩ | hlater)
        · exact absurd hfalse Bool.false_ne_true
        · exact ih bytes hlater
      · exact id
      · rintro ⟨rest, -, hlater⟩
        exact ih rest hlater
      · exact ih bytes

/-! ## The client -/

/-- Whether heartbeats are put into a response. -/
def KeepsAlive (headers : HeaderMap) (sseKeepalive : Bool) : Prop :=
  isEventStream headers = true ∧ sseKeepalive = true

lemma readMarked_eq {bytes : List UInt8} (h : ¬ MARK <+: bytes) :
    readMarked bytes = EventStream.read bytes := by
  have hwhole : withoutMark bytes = bytes := if_neg h
  unfold readMarked EventStream.read
  rw [hwhole]

lemma SameBut.read_eq {text text' : List UInt8}
    (h : SameBut (reader text) (reader text')) : EventStream.read text' = EventStream.read text :=
  Prod.ext h.items.1 h.items.2

lemma SameBut.readMarked_eq {text text' : List UInt8}
    (h : SameBut (readOn {} text) (reader text')) : EventStream.read text' = readMarked text :=
  Prod.ext h.items.1 h.items.2

/-- Without encodings, each heartbeat comes between events. -/
lemma between_plain [Decoders] {headers : HeaderMap} (hplain : encodings headers = [])
    {polls : List (Polled × Bool)} {before after : List Sent} {text : List UInt8}
    (hsent : sendAll {} polls = before ++ .heartbeat :: after)
    (htext : decoded headers (sentBytes before) = some text) : (reader text).Idle := by
  have hstart : ({} : KeepAliveBody).tail = lastFour [] := rfl
  have hbound : Boundary ([] ++ sentBytes before) := sendAll_between hstart hsent
  rw [decoded_plain hplain] at htext
  rw [← Option.some.inj htext]
  exact idle_of_boundary hbound

lemma unseen_plain_iff [Decoders] {headers : HeaderMap} (hplain : encodings headers = [])
    (origin : List UInt8) (polls : List (Polled × Bool)) :
    Unseen headers origin (sendAll {} polls) ↔
      EventStream.read (sentBytes (sendAll {} polls)) = EventStream.read origin := by
  unfold Unseen
  rw [decoded_plain hplain, decoded_plain hplain]
  constructor
  · exact fun h => Option.some.inj h.1
  · intro h
    exact ⟨congrArg some h, fun before after hsent text => between_plain hplain hsent⟩

lemma follows_start : Follows reader [] [] := fun _ => .inl rfl

/-- Heartbeats don't show in an unencoded stream, but one before a byte order mark makes the mark
a part of the first line.  In an encoded stream they don't show where none is put in: the blank
lines are looked for in the encoded bytes. -/
theorem heartbeats_unseen [Decoders] (headers : HeaderMap) (sseKeepalive : Bool)
    (body : List (Polled × Bool)) :
    (encodings headers = [] →
      (Unseen headers (originBytes body) (keepAlive headers sseKeepalive body) ↔
        (KeepsAlive headers sseKeepalive → IdleAfter body [] → MARK <+: originBytes body →
          readMarked (originBytes body) = EventStream.read (originBytes body)))) ∧
    ((KeepsAlive headers sseKeepalive →
        ∀ bytes, IdleAfter body bytes → ¬ Boundary bytes) →
      Unseen headers (originBytes body) (keepAlive headers sseKeepalive body)) := by
  have hstart : ({} : KeepAliveBody).tail = lastFour [] := rfl
  have hquiet : ∀ polls, originBytes polls = originBytes body →
      (∀ bytes, IdleAfter polls bytes → ¬ Boundary bytes) →
      Unseen headers (originBytes body) (sendAll {} polls) := by
    intro polls hpolls hnone
    obtain ⟨hno, hsame⟩ := @sendAll_quiet polls {} [] hstart hnone
    refine ⟨by rw [hsame, hpolls], fun before after hsent => ?_⟩
    rw [hsent] at hno
    exact absurd (List.mem_append_right before List.mem_cons_self) hno
  have hoff : Unseen headers (originBytes body)
      (sendAll {} (body.map fun poll => (poll.1, false))) :=
    hquiet _ (originBytes_map body) fun bytes hidle => absurd hidle (not_idle_map body bytes)
  unfold keepAlive
  by_cases halive : isEventStream headers = true ∧ sseKeepalive = true
  · rw [if_pos halive]
    refine ⟨fun hplain => ?_, fun hnone => hquiet body rfl (hnone halive)⟩
    rw [unseen_plain_iff hplain]
    by_cases hearly : IdleAfter body []
    · have hread : EventStream.read (sentBytes (sendAll {} body)) = readMarked (originBytes body) := by
        have hnow := @sendAll_early body {} rfl hearly []
        rw [List.append_nil, List.append_nil] at hnow
        exact SameBut.readMarked_eq hnow
      rw [hread]
      constructor
      · exact fun h _ _ _ => h
      · intro h
        by_cases hmark : MARK <+: originBytes body
        · exact h halive hearly hmark
        · exact readMarked_eq hmark
    · have hread : EventStream.read (sentBytes (sendAll {} body)) =
          EventStream.read (originBytes body) := by
        have hnow := sendAll_follows hstart follows_start (fun _ => hearly) []
        rw [List.append_nil, List.append_nil] at hnow
        exact SameBut.read_eq hnow
      exact ⟨fun _ _ h => absurd h hearly, fun _ => hread⟩
  · rw [if_neg halive]
    refine ⟨fun _ => ⟨fun _ h => absurd h halive, fun _ => hoff⟩, fun _ => hoff⟩

/-! ## A stream that is idle before its first byte -/

/-- The headers of an event stream. -/
def streamHeaders (encoding : List (String × HeaderValue)) : HeaderMap :=
  ⟨(CONTENT_TYPE, .text ⟨"text/event-stream", by decide⟩) :: encoding⟩

lemma isEventStream_streamHeaders (encoding : List (String × HeaderValue)) :
    isEventStream (streamHeaders encoding) = true := by
  have hfirst : (streamHeaders encoding).get? CONTENT_TYPE =
      some (.text ⟨"text/event-stream", by decide⟩) := rfl
  unfold isEventStream
  rw [hfirst]
  decide

/-- `data: x` and a blank line. -/
def oneEvent : List UInt8 := [100, 97, 116, 97, 58, 32, 120, 10, 10]

/-- An event after an idle moment, in one frame. -/
def lateEvent (body : List UInt8) : List (Polled × Bool) :=
  [(.pending, true), (.frame (.data body), false)]

section

/-- A client without any encoding. -/
local instance plainClient : Decoders where
  decode _ _ := none

/-- A heartbeat before an event. -/
theorem heartbeats_unseen_late :
    Unseen (streamHeaders []) (originBytes (lateEvent oneEvent))
      (keepAlive (streamHeaders []) true (lateEvent oneEvent)) :=
  ((heartbeats_unseen (streamHeaders []) true (lateEvent oneEvent)).1 (by decide)).mpr
    fun _ _ hmark => absurd hmark (by decide)

end

/-- An event compressed with gzip, stored as it is. -/
def gzippedEvent : List UInt8 :=
  [0x1f, 0x8b, 8, 0, 0, 0, 0, 0, 0, 255, 1, 9, 0, 246, 255] ++ oneEvent ++
    [129, 123, 51, 43, 9, 0, 0, 0]

section

/-- A client that reads gzip with one stored block: what has no gzip header is refused. -/
local instance gzipClient : Decoders where
  decode encoding data :=
    if encoding = "gzip" ∧ [0x1f, 0x8b] <+: data then
      some ((data.drop 15).take (data.length - 23))
    else none

def gzipHeaders : HeaderMap := streamHeaders [(CONTENT_ENCODING, .text ⟨"gzip", by decide⟩)]

/-- The heartbeat stands before the gzip header, and nothing can be read. -/
theorem heartbeat_seen :
    decoded gzipHeaders (originBytes (lateEvent gzippedEvent)) = some oneEvent ∧
      decoded gzipHeaders (sentBytes (keepAlive gzipHeaders true (lateEvent gzippedEvent))) = none ∧
      ¬ Unseen gzipHeaders (originBytes (lateEvent gzippedEvent))
        (keepAlive gzipHeaders true (lateEvent gzippedEvent)) := by
  have hsent : keepAlive gzipHeaders true (lateEvent gzippedEvent) =
      [.heartbeat, .origin (.data gzippedEvent)] := by
    unfold keepAlive
    rw [if_pos ⟨isEventStream_streamHeaders _, rfl⟩]
    rfl
  have hread : encodings gzipHeaders = ["gzip"] := by decide
  have horigin : decoded gzipHeaders (originBytes (lateEvent gzippedEvent)) = some oneEvent := by
    unfold decoded
    rw [hread]
    rfl
  have hnone : decoded gzipHeaders
      (sentBytes (keepAlive gzipHeaders true (lateEvent gzippedEvent))) = none := by
    unfold decoded
    rw [hread, hsent]
    rfl
  refine ⟨horigin, hnone, fun hunseen => ?_⟩
  have hsame := hunseen.1
  rw [horigin, hnone] at hsame
  exact absurd hsame nofun

end

end Teitunnel.Lens
