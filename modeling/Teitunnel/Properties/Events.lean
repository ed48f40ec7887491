import Teitunnel.Lens.Events

/-!
# The events that are counted

What the observer knows is what came of the block it is in, but for the comments.
-/

namespace Teitunnel.Lens.Stream

open Lines

/-- A line that starts with a colon. -/
def isComment (line : List UInt8) : Bool := line.head? == some 58

/-- The lines of a block that aren't comments. -/
def fields (block : List (List UInt8)) : List (List UInt8) := block.filter fun line => !isComment line

/-- Each line with an LF. -/
def text (lines : List (List UInt8)) : List UInt8 := (lines.map (· ++ [LF])).flatten

/-- What is reported of a block. -/
def eventOf (previewBytes : ℕ) (block : List (List UInt8)) : Option Message :=
  if fields block = [] then none
  else
    some (.plain .event ((fields block).map List.length).sum
      (SseObserver.stripSuffixLf ((text (fields block)).take previewBytes)))

namespace SseObserver

/-- What counts of the line that hasn't ended. -/
def counted (line : List UInt8) : List UInt8 := if isComment line = true then [] else line

/-- What the observer knows of a block and of the line that hasn't ended. -/
structure Seen (n : ℕ) (block : List (List UInt8)) (line : List UInt8) (o : SseObserver) : Prop where
  limit : o.previewBytes = n
  lineLen : o.lineLen = line.length
  comment : line ≠ [] → o.lineIsComment = isComment line
  size : o.eventSize = ((fields block).map List.length).sum + (counted line).length
  field : o.eventHasField = true ↔ fields block ≠ [] ∨ counted line ≠ []
  preview : o.preview = (text (fields block) ++ counted line).take n

variable {n : ℕ} {block : List (List UInt8)} {line : List UInt8} {o : SseObserver}

lemma seen_new (n : ℕ) : Seen n [] [] (new n) where
  limit := rfl
  lineLen := rfl
  comment h := absurd rfl h
  size := rfl
  field := ⟨fun h => absurd h Bool.false_ne_true, by rintro (h | h) <;> exact absurd rfl h⟩
  preview := List.take_nil.symm

lemma Seen.withCr (h : Seen n block line o) (cr : Bool) :
    Seen n block line { o with pendingCr := cr } :=
  ⟨h.limit, h.lineLen, h.comment, h.size, h.field, h.preview⟩

lemma take_snoc (bytes : List UInt8) (b : UInt8) (n : ℕ) :
    (bytes ++ [b]).take n =
      if (bytes.take n).length < n then bytes.take n ++ [b] else bytes.take n := by
  rw [List.length_take, List.take_append]
  split
  · next hroom =>
      have hlt : bytes.length < n := by omega
      rw [List.take_of_length_le (l := [b])]
      rw [List.length_singleton]
      omega
  · next hfull =>
      have hle : n - bytes.length = 0 := by omega
      rw [hle, List.take_zero, List.append_nil]

lemma keep_eq (o : SseObserver) (b : UInt8) :
    o.keep b = { o with preview :=
      if o.preview.length < o.previewBytes then o.preview ++ [b] else o.preview } := by
  unfold keep
  split
  · rfl
  · rfl

/-- The room for a preview goes to the first bytes. -/
lemma preview_keep {kept : List UInt8} (h : o.preview = kept.take o.previewBytes) (b : UInt8) :
    (o.keep b).preview = (kept ++ [b]).take o.previewBytes := by
  rw [keep_eq, take_snoc, ← h]

lemma isComment_snoc (hne : line ≠ []) (b : UInt8) : isComment (line ++ [b]) = isComment line := by
  cases line with
  | nil => exact absurd rfl hne
  | cons first rest => rfl

lemma isComment_singleton (b : UInt8) : isComment [b] = (b == 58) := rfl

lemma counted_of_comment (h : isComment line = true) : counted line = [] := if_pos h

lemma counted_of_field (h : isComment line = false) : counted line = line :=
  if_neg (ne_true_of_eq_false h)

lemma fields_snoc_comment (h : isComment line = true) (block : List (List UInt8)) :
    fields (block ++ [line]) = fields block := by
  unfold fields
  rw [List.filter_append, List.filter_singleton, h]
  exact List.append_nil _

lemma fields_snoc_field (h : isComment line = false) (block : List (List UInt8)) :
    fields (block ++ [line]) = fields block ++ [line] := by
  unfold fields
  rw [List.filter_append, List.filter_singleton, h]
  rfl

lemma text_snoc (lines : List (List UInt8)) (line : List UInt8) :
    text (lines ++ [line]) = text lines ++ (line ++ [LF]) := by
  unfold text
  rw [List.map_append, List.flatten_append]
  exact congrArg (_ ++ ·) (List.append_nil _)

/-- A byte of a comment. -/
lemma Seen.skip (h : Seen n block line o) {b : UInt8} (hcomment : isComment (line ++ [b]) = true)
    (hnone : counted line = []) :
    Seen n block (line ++ [b]) { o with lineIsComment := true, lineLen := o.lineLen + 1 } := by
  have hcounted : counted (line ++ [b]) = counted line := by
    rw [hnone, counted_of_comment hcomment]
  refine ⟨h.limit, ?_, fun _ => hcomment.symm, ?_, ?_, ?_⟩
  · rw [List.length_append, ← h.lineLen]
    rfl
  · rw [hcounted]
    exact h.size
  · rw [hcounted]
    exact h.field
  · rw [hcounted]
    exact h.preview

/-- A byte that counts. -/
lemma Seen.count (h : Seen n block line o) {b : UInt8} (hfield : isComment (line ++ [b]) = false)
    (hall : counted line = line) :
    Seen n block (line ++ [b]) ({ o with
      lineIsComment := false
      eventHasField := true
      lineLen := o.lineLen + 1
      eventSize := o.eventSize + 1 }.keep b) := by
  have hcounted : counted (line ++ [b]) = line ++ [b] := counted_of_field hfield
  have hpreview := h.preview
  rw [hall, ← h.limit] at hpreview
  refine ⟨?_, ?_, ?_, ?_, ?_, ?_⟩
  · rw [keep_eq]
    exact h.limit
  · rw [keep_eq, List.length_append, ← h.lineLen]
    rfl
  · intro _
    rw [keep_eq, hfield]
  · rw [keep_eq, hcounted, List.length_append, ← Nat.add_assoc]
    show o.eventSize + 1 = _
    rw [h.size, hall]
    rfl
  · rw [keep_eq, hcounted]
    exact ⟨fun _ => .inr (by simp), fun _ => rfl⟩
  · rw [hcounted, ← List.append_assoc, ← h.limit]
    exact preview_keep (o := { o with
      lineIsComment := false
      eventHasField := true
      lineLen := o.lineLen + 1
      eventSize := o.eventSize + 1 }) hpreview b

/-- A byte of a line. -/
lemma Seen.lineByte (h : Seen n block line o) (b : UInt8) :
    Seen n block (line ++ [b]) (o.lineByte b) := by
  by_cases hne : line = []
  · subst hne
    have hzero : o.lineLen = 0 := h.lineLen
    unfold SseObserver.lineByte
    rw [if_pos hzero]
    by_cases hb : b = 58
    · subst hb
      have hskip := h.skip (b := 58) rfl rfl
      simpa using hskip
    · have hb' : (b == 58) = false := beq_eq_false_iff_ne.mpr hb
      have hfield : (o.eventHasField || b != 58) = true := by
        rw [bne_iff_ne.mpr hb, Bool.or_true]
      have hcount := h.count (b := b) hb' rfl
      simpa [hb, hb', hfield] using hcount
  · have hpos : o.lineLen ≠ 0 := by
      rw [h.lineLen]
      exact fun hlength => hne (List.eq_nil_of_length_eq_zero hlength)
    have hflag := h.comment hne
    unfold SseObserver.lineByte
    rw [if_neg hpos]
    cases hcomment : isComment line with
    | true =>
        rw [hcomment] at hflag
        have hskip := h.skip (b := b) ((isComment_snoc hne b).trans hcomment)
          (counted_of_comment hcomment)
        simpa [hflag] using hskip
    | false =>
        rw [hcomment] at hflag
        have hfield : o.eventHasField = true :=
          h.field.mpr (.inr (by rwa [counted_of_field hcomment]))
        have hcount := h.count (b := b) ((isComment_snoc hne b).trans hcomment)
          (counted_of_field hcomment)
        simpa [hflag, hfield] using hcount

/-- A line that isn't blank joins the block. -/
lemma Seen.endLine (h : Seen n block line o) (hne : line ≠ []) :
    o.endLine.2 = [] ∧ Seen n (block ++ [line]) [] o.endLine.1 := by
  have hpos : o.lineLen ≠ 0 := by
    rw [h.lineLen]
    exact fun hlength => hne (List.eq_nil_of_length_eq_zero hlength)
  have hflag := h.comment hne
  have hend : o.endLine = ({ (if o.lineIsComment then o else o.keep LF) with lineLen := 0 }, []) :=
    if_neg hpos
  rw [hend]
  refine ⟨rfl, ?_⟩
  have hpreview := h.preview
  cases hcomment : isComment line with
  | true =>
      rw [counted_of_comment hcomment] at hpreview
      rw [hflag, if_pos hcomment]
      refine ⟨h.limit, rfl, fun hnil => absurd rfl hnil, ?_, ?_, ?_⟩
      · rw [fields_snoc_comment hcomment]
        exact h.size.trans (by rw [counted_of_comment hcomment]; rfl)
      · rw [fields_snoc_comment hcomment]
        exact h.field.trans (by rw [counted_of_comment hcomment]; rfl)
      · rw [fields_snoc_comment hcomment]
        exact hpreview
  | false =>
      rw [counted_of_field hcomment] at hpreview
      rw [hflag, if_neg (ne_true_of_eq_false hcomment), keep_eq]
      refine ⟨h.limit, rfl, fun hnil => absurd rfl hnil, ?_, ?_, ?_⟩
      · rw [fields_snoc_field hcomment, List.map_append, List.sum_append]
        exact h.size.trans (by rw [counted_of_field hcomment]; rfl)
      · rw [fields_snoc_field hcomment]
        refine ⟨fun _ => .inl (by simp), fun _ => h.field.mpr (.inr ?_)⟩
        rwa [counted_of_field hcomment]
      · rw [← h.limit] at hpreview
        have hkept := preview_keep hpreview LF
        rw [keep_eq] at hkept
        rw [fields_snoc_field hcomment, text_snoc, ← List.append_assoc, ← h.limit]
        exact hkept.trans (by rw [show counted [] = [] from rfl, List.append_nil])

/-- A blank line ends the block. -/
lemma Seen.endBlock (h : Seen n block [] o) :
    o.endLine.2 = (eventOf n block).toList ∧ Seen n [] [] o.endLine.1 := by
  have hzero : o.lineLen = 0 := h.lineLen
  have hend : o.endLine = ({ o with eventSize := 0, eventHasField := false, preview := [] },
      if o.eventHasField then [.plain .event o.eventSize (stripSuffixLf o.preview)] else []) :=
    if_pos hzero
  have hfield : o.eventHasField = true ↔ fields block ≠ [] :=
    h.field.trans ⟨fun hor => hor.resolve_right fun hnil => hnil rfl, .inl⟩
  have hsize : o.eventSize = ((fields block).map List.length).sum := h.size
  have hpreview : o.preview = (text (fields block)).take n := by
    have hwhole := h.preview
    rwa [show counted [] = [] from rfl, List.append_nil] at hwhole
  rw [hend]
  constructor
  · unfold eventOf
    by_cases hnone : fields block = []
    · rw [if_pos hnone, if_neg fun hflag => hfield.mp hflag hnone]
      rfl
    · rw [if_neg hnone, if_pos (hfield.mpr hnone), hsize, hpreview]
      rfl
  · exact ⟨h.limit, h.lineLen, fun hnil => absurd rfl hnil, rfl, (seen_new n).field,
      List.take_nil.symm⟩

/-! ## A whole stream -/

/-- The bytes that are read as they are: an LF after a CR is passed over. -/
def ahead (o : SseObserver) (data : List UInt8) : List UInt8 :=
  if o.pendingCr = true then skipLf data else data

lemma feedByte_skip (h : o.pendingCr = true) :
    o.feedByte LF = ({ o with pendingCr := false }, []) := if_pos ⟨h, rfl⟩

lemma feedByte_end {b : UInt8} (h : ¬ (o.pendingCr = true ∧ b = LF)) (hend : b = CR ∨ b = LF) :
    o.feedByte b = { o with pendingCr := b == CR }.endLine := by
  rw [feedByte, if_neg h, if_pos hend]

lemma feedByte_line {b : UInt8} (hlf : b ≠ LF) (hcr : b ≠ CR) :
    o.feedByte b = ({ o with pendingCr := false }.lineByte b, []) := by
  rw [feedByte, if_neg fun h => hlf h.2, if_neg (not_or.mpr ⟨hcr, hlf⟩)]

lemma endLine_pendingCr (o : SseObserver) : o.endLine.1.pendingCr = o.pendingCr := by
  unfold endLine
  split
  · rfl
  · split
    · rfl
    · rw [keep_eq]

lemma lineByte_pendingCr (o : SseObserver) (b : UInt8) :
    (o.lineByte b).pendingCr = o.pendingCr := by
  unfold lineByte
  dsimp only
  split_ifs
  · rfl
  · rw [keep_eq]
  · rfl
  · rw [keep_eq]

lemma ahead_of_none (h : o.pendingCr = false) (data : List UInt8) : o.ahead data = data :=
  if_neg (ne_true_of_eq_false h)

lemma ahead_of_pending (h : o.pendingCr = true) (data : List UInt8) : o.ahead data = skipLf data :=
  if_pos h

/-- Only an LF after a CR is passed over. -/
lemma ahead_cons {b : UInt8} (h : ¬ (o.pendingCr = true ∧ b = LF)) (data : List UInt8) :
    o.ahead (b :: data) = b :: data := by
  unfold ahead
  split
  · next hpending => exact if_neg fun hlf => h ⟨hpending, hlf⟩
  · rfl

/-- A line that ends, with `more` behind it. -/
lemma Seen.ended (h : Seen n block line o) {more : List UInt8} {out : List Message}
    (hmore : ∀ block, Seen n block [] o.endLine.1 →
      out = (blocksFrom block (linesFrom [] more)).filterMap (eventOf n)) :
    o.endLine.2 ++ out = (blocksFrom block (line :: linesFrom [] more)).filterMap (eventOf n) := by
  rw [blocksFrom]
  by_cases hblank : line = []
  · subst hblank
    obtain ⟨hout, hnext⟩ := h.endBlock
    rw [if_pos rfl, hout, hmore [] hnext, List.filterMap_cons]
    cases eventOf n block with
    | none => rfl
    | some message => rfl
  · obtain ⟨hout, hnext⟩ := h.endLine hblank
    rw [if_neg hblank, hout, hmore _ hnext]
    rfl

/-- The events that end in some bytes. -/
lemma Seen.feed (h : Seen n block line o) (data : List UInt8) :
    (o.feed data).2 = (blocksFrom block (linesFrom line (o.ahead data))).filterMap (eventOf n) := by
  induction data generalizing o block line with
  | nil =>
      have hahead : o.ahead [] = [] := by
        unfold ahead
        split
        · rfl
        · rfl
      rw [hahead, linesFrom]
      rfl
  | cons b data ih =>
      show (o.feedByte b).2 ++ ((o.feedByte b).1.feed data).2 = _
      by_cases hskip : o.pendingCr = true ∧ b = LF
      · obtain ⟨hpending, rfl⟩ := hskip
        rw [feedByte_skip hpending, ahead_of_pending hpending, List.nil_append,
          ih (h.withCr false), ahead_of_none rfl]
        rfl
      · rw [ahead_cons hskip]
        by_cases hlf : b = LF
        · subst hlf
          rw [feedByte_end hskip (.inr rfl), linesFrom_lf]
          refine (h.withCr _).ended fun block hnext => ?_
          rw [ih hnext, ahead_of_none (endLine_pendingCr _)]
        · by_cases hcr : b = CR
          · subst hcr
            rw [feedByte_end hskip (.inl rfl), linesFrom_cr]
            refine (h.withCr _).ended fun block hnext => ?_
            rw [ih hnext, ahead_of_pending (endLine_pendingCr _)]
          · rw [feedByte_line hlf hcr, linesFrom_of_ne hlf hcr, List.nil_append,
              ih ((h.withCr false).lineByte b), ahead_of_none (lineByte_pendingCr _ b)]

lemma feed_append (o : SseObserver) (a b : List UInt8) :
    o.feed (a ++ b) = (((o.feed a).1.feed b).1, (o.feed a).2 ++ ((o.feed a).1.feed b).2) := by
  induction a generalizing o with
  | nil => rfl
  | cons byte a ih =>
      show (((o.feedByte byte).1.feed (a ++ b)).1,
        (o.feedByte byte).2 ++ ((o.feedByte byte).1.feed (a ++ b)).2) = _
      rw [ih, ← List.append_assoc]
      rfl

lemma feedAll_eq (o : SseObserver) (chunks : List (List UInt8)) :
    o.feedAll chunks = o.feed chunks.flatten := by
  induction chunks generalizing o with
  | nil => rfl
  | cons chunk chunks ih =>
      rw [List.flatten_cons, feed_append, ← ih]
      rfl

/-- In whatever pieces a stream comes, one event is reported for each block with a line that is no
comment, with the bytes of these lines and the beginning of them. -/
theorem events_counted (previewBytes : ℕ) (chunks : List (List UInt8)) :
    ((new previewBytes).feedAll chunks).2 =
      (blocks chunks.flatten).filterMap (eventOf previewBytes) := by
  rw [feedAll_eq]
  exact (seen_new previewBytes).feed chunks.flatten

end SseObserver

end Teitunnel.Lens.Stream
