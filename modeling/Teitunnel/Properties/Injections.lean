import Teitunnel.Lens.Inject

/-!
# A page that streams gets the snippet where a page read whole does

What was sent and what is held make the body so far, and the cut between them is at the last
`</body>` of it.
-/

namespace Teitunnel.Lens

/-- The places of a `</body>`. -/
abbrev ClosesAt (body : List UInt8) (place : ℕ) : Prop :=
  Search.OccursAt toAsciiLower CLOSE_BODY body place

/-- A body with the snippet at a place. -/
def inserted (snippet body : List UInt8) (place : ℕ) : List UInt8 :=
  body.take place ++ snippet ++ body.drop place

lemma closeBody_ne_nil : CLOSE_BODY ≠ [] := by decide

/-- More follows a `</body>` than may be held. -/
def TooMuch (maxHeld : ℕ) (body : List UInt8) : Prop :=
  ∃ place, ClosesAt body place ∧ maxHeld < body.length - place

/-- What becomes of a body. -/
def Outcome (snippet : List UInt8) (maxHeld : ℕ) (body out : List UInt8) : Prop :=
  (rfindAsciiCi body CLOSE_BODY = none ∧ out = body) ∨
    (∃ place, rfindAsciiCi body CLOSE_BODY = some place ∧ out = inserted snippet body place) ∨
    (TooMuch maxHeld body ∧ out = body)

lemma TooMuch.append {maxHeld : ℕ} {body : List UInt8} (h : TooMuch maxHeld body)
    (more : List UInt8) : TooMuch maxHeld (body ++ more) := by
  obtain ⟨place, hcloses, hlong⟩ := h
  refine ⟨place, hcloses.append closeBody_ne_nil more, ?_⟩
  rw [List.length_append]
  omega

/-- What the origin's body gives in a poll: nothing yet, or some bytes. -/
def polled (piece : Option (List UInt8)) : Polled :=
  match piece with
  | some bytes => .frame (.data bytes)
  | none => .pending

/-- The bytes of a body. -/
def bodyOf (pieces : List (Option (List UInt8))) : List UInt8 := pieces.reduceOption.flatten

/-- The last `</body>` of a body with the beginning cut off before it or within one that isn't
whole. -/
lemma rfind_append_left {sent held : List UInt8}
    (hsent : ∀ place < sent.length, ClosesAt (sent ++ held) place →
      ∃ later, place < later ∧ ClosesAt (sent ++ held) later) :
    rfindAsciiCi (sent ++ held) CLOSE_BODY =
      (rfindAsciiCi held CLOSE_BODY).map (sent.length + ·) := by
  unfold rfindAsciiCi
  cases hheld : Search.rfind toAsciiLower CLOSE_BODY held with
  | some place =>
      rw [Option.map_some, Search.rfind_eq_some closeBody_ne_nil]
      rw [Search.rfind_eq_some closeBody_ne_nil] at hheld
      obtain ⟨hplace, hlast⟩ := hheld
      refine ⟨Search.occursAt_append_left.mpr hplace, fun later hlater hcloses => ?_⟩
      obtain ⟨n, rfl⟩ : ∃ n, later = sent.length + n := ⟨later - sent.length, by omega⟩
      exact hlast n (by omega) (Search.occursAt_append_left.mp hcloses)
  | none =>
      rw [Option.map_none, Search.rfind_eq_none closeBody_ne_nil]
      rw [Search.rfind_eq_none closeBody_ne_nil] at hheld
      -- from the end, none is the last
      have hnone : ∀ n place, (sent ++ held).length - place ≤ n →
          ¬ ClosesAt (sent ++ held) place := by
        intro n
        induction n with
        | zero =>
            intro place hplace hcloses
            have hle := hcloses.add_length_le closeBody_ne_nil
            have hlength : CLOSE_BODY.length = 7 := rfl
            omega
        | succ n ih =>
            intro place hplace hcloses
            by_cases hin : place < sent.length
            · obtain ⟨later, hlater, hcloses'⟩ := hsent place hin hcloses
              exact ih later (by omega) hcloses'
            · obtain ⟨k, rfl⟩ : ∃ k, place = sent.length + k := ⟨place - sent.length, by omega⟩
              exact hheld k (Search.occursAt_append_left.mp hcloses)
      exact fun place => hnone _ place le_rfl

namespace InjectBody

/-- The state while the page streams: `seen` came, `sent` was sent. -/
structure Streaming (snippet : List UInt8) (maxHeld : ℕ) (seen sent : List UInt8)
    (page : InjectBody) : Prop where
  whole : sent ++ page.held = seen
  maxHeld_eq : page.maxHeld = maxHeld
  stage : (page.passthrough = true ∧ page.snippet = none ∧ page.held = [] ∧
      TooMuch maxHeld seen) ∨
    (page.passthrough = false ∧ page.snippet = some snippet ∧
      (rfindAsciiCi seen CLOSE_BODY = some sent.length ∨
        (rfindAsciiCi seen CLOSE_BODY = none ∧ page.held.length = min 6 seen.length)))

variable {snippet : List UInt8} {maxHeld : ℕ} {seen sent : List UInt8} {page : InjectBody}

/-- After more came, the last `</body>` is the last one of what is held. -/
lemma Streaming.rfind_held (h : Streaming snippet maxHeld seen sent page)
    (hgoing : page.passthrough = false) (data : List UInt8) :
    rfindAsciiCi (seen ++ data) CLOSE_BODY =
      (rfindAsciiCi (page.held ++ data) CLOSE_BODY).map (sent.length + ·) := by
  have hwhole : seen ++ data = sent ++ (page.held ++ data) := by
    rw [← h.whole, List.append_assoc]
  have hlength : CLOSE_BODY.length = 7 := rfl
  have hseen : seen.length = sent.length + page.held.length := by
    rw [← h.whole, List.length_append]
  rw [hwhole]
  refine rfind_append_left fun place hplace hcloses => ?_
  rw [← hwhole] at hcloses ⊢
  rcases h.stage with ⟨hpass, -⟩ | ⟨-, -, hlast | ⟨hnone, hheld⟩⟩
  · rw [hgoing] at hpass
    exact absurd hpass nofun
  · have hlater := ((Search.rfind_eq_some closeBody_ne_nil).mp hlast).1
    exact ⟨sent.length, hplace, hlater.append closeBody_ne_nil data⟩
  · -- one that begins in what was sent was there already
    have hinside : place + CLOSE_BODY.length ≤ seen.length := by omega
    exact absurd ((Search.occursAt_append hinside).mp hcloses)
      ((Search.rfind_eq_none closeBody_ne_nil).mp hnone place)

lemma takeHeld_held (page : InjectBody) : page.takeHeld.1.getD [] = page.held := by
  unfold takeHeld
  dsimp only
  split
  · next hempty => rw [hempty]; rfl
  · rfl

lemma release_of_passthrough (page : InjectBody) (h : page.passthrough = true) : page.release = page.takeHeld := by
  rw [release, if_pos h]

lemma release_of_tooMuch (page : InjectBody) (h : page.passthrough = false)
    (hlong : page.maxHeld < page.held.length - keepFrom page.held) :
    page.release = { page with passthrough := true, snippet := none }.takeHeld := by
  rw [release, h, if_neg Bool.false_ne_true, if_pos hlong]

lemma release_of_fits (page : InjectBody) (h : page.passthrough = false)
    (hfits : page.held.length - keepFrom page.held ≤ page.maxHeld) :
    page.release.1.getD [] = page.held.take (keepFrom page.held) ∧
      page.release.2 = { page with held := page.held.drop (keepFrom page.held) } := by
  rw [release, h, if_neg Bool.false_ne_true, if_neg (by omega)]
  refine ⟨?_, rfl⟩
  dsimp only
  split
  · rfl
  · next hzero =>
      rw [Nat.eq_zero_of_not_pos hzero]
      rfl

/-- Releasing changes nothing else. -/
lemma release_frame (page : InjectBody) : page.release.2.inner = page.inner ∧
    page.release.2.ended = page.ended ∧ page.release.2.trailers = page.trailers := by
  unfold release takeHeld
  split
  · exact ⟨rfl, rfl, rfl⟩
  · split
    · exact ⟨rfl, rfl, rfl⟩
    · exact ⟨rfl, rfl, rfl⟩

lemma finish_frame (page : InjectBody) : page.finish.2.held = [] ∧ page.finish.2.snippet = none ∧
    page.finish.2.ended = page.ended ∧ page.finish.2.trailers = page.trailers := by
  unfold finish takeHeld
  split
  · split
    · exact ⟨rfl, rfl, rfl, rfl⟩
    · exact ⟨rfl, rfl, rfl, rfl⟩
  · next hnone => exact ⟨rfl, hnone, rfl, rfl⟩

/-- One frame of the origin: what is sent and what is held stay apart at the last `</body>`. -/
lemma Streaming.release (h : Streaming snippet maxHeld seen sent page) (hmax : 6 ≤ maxHeld)
    {data : List UInt8} {inner : List Polled} {next : Option (List UInt8) × InjectBody}
    (hnext : InjectBody.release { page with inner := inner, held := page.held ++ data } = next) :
    Streaming snippet maxHeld (seen ++ data) (sent ++ next.1.getD []) next.2 := by
  have hwhole : sent ++ (page.held ++ data) = seen ++ data := by
    rw [← List.append_assoc, h.whole]
  have hlength : CLOSE_BODY.length = 7 := rfl
  subst hnext
  rcases h.stage with ⟨hpass, hsnippet, hheld, htoo⟩ | ⟨hpass, hsnippet, hstage⟩
  · rw [release_of_passthrough { page with inner := inner, held := page.held ++ data } hpass,
      takeHeld_held]
    exact ⟨by rw [hwhole]; exact List.append_nil _, h.maxHeld_eq,
      .inl ⟨hpass, hsnippet, rfl, htoo.append data⟩⟩
  · have hrfind := h.rfind_held hpass data
    have hmaxHeld := h.maxHeld_eq
    have hseen : (seen ++ data).length = sent.length + (page.held ++ data).length := by
      rw [← hwhole, List.length_append]
    generalize hall : page.held ++ data = held at hrfind hwhole hseen ⊢
    have hkeep : keepFrom held ≤ held.length := by
      unfold keepFrom
      cases hfound : rfindAsciiCi held CLOSE_BODY with
      | some place =>
          have hplace := ((Search.rfind_eq_some closeBody_ne_nil).mp hfound).1
          have hle := hplace.add_length_le closeBody_ne_nil
          exact le_trans (Nat.le_add_right _ _) hle
      | none => exact Nat.sub_le _ _
    by_cases hfits : held.length - keepFrom held ≤ page.maxHeld
    · obtain ⟨hsend, hrest⟩ := release_of_fits
        { page with inner := inner, held := held } hpass hfits
      dsimp only at hsend hrest
      rw [hsend, hrest]
      refine ⟨?_, h.maxHeld_eq, .inr ⟨hpass, hsnippet, ?_⟩⟩
      · rw [List.append_assoc, List.take_append_drop, hwhole]
      · cases hfound : rfindAsciiCi held CLOSE_BODY with
        | some place =>
            have hplace : keepFrom held = place := by rw [keepFrom, hfound]
            rw [hplace] at hkeep ⊢
            left
            rw [hrfind, hfound, Option.map_some, List.length_append, List.length_take,
              Nat.min_eq_left hkeep]
        | none =>
            have hplace : keepFrom held = held.length - 6 := by rw [keepFrom, hfound, hlength]
            right
            have hnone : rfindAsciiCi (seen ++ data) CLOSE_BODY = none := by
              rw [hrfind, hfound, Option.map_none]
            refine ⟨hnone, ?_⟩
            rcases hstage with hlast | ⟨-, hheld⟩
            · have hplace := ((Search.rfind_eq_some closeBody_ne_nil).mp hlast).1
              exact absurd (hplace.append closeBody_ne_nil data)
                ((Search.rfind_eq_none closeBody_ne_nil).mp hnone _)
            · have hbefore := congrArg List.length h.whole
              have hmore := congrArg List.length hall
              rw [List.length_append] at hbefore hmore hseen
              rw [hplace, List.length_drop, List.length_append]
              omega
    · rw [release_of_tooMuch { page with inner := inner, held := held } hpass
        (Nat.lt_of_not_le hfits), takeHeld_held]
      refine ⟨by rw [← hwhole]; exact List.append_nil _, h.maxHeld_eq,
        .inl ⟨rfl, rfl, rfl, ?_⟩⟩
      cases hfound : rfindAsciiCi held CLOSE_BODY with
      | some place =>
          have hplace : keepFrom held = place := by rw [keepFrom, hfound]
          rw [hfound, Option.map_some] at hrfind
          refine ⟨sent.length + place, ((Search.rfind_eq_some closeBody_ne_nil).mp hrfind).1, ?_⟩
          rw [hplace] at hfits
          omega
      | none =>
          have hplace : keepFrom held = held.length - 6 := by rw [keepFrom, hfound, hlength]
          omega

/-- The end of the origin's body. -/
lemma Streaming.finish (h : Streaming snippet maxHeld seen sent page) :
    Outcome snippet maxHeld seen (sent ++ page.finish.1.getD []) := by
  have hlength : CLOSE_BODY.length = 7 := rfl
  rcases h.stage with ⟨hpass, hsnippet, hheld, htoo⟩ | ⟨hpass, hsnippet, hlast | ⟨hnone, hheld⟩⟩
  · rw [InjectBody.finish, hsnippet]
    dsimp only
    rw [takeHeld_held, h.whole]
    exact .inr (.inr ⟨htoo, rfl⟩)
  · have hcloses := ((Search.rfind_eq_some closeBody_ne_nil).mp hlast).1
    rw [← h.whole, ← Nat.add_zero sent.length, Search.occursAt_append_left] at hcloses
    have hlong := hcloses.add_length_le closeBody_ne_nil
    rw [InjectBody.finish, hsnippet]
    dsimp only
    rw [if_pos ⟨hpass, by omega, hcloses⟩]
    refine .inr (.inl ⟨sent.length, hlast, ?_⟩)
    rw [inserted, ← h.whole, List.take_left, List.drop_left, List.append_assoc]
    rfl
  · rw [InjectBody.finish, hsnippet]
    dsimp only
    rw [if_neg (by omega), takeHeld_held]
    exact .inl ⟨hnone, h.whole⟩

/-- More polls change nothing. -/
lemma collect_mono {n m : ℕ} (hle : n ≤ m) {frames : List Frame}
    (h : collect n page = some frames) : collect m page = some frames := by
  induction n generalizing m page frames with
  | zero => exact absurd h nofun
  | succ n ih =>
      obtain ⟨k, rfl⟩ : ∃ k, m = k + 1 := ⟨m - 1, by omega⟩
      rw [collect] at h ⊢
      rcases hpoll : page.pollFrame with ⟨poll, next⟩
      rw [hpoll] at h
      cases poll with
      | pending => exact ih (by omega) h
      | failed => exact absurd h nofun
      | done => exact h
      | frame frame =>
          dsimp only [afterPoll] at h ⊢
          obtain ⟨rest, hrest, hframes⟩ := Option.map_eq_some_iff.mp h
          rw [ih (by omega) hrest]
          exact congrArg some hframes

lemma finish_of_empty (hheld : page.held = []) (hsnippet : page.snippet = none) :
    page.finish = (none, page) := by
  obtain ⟨inner, rest, held, maxHeld, passthrough, ended, trailers⟩ := page
  dsimp only at hheld hsnippet
  subst hheld hsnippet
  rfl

lemma collect_of_ended (page : InjectBody) (hended : page.ended = true) (hheld : page.held = [])
    (hsnippet : page.snippet = none) {n : ℕ} (hn : 2 ≤ n) :
    collect n page = some (page.trailers.toList.map .trailers) := by
  obtain ⟨m, rfl⟩ := Nat.exists_eq_add_of_le' hn
  rw [collect, pollFrame, if_pos hended, pollEnded, finish_of_empty hheld hsnippet]
  dsimp only
  cases htrailers : page.trailers with
  | none => rfl
  | some trailers =>
      dsimp only [afterPoll]
      rw [collect, pollFrame, if_pos hended, pollEnded,
        finish_of_empty (show InjectBody.held { page with trailers := none } = [] from hheld)
          hsnippet]
      rfl

/-- The frames once the origin's body ended. -/
lemma Streaming.pollEnded (h : Streaming snippet maxHeld seen sent page)
    (hended : page.ended = true) {n : ℕ} (hn : 2 ≤ n) :
    ∃ datas : List (List UInt8), afterPoll (collect n) page.pollEnded =
        some (datas.map .data ++ page.trailers.toList.map .trailers) ∧
      Outcome snippet maxHeld seen (sent ++ datas.flatten) := by
  have hout := h.finish
  obtain ⟨hheld, hsnippet, hended', htrailers⟩ := finish_frame page
  rw [hended] at hended'
  unfold InjectBody.pollEnded
  rcases hfinish : page.finish with ⟨rest, after⟩
  rw [hfinish] at hout hheld hsnippet hended' htrailers
  dsimp only at hout hheld hsnippet hended' htrailers ⊢
  rw [← htrailers]
  cases rest with
  | some rest =>
      refine ⟨[rest], ?_, by simpa using hout⟩
      dsimp only [afterPoll]
      rw [collect_of_ended after hended' hheld hsnippet hn]
      rfl
  | none =>
      refine ⟨[], ?_, by simpa using hout⟩
      have hrest := collect_of_ended { after with trailers := none } hended' hheld hsnippet hn
      cases hsome : after.trailers with
      | none =>
          dsimp only
          rw [hsome]
          rfl
      | some trailers =>
          dsimp only
          rw [hsome]
          dsimp only [afterPoll]
          rw [hrest]
          rfl

/-- The frames of a page from some state on. -/
lemma Streaming.pull (h : Streaming snippet maxHeld seen sent page) (hmax : 6 ≤ maxHeld)
    (hended : page.ended = false) (htrailers : page.trailers = none)
    (pieces : List (Option (List UInt8))) (trailers : Option HeaderMap) {n : ℕ}
    (hn : pieces.length + 2 ≤ n) :
    ∃ datas : List (List UInt8), afterPoll (collect n)
        (InjectBody.pull (pieces.map polled ++ trailers.toList.map fun t => .frame (.trailers t))
          page) = some (datas.map .data ++ trailers.toList.map .trailers) ∧
      Outcome snippet maxHeld (seen ++ bodyOf pieces) (sent ++ datas.flatten) := by
  induction pieces generalizing seen sent page n with
  | nil =>
      have hseen : seen ++ bodyOf [] = seen := List.append_nil seen
      have hn' : 2 ≤ n := by simpa using hn
      rw [hseen]
      cases trailers with
      | none =>
          have hlast : Streaming snippet maxHeld seen sent
              { page with inner := [], ended := true } := ⟨h.whole, h.maxHeld_eq, h.stage⟩
          obtain ⟨datas, hframes, hout⟩ := hlast.pollEnded rfl hn'
          refine ⟨datas, hframes.trans ?_, hout⟩
          rw [show InjectBody.trailers { page with inner := [], ended := true } = none from
            htrailers]
      | some trailers =>
          have hlast : Streaming snippet maxHeld seen sent
              { page with inner := [], trailers := some trailers, ended := true } :=
            ⟨h.whole, h.maxHeld_eq, h.stage⟩
          exact hlast.pollEnded rfl hn'
  | cons piece pieces ih =>
      rw [List.length_cons] at hn
      obtain ⟨m, rfl⟩ : ∃ m, n = m + 1 := ⟨n - 1, by omega⟩
      generalize hinner : pieces.map polled ++
        trailers.toList.map (fun t => Polled.frame (.trailers t)) = inner at ih
      have hpoll : ∀ next : InjectBody, next.ended = false → next.inner = inner →
          collect (m + 1) next = afterPoll (collect m) (InjectBody.pull inner next) := by
        intro next hgoing hnext
        rw [collect, pollFrame, hgoing, if_neg Bool.false_ne_true, hnext]
      rw [List.map_cons, List.cons_append, hinner]
      cases piece with
      | none =>
          have hsame : Streaming snippet maxHeld seen sent { page with inner := inner } :=
            ⟨h.whole, h.maxHeld_eq, h.stage⟩
          obtain ⟨datas, hframes, hout⟩ := ih hsame hended htrailers (n := m) (by omega)
          refine ⟨datas, ?_, hout⟩
          exact (hpoll { page with inner := inner } hended rfl).trans hframes
      | some data =>
          rcases hnext : InjectBody.release
            { page with inner := inner, held := page.held ++ data } with ⟨ready, next⟩
          have hstep := h.release hmax hnext
          have hframe := release_frame { page with inner := inner, held := page.held ++ data }
          rw [hnext] at hframe
          obtain ⟨hsame, hgoing, hnone⟩ := hframe
          have hbody : seen ++ bodyOf (some data :: pieces) = seen ++ data ++ bodyOf pieces := by
            rw [bodyOf, List.reduceOption_cons_of_some, List.flatten_cons, List.append_assoc]
            rfl
          rw [hbody]
          cases ready with
          | none =>
              have hpull : InjectBody.pull (polled (some data) :: inner) page =
                  InjectBody.pull inner next := by
                rw [polled, InjectBody.pull, hnext]
              rw [hpull]
              have hstep' : Streaming snippet maxHeld (seen ++ data) sent next := by
                simpa using hstep
              exact ih hstep' (hgoing.trans hended) (hnone.trans htrailers) (by omega)
          | some ready =>
              have hpull : InjectBody.pull (polled (some data) :: inner) page =
                  (.frame (.data ready), next) := by
                rw [polled, InjectBody.pull, hnext]
              rw [hpull]
              obtain ⟨datas, hframes, hout⟩ := ih hstep (hgoing.trans hended)
                (hnone.trans htrailers) (n := m) (by omega)
              refine ⟨ready :: datas, ?_, ?_⟩
              · dsimp only [afterPoll]
                rw [hpoll next (hgoing.trans hended) hsame, hframes]
                rfl
              · rw [List.flatten_cons, ← List.append_assoc]
                exact hout

end InjectBody

/-! ## A page read whole -/

lemma readLimited_of_fits {limit : ℕ} {pieces : List (Option (List UInt8))} {out : List UInt8}
    (h : (out ++ bodyOf pieces).length ≤ limit) :
    readLimited limit (pieces.map polled) out = some (out ++ bodyOf pieces, true) := by
  induction pieces generalizing out with
  | nil =>
      show some (out, true) = some (out ++ [], true)
      rw [List.append_nil]
  | cons piece pieces ih =>
      cases piece with
      | none => exact ih h
      | some bytes =>
          have hbody : bodyOf (some bytes :: pieces) = bytes ++ bodyOf pieces := by
            rw [bodyOf, List.reduceOption_cons_of_some, List.flatten_cons]
            rfl
          rw [hbody, ← List.append_assoc] at h
          have hroom : ¬ bytes.length > limit - out.length := by
            rw [List.length_append, List.length_append] at h
            omega
          rw [List.map_cons, polled, readLimited, hbody, ← List.append_assoc, if_neg hroom]
          exact ih h

/-- A page that is read whole has the snippet before its last `</body>`. -/
lemma injectBuffered_body [Decompressors] (injection : Injection) (headers : HeaderMap)
    {encoded : List (Option (List UInt8))} {body : List UInt8}
    (hfits : (bodyOf encoded).length ≤ injection.maxHtmlBytes)
    (hdecoded : decodeBody headers (bodyOf encoded) = .ok body) {place : ℕ}
    (hlast : rfindAsciiCi body CLOSE_BODY = some place) :
    (injectBuffered injection headers (encoded.map polled)).body =
      inserted injection.snippet body place := by
  have hread : readLimited injection.maxHtmlBytes (encoded.map polled) [] =
      some (bodyOf encoded, true) := readLimited_of_fits hfits
  rw [injectBuffered, hread]
  dsimp only
  rw [hdecoded]
  dsimp only
  rw [hlast]
  rfl

/-- A page that streams comes with the snippet before its last `</body>` or as it was, with all
its bytes in order and its trailers last; it has the snippet when little enough follows its first
`</body>`, and then it is what a page read whole becomes. -/
theorem streamed_page [Decompressors] (injection : Injection)
    (h : 6 ≤ injection.maxHtmlBytes) (pieces : List (Option (List UInt8)))
    (trailers : Option HeaderMap) :
    ∃ datas : List (List UInt8),
      (∀ polls, pieces.length + 3 ≤ polls →
        InjectBody.collect polls (InjectBody.new
          (pieces.map polled ++ trailers.toList.map fun t => .frame (.trailers t))
          injection.snippet injection.maxHtmlBytes) =
          some (datas.map .data ++ trailers.toList.map .trailers)) ∧
      (datas.flatten = bodyOf pieces ∨
        ∃ place, rfindAsciiCi (bodyOf pieces) CLOSE_BODY = some place ∧
          datas.flatten = inserted injection.snippet (bodyOf pieces) place) ∧
      ∀ first, ClosesAt (bodyOf pieces) first →
        (∀ earlier < first, ¬ ClosesAt (bodyOf pieces) earlier) →
        (bodyOf pieces).length - first ≤ injection.maxHtmlBytes →
          (∃ place, rfindAsciiCi (bodyOf pieces) CLOSE_BODY = some place ∧
            datas.flatten = inserted injection.snippet (bodyOf pieces) place) ∧
          ∀ headers encoded, (bodyOf encoded).length ≤ injection.maxHtmlBytes →
            decodeBody headers (bodyOf encoded) = .ok (bodyOf pieces) →
            (injectBuffered injection headers (encoded.map polled)).body = datas.flatten := by
  generalize hinner : (pieces.map polled ++
    trailers.toList.map fun t => Polled.frame (.trailers t)) = inner
  have hstart : InjectBody.Streaming injection.snippet injection.maxHtmlBytes [] []
      (InjectBody.new inner injection.snippet injection.maxHtmlBytes) :=
    ⟨rfl, rfl, .inr ⟨rfl, rfl, .inr ⟨by decide, rfl⟩⟩⟩
  obtain ⟨datas, hframes, hout⟩ := hstart.pull h rfl rfl pieces trailers le_rfl
  rw [hinner] at hframes
  refine ⟨datas, fun polls hpolls => InjectBody.collect_mono hpolls hframes, ?_, ?_⟩
  · rcases hout with ⟨-, hsame⟩ | hinserted | ⟨-, hsame⟩
    · exact .inl hsame
    · exact .inr hinserted
    · exact .inl hsame
  · intro first hfirst hearliest hfits
    have hinserted : ∃ place, rfindAsciiCi (bodyOf pieces) CLOSE_BODY = some place ∧
        datas.flatten = inserted injection.snippet (bodyOf pieces) place := by
      rcases hout with ⟨hnone, -⟩ | hinserted | ⟨⟨place, hplace, hlong⟩, -⟩
      · exact absurd hfirst ((Search.rfind_eq_none closeBody_ne_nil).mp hnone first)
      · exact hinserted
      · have hbefore : place < first := by
          rw [List.nil_append] at hlong
          omega
        exact absurd hplace (hearliest place hbefore)
    refine ⟨hinserted, fun headers encoded hsize hdecoded => ?_⟩
    obtain ⟨place, hlast, hdatas⟩ := hinserted
    rw [injectBuffered_body injection headers hsize hdecoded hlast, hdatas]

/-- Decompressors that read nothing, for pages that are not encoded. -/
abbrev noDecompressors : Decompressors where
  gunzip _ := ([], false)
  zlib _ := ([], false)
  inflate _ := ([], false)
  brotli _ := ([], false)

/-- A page whose `</body>` comes in two pieces. -/
theorem streamed_page_split :
    ∃ datas : List (List UInt8),
      InjectBody.collect 6 (InjectBody.new
        [.frame (.data [0x61, 0x3c, 0x2f, 0x62]), .pending, .frame (.data [0x6f, 0x44, 0x79, 0x3e])]
        [0x21] 100) = some (datas.map .data ++ []) ∧
      datas.flatten = [0x61, 0x21, 0x3c, 0x2f, 0x62, 0x6f, 0x44, 0x79, 0x3e] := by
  obtain ⟨datas, hframes, -, hfits⟩ := @streamed_page noDecompressors ⟨[0x21], 100⟩ (by decide)
    [some [0x61, 0x3c, 0x2f, 0x62], none, some [0x6f, 0x44, 0x79, 0x3e]] none
  obtain ⟨⟨place, hplace, hdatas⟩, -⟩ := hfits 1 (by decide) (by decide) (by decide)
  have hone : place = 1 := by
    have hlast := hplace.symm.trans (by decide : _ = some 1)
    exact Option.some.inj hlast
  refine ⟨datas, hframes 6 le_rfl, ?_⟩
  rw [hdatas, hone]
  decide

end Teitunnel.Lens
