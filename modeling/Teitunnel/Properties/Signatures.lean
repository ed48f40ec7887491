import Teitunnel.Lens.Replay
import Teitunnel.Lib.Fallible
import Teitunnel.Lib.Trim
import Teitunnel.Properties.Folders

/-!
# Signed webhooks

When the signature of a replay that was signed anew verifies, and what a signature that verifies
covers.
-/

namespace Except

/-- What is made of a list one by one, each from its own. -/
lemma forall₂_of_mapM {ε α β : Type} {f : α → Except ε β} {l : List α} {out : List β}
    (h : l.mapM f = .ok out) : List.Forall₂ (fun a b => f a = .ok b) l out := by
  induction l generalizing out with
  | nil =>
      rw [← pure_eq_ok.mp h]
      exact .nil
  | cons a rest ih =>
      rw [List.mapM_cons] at h
      obtain ⟨b, hb, hrest⟩ := bind_eq_ok.mp h
      obtain ⟨bs, hbs, hout⟩ := bind_eq_ok.mp hrest
      rw [← pure_eq_ok.mp hout]
      exact .cons hb (ih hbs)

end Except

namespace Teitunnel.Lens.Webhook

open Text Foreign
open Upstream (parseU64)

/-! ## Texts without white space -/

/-- A text of visible characters. -/
def Plain (s : String) : Prop := ∀ c ∈ s.toList, 33 ≤ c.toNat ∧ c.toNat ≤ 126

lemma Plain.append {a b : String} (ha : Plain a) (hb : Plain b) : Plain (a ++ b) := by
  intro c hc
  rw [String.toList_append, List.mem_append] at hc
  exact hc.elim (ha c) (hb c)

lemma Plain.of_all {s : String} {l : List Char}
    (hl : l.all (fun c => 33 ≤ c.toNat && c.toNat ≤ 126) = true) (h : ∀ c ∈ s.toList, c ∈ l) :
    Plain s := by
  intro c hc
  simpa using List.all_eq_true.mp hl c (h c hc)

lemma Plain.visible {s : String} (h : Plain s) : AllChars isVisible s := by
  rw [allChars_iff]
  intro c hc
  have hrange := h c hc
  have hlow : decide (32 ≤ c.toNat) = true := decide_eq_true (by omega)
  have hhigh : decide (c.toNat < 127) = true := decide_eq_true (by omega)
  rw [isVisible, hlow, hhigh]
  rfl

lemma Plain.trim_eq {s : String} (h : Plain s) : trim s = s :=
  trim_eq_self fun c hc => not_isWhitespace (h c hc)

lemma digit_toString {n : ℕ} {c : Char} (h : c ∈ (toString n).toList) :
    48 ≤ c.toNat ∧ c.toNat ≤ 57 := by
  have hdigit := Nat.isDigit_of_mem_toDigits (by decide) (by decide)
    ((Nat.toList_repr (n := n)) ▸ h)
  simpa [Char.isDigit, Char.le_def, UInt32.le_iff_toNat_le] using hdigit

lemma plain_toString (n : ℕ) : Plain (toString n) := by
  intro c hc
  have hdigit := digit_toString hc
  omega

lemma plain_hex (bytes : List UInt8) : Plain (Hex.encode bytes) :=
  .of_all (by decide +kernel) fun _ => Hex.mem_encode

lemma mem_encodePadded {bytes : List UInt8} {c : Char}
    (h : c ∈ (Base64.encodePadded .standard bytes).toList) :
    c ∈ '=' :: Base64.Alphabet.standard.chars := by
  rw [Base64.encodePadded, String.toList_append, List.mem_append, String.toList_ofList] at h
  rcases h with h | h
  · exact List.mem_cons_of_mem _ (Base64.mem_encode _ h)
  · rw [(List.mem_replicate.mp h).2]
    exact List.mem_cons_self

lemma plain_base64 (bytes : List UInt8) : Plain (Base64.encodePadded .standard bytes) :=
  .of_all (by decide +kernel) fun _ => mem_encodePadded

lemma plain_of_decide {s : String}
    (h : s.toList.all (fun c => 33 ≤ c.toNat && c.toNat ≤ 126) = true) : Plain s :=
  .of_all h fun _ => id

/-- A trimmed part of a header is still the text of a header. -/
lemma visible_trim {s : String} (h : AllChars isVisible s) : AllChars isVisible (trim s) := by
  rw [allChars_iff] at h ⊢
  intro c hc
  refine h c ?_
  rw [trim, trimMatches, trimEnd, trimStart, String.toList_ofList, String.toList_ofList] at hc
  exact (List.dropWhile_sublist _).mem ((List.rdropWhile_prefix _ _).mem hc)

lemma trim_trim (s : String) : trim (trim s) = trim s :=
  trim_eq (noLeadingSpace_trim s) (noTrailingSpace_trim s)

lemma parseU64_toString (now : UInt64) : parseU64 (toString now.toNat) = some now.toNat := by
  rw [parseU64, parseNumber_toString, Option.filter_some,
    if_pos (decide_eq_true now.toNat_lt)]

/-! ## Headers -/

section Headers

variable {headers : HeaderMap} {name other value : String}

lemma header_set_self (h : AllChars isVisible value) :
    header (set headers name value) name = some (trim value) := by
  rw [set, header, HeaderMap.getText?_insertText_self h, Option.map_some]

lemma header_set_plain (h : Plain value) : header (set headers name value) name = some value := by
  rw [header_set_self h.visible, h.trim_eq]

lemma get?_set_of_ne (h : other ≠ name) : (set headers name value).get? other = headers.get? other := by
  rw [set, HeaderMap.insertText]
  cases HeaderValue.fromStr value with
  | none => rfl
  | some v =>
      dsimp only
      rw [HeaderMap.get?, HeaderMap.getAll_insert_of_ne headers h, HeaderMap.get?]

lemma header_set_of_ne (h : other ≠ name) :
    header (set headers name value) other = header headers other := by
  rw [set, header, HeaderMap.getText?_insertText_of_ne h, header]

lemma containsKey_set_of_ne (h : other ≠ name) :
    (set headers name value).containsKey other = headers.containsKey other := by
  rw [HeaderMap.containsKey, get?_set_of_ne h, HeaderMap.containsKey]

lemma containsKey_of_header (h : header headers name = some value) :
    headers.containsKey name = true := by
  rw [header, HeaderMap.getText?, Option.map_eq_some_iff] at h
  obtain ⟨text, htext, -⟩ := h
  obtain ⟨v, hv, -⟩ := Option.bind_eq_some_iff.mp htext
  rw [HeaderMap.containsKey, hv, Option.isSome_some]

/-- What a header holds may be put into one. -/
lemma visible_header (h : header headers name = some value) : AllChars isVisible value := by
  rw [header, HeaderMap.getText?, Option.map_eq_some_iff] at h
  obtain ⟨text, htext, rfl⟩ := h
  obtain ⟨v, -, hv⟩ := Option.bind_eq_some_iff.mp htext
  exact visible_trim (HeaderValue.toStr_visible hv)

lemma trim_header (h : header headers name = some value) : trim value = value := by
  rw [header, Option.map_eq_some_iff] at h
  obtain ⟨text, -, rfl⟩ := h
  exact trim_trim text

/-- The encodings of a body are in a header of their own. -/
lemma encodings_set (h : CONTENT_ENCODING ≠ name) :
    encodings (set headers name value) = encodings headers := by
  rw [encodings, encodings, set, HeaderMap.insertText]
  cases HeaderValue.fromStr value with
  | none => rfl
  | some v =>
      dsimp only
      rw [HeaderMap.getAll_insert_of_ne headers h]

end Headers

/-! ## What is signed -/

/-- What a signature covers in front of the body. -/
def preamble (headers : HeaderMap) (ts : String) : Provider → List UInt8
  | .stripe => utf8 ts ++ utf8 "."
  | .slack => utf8 "v0:" ++ utf8 ts ++ utf8 ":"
  | .standardWebhooks =>
      utf8 ((header headers (standardNames headers).id).getD "") ++ utf8 "." ++ utf8 ts ++ utf8 "."
  | _ => []

def signingKey (secret : WebhookSecret) : Provider → List UInt8
  | .standardWebhooks => secret.standardKey.getD []
  | _ => secret.raw

/-- The time that a signature carries is recent: Linear's is in the body. -/
def Timely [Foreign] (body : List UInt8) (signed now : UInt64) : Provider → Prop
  | .linear => ∀ ms, webhookTimestamp body = some ms → (age (ms / 1000) now).natAbs ≤ 60
  | provider => ∀ tolerance, provider.defaultTolerance = some tolerance →
      (age signed.toNat now).natAbs ≤ tolerance

lemma checkTime_eq_valid {timestamp : ℕ} {now : UInt64} {tolerance : Option ℕ} :
    checkTime timestamp now tolerance = .valid ↔
      ∀ t, tolerance = some t → (age timestamp now).natAbs ≤ t := by
  cases tolerance with
  | none => simp [checkTime]
  | some t =>
      rw [checkTime]
      constructor
      · intro h t' ht'
        rw [← Option.some.inj ht']
        by_contra hlate
        rw [if_pos (not_le.mp hlate)] at h
        cases h
      · intro h
        rw [if_neg (not_lt.mpr (h t rfl))]

lemma ite_valid_iff {p : Prop} [Decidable p] {outcome : Verification} {reason : String} :
    (if p then outcome else .invalid reason) = .valid ↔ p ∧ outcome = .valid := by
  by_cases hp : p
  · rw [if_pos hp]
    exact (and_iff_right hp).symm
  · rw [if_neg hp]
    constructor
    · intro h
      cases h
    · intro h
      exact absurd h.1 hp

/-! ## One sender after another -/

lemma stripePart_time {found : Option ℕ × List (List UInt8)} {ts : String} (h : Plain ts) :
    stripePart found ("t=" ++ ts) = (parseU64 ts, found.2) := by
  have hplain : Plain ("t=" ++ ts) := (plain_of_decide (by decide)).append h
  have htext : "t=" ++ ts = "t" ++ String.singleton '=' ++ ts := rfl
  rw [stripePart, hplain.trim_eq, htext, splitOnce_append (by decide)]
  rfl

lemma stripePart_signature {found : Option ℕ × List (List UInt8)} (sig : List UInt8) :
    stripePart found ("v1=" ++ Hex.encode sig) = (found.1, found.2 ++ [sig]) := by
  have hplain : Plain ("v1=" ++ Hex.encode sig) := (plain_of_decide (by decide)).append (plain_hex sig)
  have htext : "v1=" ++ Hex.encode sig = "v1" ++ String.singleton '=' ++ Hex.encode sig := rfl
  rw [stripePart, hplain.trim_eq, htext, splitOnce_append (by decide)]
  dsimp only
  rw [if_neg (by decide), if_pos rfl, Hex.decode_encode]
  rfl

lemma comma_notMem_hex (bytes : List UInt8) : ',' ∉ (Hex.encode bytes).toList := by
  intro h
  exact absurd (Hex.mem_encode h) (by decide)

section Senders

variable [Foreign] {headers : HeaderMap} {body : List UInt8} {secret : WebhookSecret} {now : UInt64}
  {input : VerifyInput} {tolerance : Option ℕ}

lemma verifyStripe_resigned (h : input.headers = resignStripe headers body secret (toString now.toNat)) :
    verifyStripe input secret tolerance = .valid ↔
      hmacSha256 secret.raw (utf8 (toString now.toNat) ++ utf8 "." ++ input.body) =
        hmacSha256 secret.raw (utf8 (toString now.toNat) ++ utf8 "." ++ body) ∧
      checkTime now.toNat input.now tolerance = .valid := by
  set ts := toString now.toNat with hts
  set sig := hmacSha256 secret.raw (utf8 ts ++ utf8 "." ++ body) with hsig
  have hplain : Plain ("t=" ++ ts ++ ",v1=" ++ Hex.encode sig) :=
    (((plain_of_decide (by decide)).append (plain_toString _)).append
      (plain_of_decide (by decide))).append (plain_hex sig)
  have hheader : header input.headers "stripe-signature" =
      some ("t=" ++ ts ++ ",v1=" ++ Hex.encode sig) := by
    rw [h, resignStripe, header_set_plain hplain]
  have hcomma : ',' ∉ ("t=" ++ ts).toList := by
    intro hmem
    rw [String.toList_append, List.mem_append] at hmem
    rcases hmem with hmem | hmem
    · exact absurd hmem (by decide)
    · exact absurd (digit_toString hmem) (by decide)
  have hrest : ',' ∉ ("v1=" ++ Hex.encode sig).toList := by
    intro hmem
    rw [String.toList_append, List.mem_append] at hmem
    rcases hmem with hmem | hmem
    · exact absurd hmem (by decide)
    · exact comma_notMem_hex sig hmem
  have hparts : split ',' ("t=" ++ ts ++ ",v1=" ++ Hex.encode sig) =
      ["t=" ++ ts, "v1=" ++ Hex.encode sig] := by
    have htext : "t=" ++ ts ++ ",v1=" ++ Hex.encode sig =
        "t=" ++ ts ++ String.singleton ',' ++ ("v1=" ++ Hex.encode sig) := by
      have hmiddle : ",v1=" = String.singleton ',' ++ "v1=" := by decide
      rw [hmiddle]
      simp only [String.append_assoc]
    rw [htext, split_append hcomma, split_of_not_mem hrest]
  have hfold : (split ',' ("t=" ++ ts ++ ",v1=" ++ Hex.encode sig)).foldl stripePart (none, []) =
      (some now.toNat, [sig]) := by
    rw [hparts, List.foldl_cons, List.foldl_cons, List.foldl_nil,
      stripePart_time (plain_toString _), stripePart_signature, parseU64_toString]
    rfl
  rw [verifyStripe, hheader]
  dsimp only
  rw [hfold]
  dsimp only
  rw [ite_valid_iff, List.contains_iff_mem, List.mem_singleton]

lemma verifyGitHub_resigned (h : input.headers = resignGitHub headers body secret) :
    verifyGitHub input secret = .valid ↔
      hmacSha256 secret.raw input.body = hmacSha256 secret.raw body := by
  have hplain : Plain ("sha256=" ++ Hex.encode (hmacSha256 secret.raw body)) :=
    (plain_of_decide (by decide)).append (plain_hex _)
  have hheader : header input.headers "x-hub-signature-256" =
      some ("sha256=" ++ Hex.encode (hmacSha256 secret.raw body)) := by
    rw [h, resignGitHub]
    split
    · rw [header_set_of_ne (by decide), header_set_plain hplain]
    · rw [header_set_plain hplain]
  rw [verifyGitHub, hheader]
  dsimp only
  rw [stripStart_eq_some.mpr rfl, Option.bind_some, Hex.decode_encode]
  dsimp only
  rw [ite_valid_iff, and_iff_left rfl, eq_comm]

lemma verifySlack_resigned (h : input.headers = resignSlack headers body secret (toString now.toNat)) :
    verifySlack input secret tolerance = .valid ↔
      hmacSha256 secret.raw (utf8 "v0:" ++ utf8 (toString now.toNat) ++ utf8 ":" ++ input.body) =
        hmacSha256 secret.raw (utf8 "v0:" ++ utf8 (toString now.toNat) ++ utf8 ":" ++ body) ∧
      checkTime now.toNat input.now tolerance = .valid := by
  set sig := hmacSha256 secret.raw
    (utf8 "v0:" ++ utf8 (toString now.toNat) ++ utf8 ":" ++ body) with hsig
  have hplain : Plain ("v0=" ++ Hex.encode sig) := (plain_of_decide (by decide)).append (plain_hex _)
  have htime : header input.headers "x-slack-request-timestamp" = some (toString now.toNat) := by
    rw [h, resignSlack, header_set_of_ne (by decide), header_set_plain (plain_toString _)]
  have hheader : header input.headers "x-slack-signature" = some ("v0=" ++ Hex.encode sig) := by
    rw [h, resignSlack, header_set_plain hplain]
  rw [verifySlack, htime, hheader]
  dsimp only
  rw [parseU64_toString, stripStart_eq_some.mpr rfl, Option.bind_some, Hex.decode_encode]
  dsimp only
  rw [ite_valid_iff, eq_comm]

lemma verifyShopify_resigned (h : input.headers = resignShopify headers body secret) :
    verifyShopify input secret = .valid ↔
      hmacSha256 secret.raw input.body = hmacSha256 secret.raw body := by
  rw [verifyShopify, h, resignShopify, header_set_plain (plain_base64 _), Option.bind_some,
    Base64.decodePadded_encodePadded]
  dsimp only
  rw [ite_valid_iff, and_iff_left rfl, eq_comm]

lemma verifyLinear_resigned (h : input.headers = resignLinear headers body secret) :
    verifyLinear input secret tolerance = .valid ↔
      hmacSha256 secret.raw input.body = hmacSha256 secret.raw body ∧
      ∀ ms, webhookTimestamp input.body = some ms →
        checkTime (ms / 1000) input.now tolerance = .valid := by
  rw [verifyLinear, h, resignLinear, header_set_plain (plain_hex _), Option.bind_some,
    Hex.decode_encode]
  dsimp only
  rw [ite_valid_iff, eq_comm]
  refine and_congr_right fun _ => ?_
  cases webhookTimestamp input.body with
  | none => simp
  | some ms => simp

/-- Signing anew keeps which headers a standard webhook has. -/
lemma standardNames_resigned {key random : List UInt8} {ts : String} :
    standardNames (standardHeaders headers body ts random key) = standardNames headers := by
  have hplain : Plain ("v1," ++ Base64.encodePadded .standard (hmacSha256 key
      (utf8 ((header headers (standardNames headers).id).getD (freshId random)) ++ utf8 "." ++
        utf8 ts ++ utf8 "." ++ body))) := (plain_of_decide (by decide)).append (plain_base64 _)
  have hsigned : (standardHeaders headers body ts random key).containsKey
      (standardNames headers).signature = true :=
    containsKey_of_header (header_set_plain hplain)
  by_cases hsvix : (headers.containsKey "webhook-signature" ||
    !headers.containsKey "svix-signature") = true
  · have hnames : standardNames headers =
        ⟨"webhook-id", "webhook-timestamp", "webhook-signature"⟩ := if_pos hsvix
    rw [hnames] at hsigned ⊢
    rw [standardNames, hsigned]
    rfl
  · have hnames : standardNames headers = ⟨"svix-id", "svix-timestamp", "svix-signature"⟩ :=
      if_neg hsvix
    rw [Bool.or_eq_true, not_or, Bool.not_eq_true] at hsvix
    have hplainNames : (standardHeaders headers body ts random key).containsKey "webhook-signature" =
        false := by
      rw [standardHeaders, hnames]
      dsimp only
      rw [containsKey_set_of_ne (by decide), containsKey_set_of_ne (by decide),
        containsKey_set_of_ne (by decide), hsvix.1]
    rw [hnames] at hsigned ⊢
    rw [standardNames, hsigned, hplainNames]
    rfl

omit [Foreign] in
lemma standardNames_distinct (headers : HeaderMap) :
    (standardNames headers).id ≠ (standardNames headers).timestamp ∧
      (standardNames headers).id ≠ (standardNames headers).signature ∧
      (standardNames headers).timestamp ≠ (standardNames headers).signature := by
  rw [standardNames]
  split <;> decide

lemma verifyStandard_resigned {key random : List UInt8} (hkey : secret.standardKey = some key)
    (h : input.headers = standardHeaders headers body (toString now.toNat) random key) :
    verifyStandard input secret tolerance = .valid ↔
      hmacSha256 key (preamble input.headers (toString now.toNat) .standardWebhooks ++ input.body) =
        hmacSha256 key (preamble input.headers (toString now.toNat) .standardWebhooks ++ body) ∧
      checkTime now.toNat input.now tolerance = .valid := by
  obtain ⟨hidTime, hidSig, htimeSig⟩ := standardNames_distinct headers
  set id := (header headers (standardNames headers).id).getD (freshId random) with hid
  have hidText : AllChars isVisible id ∧ trim id = id := by
    rw [hid]
    cases hheader : header headers (standardNames headers).id with
    | none =>
        have hplain : Plain (freshId random) := (plain_of_decide (by decide)).append (plain_hex random)
        exact ⟨hplain.visible, hplain.trim_eq⟩
    | some text => exact ⟨visible_header hheader, trim_header hheader⟩
  set sig := hmacSha256 key (utf8 id ++ utf8 "." ++ utf8 (toString now.toNat) ++ utf8 "." ++ body)
    with hsig
  have hplain : Plain ("v1," ++ Base64.encodePadded .standard sig) :=
    (plain_of_decide (by decide)).append (plain_base64 _)
  have hnames : standardNames input.headers = standardNames headers := by
    rw [h, standardNames_resigned]
  have hidHeader : header input.headers (standardNames headers).id = some id := by
    rw [h, standardHeaders]
    rw [header_set_of_ne hidSig, header_set_of_ne hidTime, header_set_self hidText.1, hidText.2]
  have htimeHeader : header input.headers (standardNames headers).timestamp =
      some (toString now.toNat) := by
    rw [h, standardHeaders]
    rw [header_set_of_ne htimeSig, header_set_plain (plain_toString _)]
  have hsigHeader : header input.headers (standardNames headers).signature =
      some ("v1," ++ Base64.encodePadded .standard sig) := by
    rw [h, standardHeaders]
    rw [header_set_plain hplain]
  have hspace : ' ' ∉ ("v1," ++ Base64.encodePadded .standard sig).toList := by
    intro hmem
    exact absurd (hplain ' ' hmem) (by decide)
  have hentry : standardEntry ("v1," ++ Base64.encodePadded .standard sig) = some sig := by
    have htext : "v1," ++ Base64.encodePadded .standard sig =
        "v1" ++ String.singleton ',' ++ Base64.encodePadded .standard sig := rfl
    rw [standardEntry, htext, splitOnce_append (by decide)]
    dsimp only
    rw [if_pos rfl, Base64.decodePadded_encodePadded]
  have hpreamble : preamble input.headers (toString now.toNat) .standardWebhooks =
      utf8 id ++ utf8 "." ++ utf8 (toString now.toNat) ++ utf8 "." := by
    rw [preamble, hnames, hidHeader, Option.getD_some]
  rw [hpreamble, verifyStandard, hnames]
  rw [hidHeader, htimeHeader, hsigHeader]
  dsimp only
  rw [parseU64_toString, hkey]
  dsimp only
  rw [split_of_not_mem hspace, List.filterMap_cons_some hentry, List.filterMap_nil, ite_valid_iff,
    List.contains_iff_mem, List.mem_singleton]

/-- A request that was signed anew verifies for every body with the signature of the one that was
signed, as long as its time is recent. -/
lemma verify_resigned {provider : Provider} {random : List UInt8} {signed : HeaderMap}
    (hresign : resign headers body secret provider now random = .ok signed)
    (h : input.headers = signed) (hcomplete : input.bodyComplete = true)
    (htolerance : input.tolerance = none) :
    verify input secret provider = .valid ↔
      hmacSha256 (signingKey secret provider)
          (preamble signed (toString now.toNat) provider ++ input.body) =
        hmacSha256 (signingKey secret provider)
          (preamble signed (toString now.toNat) provider ++ body) ∧
      Timely input.body now input.now provider := by
  subst h
  have hnone : ∀ t, (none : Option ℕ) = some t → (age now.toNat input.now).natAbs ≤ t := by
    intro t ht
    cases ht
  rw [verify, if_pos hcomplete, htolerance, Option.none_or]
  cases provider with
  | stripe =>
      dsimp only
      rw [verifyStripe_resigned (Except.ok.inj hresign).symm, checkTime_eq_valid]
      rfl
  | gitHub =>
      dsimp only
      rw [verifyGitHub_resigned (Except.ok.inj hresign).symm]
      exact (and_iff_left hnone).symm
  | slack =>
      dsimp only
      rw [verifySlack_resigned (Except.ok.inj hresign).symm, checkTime_eq_valid]
      rfl
  | shopify =>
      dsimp only
      rw [verifyShopify_resigned (Except.ok.inj hresign).symm]
      exact (and_iff_left hnone).symm
  | standardWebhooks =>
      dsimp only
      rw [resign] at hresign
      cases hkey : secret.standardKey with
      | none =>
          rw [hkey] at hresign
          cases hresign
      | some key =>
          rw [hkey] at hresign
          rw [verifyStandard_resigned hkey (Except.ok.inj hresign).symm, checkTime_eq_valid,
            signingKey, hkey]
          rfl
  | twilio => cases hresign
  | linear =>
      dsimp only
      rw [verifyLinear_resigned (Except.ok.inj hresign).symm]
      refine and_congr_right fun _ => forall₂_congr fun ms _ => ?_
      rw [checkTime_eq_valid]
      constructor
      · intro hall
        exact hall 60 rfl
      · intro hage t ht
        rw [← Option.some.inj ht]
        exact hage
  | discord => cases hresign

/-! ## What a signature that verifies covers -/

/-- The text of a part of Stripe's header under a name. -/
def partText (name part : String) : Option String :=
  (splitOnce '=' (trim part)).bind fun (key, text) => if key = name then some text else none

/-- The time in Stripe's header: the last one counts. -/
def stripeTime (value : String) : Option ℕ :=
  ((split ',' value).filterMap (partText "t")).getLast?.bind parseU64

def partSignature (part : String) : Option (List UInt8) := (partText "v1" part).bind Hex.decode

/-- The signatures in Stripe's header. -/
def stripeSignatures (value : String) : List (List UInt8) := (split ',' value).filterMap partSignature

/-- A signature in the headers is the sender's for exactly this request; with the time it carries. -/
inductive Signed [Foreign] (input : VerifyInput) (secret : WebhookSecret) :
    Provider → Option ℕ → Prop where
  | stripe {value : String} {t : ℕ} (hvalue : header input.headers "stripe-signature" = some value)
      (htime : stripeTime value = some t)
      (hmac : hmacSha256 secret.raw (utf8 (toString t) ++ utf8 "." ++ input.body) ∈
        stripeSignatures value) : Signed input secret .stripe (some t)
  | gitHub {text : String}
      (hvalue : header input.headers "x-hub-signature-256" = some ("sha256=" ++ text))
      (hmac : Hex.decode text = some (hmacSha256 secret.raw input.body)) :
      Signed input secret .gitHub none
  | gitHubOld {text : String} (hnone : header input.headers "x-hub-signature-256" = none)
      (hvalue : header input.headers "x-hub-signature" = some ("sha1=" ++ text))
      (hmac : Hex.decode text = some (hmacSha1 secret.raw input.body)) :
      Signed input secret .gitHub none
  | slack {ts text : String} {t : ℕ}
      (hts : header input.headers "x-slack-request-timestamp" = some ts)
      (htime : parseU64 ts = some t)
      (hvalue : header input.headers "x-slack-signature" = some ("v0=" ++ text))
      (hmac : Hex.decode text = some (hmacSha256 secret.raw
        (utf8 "v0:" ++ utf8 ts ++ utf8 ":" ++ input.body))) : Signed input secret .slack (some t)
  | shopify {text : String} (hvalue : header input.headers "x-shopify-hmac-sha256" = some text)
      (hmac : Base64.decodePadded .standard text = some (hmacSha256 secret.raw input.body)) :
      Signed input secret .shopify none
  | standardWebhooks {id ts signatures text : String} {t : ℕ} {key : List UInt8}
      (hid : header input.headers (standardNames input.headers).id = some id)
      (hts : header input.headers (standardNames input.headers).timestamp = some ts)
      (hvalue : header input.headers (standardNames input.headers).signature = some signatures)
      (htime : parseU64 ts = some t) (hkey : secret.standardKey = some key)
      (htext : "v1," ++ text ∈ split ' ' signatures)
      (hmac : Base64.decodePadded .standard text = some (hmacSha256 key
        (utf8 id ++ utf8 "." ++ utf8 ts ++ utf8 "." ++ input.body))) :
      Signed input secret .standardWebhooks (some t)
  | twilio {text : String} (hvalue : header input.headers "x-twilio-signature" = some text)
      (hfits : twilioFits input = true)
      (hmac : Base64.decodePadded .standard text =
        some (hmacSha1 secret.raw (twilioSigned input))) : Signed input secret .twilio none
  | linear {text : String} (hvalue : header input.headers "linear-signature" = some text)
      (hmac : Hex.decode text = some (hmacSha256 secret.raw input.body)) :
      Signed input secret .linear ((webhookTimestamp input.body).map (· / 1000))
  | discord {text ts : String} {key sig : List UInt8}
      (hvalue : header input.headers "x-signature-ed25519" = some text)
      (hts : header input.headers "x-signature-timestamp" = some ts)
      (hkey : Hex.decode (trim secret.expose) = some key) (hsig : Hex.decode text = some sig)
      (haccepts : ed25519 key (utf8 ts ++ input.body) sig = true) :
      Signed input secret .discord none

/-- A right signature is judged by its time. -/
def judged (now : UInt64) (tolerance : Option ℕ) : Option ℕ → Verification
  | some t => checkTime t now tolerance
  | none => .valid

omit [Foreign] in
lemma stripePart_eq (found : Option ℕ × List (List UInt8)) (part : String) :
    stripePart found part = ((partText "t" part).elim found.1 parseU64,
      found.2 ++ (partSignature part).toList) := by
  rw [stripePart, partSignature, partText, partText]
  cases splitOnce '=' (trim part) with
  | none => simp
  | some cut =>
      obtain ⟨name, text⟩ := cut
      by_cases ht : name = "t"
      · simp [ht]
      · by_cases hv : name = "v1" <;> simp [ht, hv]

omit [Foreign] in
lemma foldl_stripePart (parts : List String) (found : Option ℕ × List (List UInt8)) :
    parts.foldl stripePart found =
      ((parts.filterMap (partText "t")).getLast?.elim found.1 parseU64,
        found.2 ++ parts.filterMap partSignature) := by
  induction parts generalizing found with
  | nil => simp
  | cons part rest ih =>
      have hsig : (partSignature part).toList ++ rest.filterMap partSignature =
          (part :: rest).filterMap partSignature := by
        rw [List.filterMap_cons]
        cases partSignature part <;> rfl
      rw [List.foldl_cons, ih, stripePart_eq, List.append_assoc, hsig]
      cases htime : partText "t" part with
      | none => rw [List.filterMap_cons_none htime, Option.elim_none]
      | some text =>
          rw [List.filterMap_cons_some htime, List.getLast?_cons, Option.elim_some, Option.elim_some]
          cases (rest.filterMap (partText "t")).getLast? with
          | none => rw [Option.elim_none, Option.getD_none]
          | some last => rw [Option.elim_some, Option.getD_some]

omit [Foreign] in
/-- What Stripe's header says is the last of its times and each of its signatures. -/
lemma stripeHeader_eq (value : String) :
    (split ',' value).foldl stripePart (none, []) = (stripeTime value, stripeSignatures value) := by
  rw [foldl_stripePart, List.nil_append, stripeTime, stripeSignatures]
  cases ((split ',' value).filterMap (partText "t")).getLast? <;> rfl

omit [Foreign] in
lemma mem_standardEntries {signatures : String} {sig : List UInt8} :
    sig ∈ (split ' ' signatures).filterMap standardEntry ↔
      ∃ text, "v1," ++ text ∈ split ' ' signatures ∧ Base64.decodePadded .standard text = some sig := by
  rw [List.mem_filterMap]
  constructor
  · rintro ⟨entry, hentry, hsig⟩
    rw [standardEntry] at hsig
    cases hcut : splitOnce ',' entry with
    | none =>
        rw [hcut] at hsig
        cases hsig
    | some cut =>
        obtain ⟨version, text⟩ := cut
        rw [hcut] at hsig
        dsimp only at hsig
        split_ifs at hsig with hversion
        refine ⟨text, ?_, hsig⟩
        rw [(splitOnce_eq hcut), hversion] at hentry
        exact hentry
  · rintro ⟨text, hentry, hsig⟩
    refine ⟨_, hentry, ?_⟩
    have htext : "v1," ++ text = "v1" ++ String.singleton ',' ++ text := rfl
    rw [standardEntry, htext, splitOnce_append (by decide)]
    exact hsig

/-- A right signature is judged by its time. -/
lemma verify_of_signed {provider : Provider} {stamp : Option ℕ}
    (hcomplete : input.bodyComplete = true) (h : Signed input secret provider stamp) :
    verify input secret provider =
      judged input.now (input.tolerance.or provider.defaultTolerance) stamp := by
  rw [verify, if_pos hcomplete]
  cases h with
  | stripe hvalue htime hmac =>
      dsimp only
      rw [verifyStripe, hvalue]
      dsimp only
      rw [stripeHeader_eq, htime]
      dsimp only
      rw [if_pos (List.contains_iff_mem.mpr hmac)]
      rfl
  | gitHub hvalue hmac =>
      dsimp only
      rw [verifyGitHub, hvalue]
      dsimp only
      rw [stripStart_eq_some.mpr rfl, Option.bind_some, hmac]
      exact if_pos rfl
  | gitHubOld hnone hvalue hmac =>
      dsimp only
      rw [verifyGitHub, hnone, hvalue]
      dsimp only
      rw [Option.bind_some, stripStart_eq_some.mpr rfl, Option.bind_some, hmac]
      exact if_pos rfl
  | slack hts htime hvalue hmac =>
      dsimp only
      rw [verifySlack, hts, hvalue]
      dsimp only
      rw [htime, stripStart_eq_some.mpr rfl, Option.bind_some, hmac]
      exact if_pos rfl
  | shopify hvalue hmac =>
      dsimp only
      rw [verifyShopify, hvalue, Option.bind_some, hmac]
      exact if_pos rfl
  | standardWebhooks hid hts hvalue htime hkey htext hmac =>
      dsimp only
      rw [verifyStandard]
      rw [hid, hts, hvalue]
      dsimp only
      rw [htime, hkey]
      dsimp only
      rw [if_pos (List.contains_iff_mem.mpr (mem_standardEntries.mpr ⟨_, htext, hmac⟩))]
      rfl
  | twilio hvalue hfits hmac =>
      dsimp only
      rw [verifyTwilio, hvalue, Option.bind_some, hmac]
      dsimp only
      rw [if_pos hfits, if_pos rfl]
      rfl
  | linear hvalue hmac =>
      dsimp only
      rw [verifyLinear, hvalue, Option.bind_some, hmac]
      dsimp only
      rw [if_pos rfl]
      cases webhookTimestamp input.body <;> rfl
  | discord hvalue hts hkey hsig haccepts =>
      dsimp only
      rw [verifyDiscord, hvalue, hts, Option.bind_some, hsig]
      dsimp only
      rw [hkey]
      exact if_pos haccepts

omit [Foreign] in
/-- What is checked holds, or the request is refused. -/
lemma holds_or_invalid {p goal : Prop} [Decidable p] {outcome : Verification} {reason : String}
    (h : p → goal ∨ ∃ reason', outcome = .invalid reason') :
    goal ∨ ∃ reason', (if p then outcome else .invalid reason) = .invalid reason' := by
  by_cases hp : p
  · rw [if_pos hp]
    exact h hp
  · exact .inr ⟨reason, if_neg hp⟩

/-- A request is judged by its time or refused, and only one with a right signature is judged. -/
lemma verify_cases (provider : Provider) (hcomplete : input.bodyComplete = true) :
    (∃ stamp, Signed input secret provider stamp) ∨
      ∃ reason, verify input secret provider = .invalid reason := by
  rw [verify, if_pos hcomplete]
  cases provider with
  | stripe =>
      dsimp only
      rw [verifyStripe]
      cases hvalue : header input.headers "stripe-signature" with
      | none => exact .inr ⟨_, rfl⟩
      | some value =>
          dsimp only
          rw [stripeHeader_eq]
          cases htime : stripeTime value with
          | none => exact .inr ⟨_, rfl⟩
          | some t =>
              dsimp only
              refine holds_or_invalid fun hmac => ?_
              exact .inl ⟨some t, .stripe hvalue htime (List.contains_iff_mem.mp hmac)⟩
  | gitHub =>
      dsimp only
      rw [verifyGitHub]
      cases hvalue : header input.headers "x-hub-signature-256" with
      | some value =>
          dsimp only
          cases hsig : (stripStart "sha256=" value).bind Hex.decode with
          | none => exact .inr ⟨_, rfl⟩
          | some sig =>
              dsimp only
              refine holds_or_invalid fun hmac => ?_
              obtain ⟨text, htext, hdecode⟩ := Option.bind_eq_some_iff.mp hsig
              rw [stripStart_eq_some.mp htext] at hvalue
              exact .inl ⟨none, .gitHub hvalue (hdecode.trans (congrArg some hmac))⟩
      | none =>
          dsimp only
          cases hsig : ((header input.headers "x-hub-signature").bind (stripStart "sha1=")).bind
              Hex.decode with
          | none => exact .inr ⟨_, rfl⟩
          | some sig =>
              dsimp only
              refine holds_or_invalid fun hmac => ?_
              obtain ⟨text, htext, hdecode⟩ := Option.bind_eq_some_iff.mp hsig
              obtain ⟨value, hold, hstrip⟩ := Option.bind_eq_some_iff.mp htext
              rw [stripStart_eq_some.mp hstrip] at hold
              exact .inl ⟨none, .gitHubOld hvalue hold (hdecode.trans (congrArg some hmac))⟩
  | slack =>
      dsimp only
      rw [verifySlack]
      cases hts : header input.headers "x-slack-request-timestamp" with
      | none => exact .inr ⟨_, rfl⟩
      | some ts =>
          cases hvalue : header input.headers "x-slack-signature" with
          | none => exact .inr ⟨_, rfl⟩
          | some value =>
              dsimp only
              cases htime : parseU64 ts with
              | none => exact .inr ⟨_, rfl⟩
              | some t =>
                  dsimp only
                  cases hsig : (stripStart "v0=" value).bind Hex.decode with
                  | none => exact .inr ⟨_, rfl⟩
                  | some sig =>
                      dsimp only
                      refine holds_or_invalid fun hmac => ?_
                      obtain ⟨text, htext, hdecode⟩ := Option.bind_eq_some_iff.mp hsig
                      rw [stripStart_eq_some.mp htext] at hvalue
                      exact .inl ⟨some t, .slack hts htime hvalue
                        (hdecode.trans (congrArg some hmac))⟩
  | shopify =>
      dsimp only
      rw [verifyShopify]
      cases hsig : (header input.headers "x-shopify-hmac-sha256").bind
          (Base64.decodePadded .standard) with
      | none => exact .inr ⟨_, rfl⟩
      | some sig =>
          dsimp only
          refine holds_or_invalid fun hmac => ?_
          obtain ⟨text, htext, hdecode⟩ := Option.bind_eq_some_iff.mp hsig
          exact .inl ⟨none, .shopify htext (hdecode.trans (congrArg some hmac))⟩
  | standardWebhooks =>
      dsimp only
      rw [verifyStandard]
      cases hid : header input.headers (standardNames input.headers).id with
      | none => exact .inr ⟨_, rfl⟩
      | some id =>
          cases hts : header input.headers (standardNames input.headers).timestamp with
          | none => exact .inr ⟨_, rfl⟩
          | some ts =>
              cases hvalue : header input.headers (standardNames input.headers).signature with
              | none => exact .inr ⟨_, rfl⟩
              | some signatures =>
                  dsimp only
                  cases htime : parseU64 ts with
                  | none => exact .inr ⟨_, rfl⟩
                  | some t =>
                      dsimp only
                      cases hkey : secret.standardKey with
                      | none => exact .inr ⟨_, rfl⟩
                      | some key =>
                          dsimp only
                          refine holds_or_invalid fun hmac => ?_
                          obtain ⟨text, htext, hdecode⟩ :=
                            mem_standardEntries.mp (List.contains_iff_mem.mp hmac)
                          exact .inl ⟨some t, .standardWebhooks hid hts hvalue htime hkey htext
                            hdecode⟩
  | twilio =>
      dsimp only
      rw [verifyTwilio]
      cases hsig : (header input.headers "x-twilio-signature").bind
          (Base64.decodePadded .standard) with
      | none => exact .inr ⟨_, rfl⟩
      | some sig =>
          dsimp only
          refine holds_or_invalid fun hfits => ?_
          refine holds_or_invalid fun hmac => ?_
          obtain ⟨text, htext, hdecode⟩ := Option.bind_eq_some_iff.mp hsig
          exact .inl ⟨none, .twilio htext hfits (hdecode.trans (congrArg some hmac))⟩
  | linear =>
      dsimp only
      rw [verifyLinear]
      cases hsig : (header input.headers "linear-signature").bind Hex.decode with
      | none => exact .inr ⟨_, rfl⟩
      | some sig =>
          dsimp only
          refine holds_or_invalid fun hmac => ?_
          obtain ⟨text, htext, hdecode⟩ := Option.bind_eq_some_iff.mp hsig
          exact .inl ⟨_, .linear htext (hdecode.trans (congrArg some hmac))⟩
  | discord =>
      dsimp only
      rw [verifyDiscord]
      cases hsig : (header input.headers "x-signature-ed25519").bind Hex.decode with
      | none => exact .inr ⟨_, rfl⟩
      | some sig =>
          cases hts : header input.headers "x-signature-timestamp" with
          | none => exact .inr ⟨_, rfl⟩
          | some ts =>
              dsimp only
              cases hkey : Hex.decode (trim secret.expose) with
              | none => exact .inr ⟨_, rfl⟩
              | some key =>
                  dsimp only
                  refine holds_or_invalid fun haccepts => ?_
                  obtain ⟨text, htext, hdecode⟩ := Option.bind_eq_some_iff.mp hsig
                  exact .inl ⟨none, .discord htext hts hkey hdecode haccepts⟩

omit [Foreign] in
lemma checkTime_eq_expired {timestamp t : ℕ} {a : ℤ} :
    checkTime timestamp now tolerance = .expired t a ↔
      (t = timestamp ∧ a = age timestamp now) ∧
        ∃ limit, tolerance = some limit ∧ limit < (age timestamp now).natAbs := by
  cases tolerance with
  | none => simp [checkTime]
  | some limit =>
      rw [checkTime]
      by_cases hlate : (age timestamp now).natAbs > limit
      · rw [if_pos hlate]
        constructor
        · intro h
          cases h
          exact ⟨⟨rfl, rfl⟩, limit, rfl, hlate⟩
        · rintro ⟨⟨rfl, rfl⟩, -⟩
          rfl
      · rw [if_neg hlate]
        constructor
        · intro h
          cases h
        · rintro ⟨-, limit', hlimit, hlate'⟩
          rw [← Option.some.inj hlimit] at hlate'
          exact absurd hlate' hlate

/-- A request verifies exactly when a signature in its headers is the sender's for it and the time
that it carries is within the tolerance; it is expired exactly when only the time is not. -/
theorem verify_iff (input : VerifyInput) (secret : WebhookSecret) (provider : Provider) :
    (verify input secret provider = .valid ↔ input.bodyComplete = true ∧
      ∃ stamp, Signed input secret provider stamp ∧ ∀ t, stamp = some t →
        ∀ limit, input.tolerance.or provider.defaultTolerance = some limit →
          (age t input.now).natAbs ≤ limit) ∧
    ∀ t a, verify input secret provider = .expired t a ↔ input.bodyComplete = true ∧
      Signed input secret provider (some t) ∧ a = age t input.now ∧
        ∃ limit, input.tolerance.or provider.defaultTolerance = some limit ∧
          limit < (age t input.now).natAbs := by
  by_cases hcomplete : input.bodyComplete = true
  · rw [and_iff_right hcomplete]
    constructor
    · constructor
      · intro hvalid
        rcases verify_cases provider hcomplete with ⟨stamp, hsigned⟩ | ⟨reason, hinvalid⟩
        · refine ⟨stamp, hsigned, ?_⟩
          rintro t rfl
          rw [verify_of_signed hcomplete hsigned] at hvalid
          exact checkTime_eq_valid.mp hvalid
        · rw [hinvalid] at hvalid
          cases hvalid
      · rintro ⟨stamp, hsigned, htime⟩
        rw [verify_of_signed hcomplete hsigned]
        cases stamp with
        | none => rfl
        | some t => exact checkTime_eq_valid.mpr (htime t rfl)
    · intro t a
      rw [and_iff_right hcomplete]
      constructor
      · intro hexpired
        rcases verify_cases provider hcomplete with ⟨stamp, hsigned⟩ | ⟨reason, hinvalid⟩
        · rw [verify_of_signed hcomplete hsigned] at hexpired
          cases stamp with
          | none => cases hexpired
          | some t' =>
              obtain ⟨⟨rfl, ha⟩, hlate⟩ := checkTime_eq_expired.mp hexpired
              exact ⟨hsigned, ha, hlate⟩
        · rw [hinvalid] at hexpired
          cases hexpired
      · rintro ⟨hsigned, ha, hlate⟩
        rw [verify_of_signed hcomplete hsigned]
        exact checkTime_eq_expired.mpr ⟨⟨rfl, ha⟩, hlate⟩
  · have hcut : verify input secret provider = .notEnoughData
        "the captured body is truncated; raise the capture limit to verify" := if_neg hcomplete
    rw [hcut]
    constructor
    · constructor
      · intro h
        cases h
      · rintro ⟨h, -⟩
        exact absurd h hcomplete
    · intro t a
      constructor
      · intro h
        cases h
      · rintro ⟨h, -⟩
        exact absurd h hcomplete

/-- Signing anew leaves the encodings of the body. -/
lemma encodings_resigned {provider : Provider} {random : List UInt8} {signed : HeaderMap}
    (hresign : resign headers body secret provider now random = .ok signed) :
    encodings signed = encodings headers := by
  cases provider with
  | stripe =>
      rw [← Except.ok.inj hresign, resignStripe, encodings_set (by decide)]
  | gitHub =>
      rw [← Except.ok.inj hresign, resignGitHub]
      split
      · rw [encodings_set (by decide), encodings_set (by decide)]
      · rw [encodings_set (by decide)]
  | slack =>
      rw [← Except.ok.inj hresign, resignSlack, encodings_set (by decide), encodings_set (by decide)]
  | shopify =>
      rw [← Except.ok.inj hresign, resignShopify, encodings_set (by decide)]
  | standardWebhooks =>
      rw [resign] at hresign
      cases hkey : secret.standardKey with
      | none =>
          rw [hkey] at hresign
          cases hresign
      | some key =>
          rw [hkey] at hresign
          have hnames : CONTENT_ENCODING ≠ (standardNames headers).id ∧
              CONTENT_ENCODING ≠ (standardNames headers).timestamp ∧
              CONTENT_ENCODING ≠ (standardNames headers).signature := by
            rw [standardNames]
            split <;> decide
          rw [← Except.ok.inj hresign, standardHeaders, encodings_set hnames.2.2, encodings_set hnames.2.1, encodings_set hnames.1]
  | twilio => cases hresign
  | linear =>
      rw [← Except.ok.inj hresign, resignLinear, encodings_set (by decide)]
  | discord => cases hresign

/-- A captured request that verifies was captured whole. -/
lemma verifyExchange_valid_iff [Decompressors] {request : RequestRecord} {provider : Provider} :
    verifyExchange request secret (some provider) now = .valid ↔
      (request.body.complete && !request.body.truncated) = true ∧
        ∃ body, decodeBody request.headers request.body.data = .ok body ∧
          verify
            { headers := request.headers
              body
              bodyComplete := request.body.complete && !request.body.truncated
              url := request.scheme ++ "://" ++ request.host ++ request.uri.pathAndQuery
              now
              tolerance := none }
            secret provider = .valid := by
  rw [verifyExchange, Option.some_or]
  dsimp only
  cases hbody : decodeBody request.headers request.body.data with
  | error err => simp
  | ok body =>
      dsimp only
      constructor
      · intro hvalid
        refine ⟨?_, body, rfl, hvalid⟩
        by_contra hcut
        rw [verify, if_neg hcut] at hvalid
        cases hvalid
      · rintro ⟨-, body', hbody', hvalid⟩
        rw [Except.ok.inj hbody']
        exact hvalid

end Senders

end Teitunnel.Lens.Webhook

namespace Teitunnel.Lens.Replay

open Webhook Foreign

section Replays

variable [Http] [Foreign] [Decompressors] {cap : ℕ} {original : RequestRecord}
  {options : ReplayOptions} {clock : ℕ → UInt64} {random : ℕ → List UInt8}
  {records : List RequestRecord}

omit [Decompressors] in
/-- Each replay is signed at its own time. -/
lemma of_run (hrun : run cap original options clock random = .ok records) {i : ℕ}
    {sent : RequestRecord} (hi : records[i]? = some sent) :
    ∃ prepared headers, prepare original options.edits = .ok prepared ∧
      signed prepared (clock i) (random i) options.resign = .ok headers ∧
      sent = record cap original prepared headers := by
  rw [run] at hrun
  split_ifs at hrun with htimes
  obtain ⟨prepared, hprepared, hmap⟩ := Except.bind_eq_ok.mp hrun
  have hstep := List.Forall₂.get (Except.forall₂_of_mapM hmap)
  obtain ⟨hlt, rfl⟩ := List.getElem?_eq_some_iff.mp hi
  have hlength := (Except.forall₂_of_mapM hmap).length_eq
  have hbody := hstep (i := i) (by omega) hlt
  obtain ⟨headers, hheaders, hsent⟩ := Except.bind_eq_ok.mp hbody
  refine ⟨prepared, headers, hprepared, ?_, (Except.pure_eq_ok.mp hsent).symm⟩
  simpa using hheaders

/-- A replay that was signed anew verifies exactly when it was recorded whole, what its body decodes
to has the signature of the body as it was sent, and its time is recent. -/
theorem resigned_valid_iff {provider : Provider} {secret : WebhookSecret}
    (hresign : options.resign = some ⟨provider, secret⟩)
    (hrun : run cap original options clock random = .ok records) {i : ℕ} {sent : RequestRecord}
    (hi : records[i]? = some sent) (now : UInt64) :
    verifyExchange sent secret (some provider) now = .valid ↔
      ∃ prepared body, prepare original options.edits = .ok prepared ∧
        prepared.body.length ≤ cap ∧ decodeBody prepared.headers prepared.body = .ok body ∧
        hmacSha256 (signingKey secret provider)
            (preamble sent.headers (toString (clock i).toNat) provider ++ body) =
          hmacSha256 (signingKey secret provider)
            (preamble sent.headers (toString (clock i).toNat) provider ++ prepared.body) ∧
        Timely body (clock i) now provider := by
  obtain ⟨prepared, headers, hprepared, hsigned, rfl⟩ := of_run hrun hi
  rw [hresign, signed, Except.mapError_eq_ok] at hsigned
  have hdecode : ∀ data, decodeBody headers data = decodeBody prepared.headers data := by
    intro data
    rw [decodeBody, encodings_resigned hsigned, decodeBody]
  by_cases hcap : prepared.body.length ≤ cap
  · have htake : prepared.body.take cap = prepared.body := List.take_of_length_le hcap
    have hwhole : ((record cap original prepared headers).body.complete &&
        !(record cap original prepared headers).body.truncated) = true := by simpa [record] using hcap
    rw [verifyExchange_valid_iff, and_iff_right hwhole]
    show (∃ body, decodeBody headers (prepared.body.take cap) = .ok body ∧ _) ↔ _
    rw [htake, hdecode]
    constructor
    · rintro ⟨body, hbody, hvalid⟩
      obtain ⟨hmac, htimely⟩ := (verify_resigned hsigned rfl hwhole rfl).mp hvalid
      exact ⟨prepared, body, hprepared, hcap, hbody, hmac, htimely⟩
    · rintro ⟨prepared', body, hprepared', -, hbody, hmac, htimely⟩
      obtain rfl : prepared = prepared' := Except.ok.inj (hprepared.symm.trans hprepared')
      exact ⟨body, hbody, (verify_resigned hsigned rfl hwhole rfl).mpr ⟨hmac, htimely⟩⟩
  · rw [verifyExchange_valid_iff]
    constructor
    · rintro ⟨hwhole, -⟩
      exact absurd hwhole (by simpa [record] using hcap)
    · rintro ⟨prepared', -, hprepared', hshort, -⟩
      obtain rfl : prepared = prepared' := Except.ok.inj (hprepared.symm.trans hprepared')
      exact absurd hshort hcap

end Replays

/-! A webhook as it was captured, replayed with its body as it was. -/

/-- Readers that take what they are given. -/
@[reducible] def plainHttp : Http where
  method := some
  uri path := some ⟨path, none⟩
  headerName := some

/-- No public keys, no JSON and no other bytes than texts. -/
@[reducible] def ownForeign : Foreign where
  hmacSha256 := Sha256.hmac
  hmacSha1 _ _ := []
  ed25519 _ _ _ := false
  readJson _ := none
  lossy _ := ""

@[reducible] def noDecompressors : Decompressors where
  gunzip _ := ([], false)
  zlib _ := ([], false)
  inflate _ := ([], false)
  brotli _ := ([], false)

def push : RequestRecord where
  method := "POST"
  uri := ⟨"/hook", none⟩
  scheme := "https"
  host := "app.example.com"
  headers := ⟨[("host", .text ⟨"app.example.com", by decide⟩)]⟩
  body := { data := [123, 125], size := 2, complete := true }

theorem resigned_valid_iff_push :
    let _ := plainHttp
    let _ := ownForeign
    let _ := noDecompressors
    let options : ReplayOptions := { resign := some ⟨.gitHub, ⟨"It's a Secret"⟩⟩ }
    ∃ records sent, run 1024 push options (fun _ => 1700000000) (fun _ => []) = .ok records ∧
      records[0]? = some sent ∧
      (verifyExchange sent ⟨"It's a Secret"⟩ (some .gitHub) 1700000000 = .valid ↔
        ∃ prepared body, prepare push options.edits = .ok prepared ∧
          prepared.body.length ≤ 1024 ∧ decodeBody prepared.headers prepared.body = .ok body ∧
          hmacSha256 (signingKey ⟨"It's a Secret"⟩ .gitHub)
              (preamble sent.headers (toString (1700000000 : UInt64).toNat) .gitHub ++ body) =
            hmacSha256 (signingKey ⟨"It's a Secret"⟩ .gitHub)
              (preamble sent.headers (toString (1700000000 : UInt64).toNat) .gitHub ++
                prepared.body) ∧
          Timely body 1700000000 1700000000 .gitHub) := by
  intro _ _ _ options
  refine ⟨_, _, rfl, rfl, ?_⟩
  exact @resigned_valid_iff _ _ _ 1024 push options (fun _ => 1700000000) (fun _ => []) _ .gitHub
    ⟨"It's a Secret"⟩ rfl rfl 0 _ rfl 1700000000

end Teitunnel.Lens.Replay
