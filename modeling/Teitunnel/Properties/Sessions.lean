import Teitunnel.Lens.Gate
import Teitunnel.Lib.Sha256

/-!
# A session is good for the credentials it was issued under

The fingerprint of some credentials reads them one after the other, most without an end.  So a
session is good for other credentials exactly where a field of theirs reads on into the fields
that follow it in the first ones.
-/

namespace Teitunnel.Lens

open Text

section

variable [SessionCrypto]

namespace Gates

variable (c c' : Gates)

/-- The same credentials. -/
def Same : Prop :=
  c.password = c'.password ∧ c.secretLink = c'.secretLink ∧ c.basic = c'.basic ∧
    c.bearer = c'.bearer

/-- A field of the second credentials, a password's hash, a link's token or a basic password, is
the same field of the first ones and then a beginning of what follows it there. -/
def ReadsOn : Prop :=
  (∃ p p' w, c.password = some p ∧ c'.password = some p' ∧ w ≠ "" ∧ p'.phc = p.phc ++ w ∧
    c.linkText ++ (c.basicText ++ c.bearerText) =
      w ++ (c'.linkText ++ (c'.basicText ++ c'.bearerText))) ∨
  (c.password = c'.password ∧ ∃ l l' w, c.secretLink = some l ∧ c'.secretLink = some l' ∧
    w ≠ "" ∧ l'.token = l.token ++ w ∧
    c.basicText ++ c.bearerText = w ++ (c'.basicText ++ c'.bearerText)) ∨
  (c.password = c'.password ∧ c.secretLink = c'.secretLink ∧ ∃ b b' w, c.basic = some b ∧
    c'.basic = some b' ∧ b.user = b'.user ∧ w ≠ "" ∧ b'.password = b.password ++ w ∧
    c.bearerText = w ++ c'.bearerText)

/-- What the fingerprint reads. -/
def text : String :=
  c.passwordText ++ (c.linkText ++ (c.basicText ++ c.bearerText))

variable {c c'}

/-! ## Reading the fields -/

omit [SessionCrypto] in
lemma append_left_cancel {a b b' : String} (h : a ++ b = a ++ b') : b = b' := by
  have hlist := congrArg String.toList h
  rw [String.toList_append, String.toList_append] at hlist
  exact String.toList_injective (List.append_cancel_left hlist)

omit [SessionCrypto] in
/-- A text that starts with one character starts with no other. -/
lemma ne_of_head {a b : Char} {x y : String} (h : a ≠ b) :
    String.singleton a ++ x ≠ String.singleton b ++ y := by
  intro heq
  have hlist := congrArg String.toList heq
  simp only [String.toList_append, String.toList_singleton, List.cons_append, List.nil_append,
    List.cons.injEq] at hlist
  exact h hlist.1

/-- The fields from some field on are empty or start with one of their letters. -/
lemma bearerText_cases : c.bearerText = "" ∨ ∃ x, c.bearerText = String.singleton 't' ++ x := by
  unfold bearerText
  cases c.bearer with
  | nil => exact .inl rfl
  | cons token rest =>
      rw [List.foldr_cons, String.append_assoc, String.append_assoc]
      exact .inr ⟨_, rfl⟩

lemma afterLink_cases : c.basicText ++ c.bearerText = "" ∨
    ∃ a x, (a = 'b' ∨ a = 't') ∧ c.basicText ++ c.bearerText = String.singleton a ++ x := by
  cases hbasic : c.basic with
  | none =>
      have hnone : c.basicText = "" := by rw [basicText, hbasic]
      rw [hnone, String.empty_append]
      rcases c.bearerText_cases with h | ⟨x, h⟩
      · exact .inl h
      · exact .inr ⟨'t', x, .inr rfl, h⟩
  | some basic =>
      refine .inr ⟨'b', basic.user ++ ":" ++ basic.password ++ c.bearerText, .inl rfl, ?_⟩
      rw [basicText, hbasic]
      simp only [String.append_assoc]
      rfl

lemma afterPassword_cases : c.linkText ++ (c.basicText ++ c.bearerText) = "" ∨
    ∃ a x, (a = 'l' ∨ a = 'b' ∨ a = 't') ∧
      c.linkText ++ (c.basicText ++ c.bearerText) = String.singleton a ++ x := by
  cases hlink : c.secretLink with
  | none =>
      have hnone : c.linkText = "" := by rw [linkText, hlink]
      rw [hnone, String.empty_append]
      rcases c.afterLink_cases with h | ⟨a, x, ha, h⟩
      · exact .inl h
      · exact .inr ⟨a, x, .inr ha, h⟩
  | some link =>
      refine .inr ⟨'l', link.token ++ (c.basicText ++ c.bearerText), .inl rfl, ?_⟩
      rw [linkText, hlink, String.append_assoc]
      rfl

omit [SessionCrypto] in
/-- A field that is there in both texts or in neither, with what follows it. -/
lemma field_eq {α : Type} {o o' : Option α} {a : Char} {body : α → String} {r r' : String}
    (hr : ∀ x, r ≠ String.singleton a ++ x) (hr' : ∀ x, r' ≠ String.singleton a ++ x)
    (h : (o.elim "" fun x => String.singleton a ++ body x) ++ r =
      (o'.elim "" fun x => String.singleton a ++ body x) ++ r') :
    o = none ∧ o' = none ∧ r = r' ∨
      ∃ x x', o = some x ∧ o' = some x' ∧ body x ++ r = body x' ++ r' := by
  cases o with
  | none =>
      cases o' with
      | none => exact .inl ⟨rfl, rfl, by simpa using h⟩
      | some x' =>
          simp only [Option.elim_none, Option.elim_some, String.empty_append,
            String.append_assoc] at h
          exact absurd h (hr _)
  | some x =>
      cases o' with
      | none =>
          simp only [Option.elim_none, Option.elim_some, String.empty_append,
            String.append_assoc] at h
          exact absurd h.symm (hr' _)
      | some x' =>
          simp only [Option.elim_some, String.append_assoc] at h
          exact .inr ⟨x, x', rfl, rfl, append_left_cancel h⟩

lemma passwordText_eq : c.passwordText =
    c.password.elim "" fun password => String.singleton 'p' ++ password.phc := by
  unfold passwordText
  cases c.password <;> rfl

lemma linkText_eq : c.linkText =
    c.secretLink.elim "" fun link => String.singleton 'l' ++ link.token := by
  unfold linkText
  cases c.secretLink <;> rfl

lemma basicText_eq : c.basicText = c.basic.elim "" fun basic =>
    String.singleton 'b' ++ (basic.user ++ String.singleton ':' ++ basic.password) := by
  unfold basicText
  cases c.basic with
  | none => rfl
  | some basic =>
      show "b" ++ basic.user ++ ":" ++ basic.password = _
      simp only [Option.elim_some, String.append_assoc]
      rfl

omit [SessionCrypto] in
/-- Bearer tokens read back: none has the character that ends each. -/
lemma bearer_eq {tokens tokens' : List BearerToken}
    (h : tokens.foldr (fun token rest => "t" ++ token.token ++ "\x00" ++ rest) "" =
      tokens'.foldr (fun token rest => "t" ++ token.token ++ "\x00" ++ rest) "") :
    tokens = tokens' := by
  have hne : ∀ x y : String, "t" ++ x ++ "\x00" ++ y ≠ "" := by
    intro x y hempty
    have hlist := congrArg String.toList hempty
    simp at hlist
  induction tokens generalizing tokens' with
  | nil =>
      cases tokens' with
      | nil => rfl
      | cons token rest => exact absurd h.symm (hne _ _)
  | cons token rest ih =>
      cases tokens' with
      | nil => exact absurd h (hne _ _)
      | cons token' rest' =>
          rw [List.foldr_cons, List.foldr_cons] at h
          have hnul : ∀ t : BearerToken, '\x00' ∉ t.token.toList := by
            intro t hmem
            have hchar := allChars_iff.mp t.valid.2 _ hmem
            revert hchar
            decide
          have hcut : ∀ (t : BearerToken) (x : String),
              splitOnce '\x00' ("t" ++ t.token ++ "\x00" ++ x) = some ("t" ++ t.token, x) := by
            intro t x
            refine splitOnce_append ?_
            rw [String.toList_append, List.mem_append, not_or]
            exact ⟨by decide, hnul t⟩
          have hparts := (hcut token _).symm.trans ((congrArg _ h).trans (hcut token' _))
          simp only [Option.some.injEq, Prod.mk.injEq] at hparts
          obtain ⟨htoken, hrest⟩ := hparts
          rw [ih hrest, BearerToken.ext (append_left_cancel htoken)]

/-! ## The same text -/

omit [SessionCrypto] in
/-- Two texts with what follows them are the same: they are, or one is the other and a beginning
of what follows that. -/
lemma append_eq_cases {a a' r r' : String} (h : a ++ r = a' ++ r') :
    (a = a' ∧ r = r') ∨ (∃ w, w ≠ "" ∧ a' = a ++ w ∧ r = w ++ r') ∨
      ∃ w, w ≠ "" ∧ a = a' ++ w ∧ r' = w ++ r := by
  have hlist := congrArg String.toList h
  rw [String.toList_append, String.toList_append, List.append_eq_append_iff] at hlist
  rcases hlist with ⟨w, ha, hr⟩ | ⟨w, ha, hr⟩
  · by_cases hw : w = []
    · subst hw
      rw [List.append_nil] at ha
      exact .inl ⟨String.toList_injective ha.symm, String.toList_injective hr⟩
    · refine .inr (.inl ⟨String.ofList w, ?_, ?_, ?_⟩)
      · simpa using hw
      · exact String.toList_injective (by rw [ha]; simp)
      · exact String.toList_injective (by rw [hr]; simp)
  · by_cases hw : w = []
    · subst hw
      rw [List.append_nil] at ha
      exact .inl ⟨String.toList_injective ha, String.toList_injective hr.symm⟩
    · refine .inr (.inr ⟨String.ofList w, ?_, ?_, ?_⟩)
      · simpa using hw
      · exact String.toList_injective (by rw [ha]; simp)
      · exact String.toList_injective (by rw [hr]; simp)

lemma afterBasic_eq (h : c.basicText ++ c.bearerText = c'.basicText ++ c'.bearerText)
    (hpassword : c.password = c'.password) (hlink : c.secretLink = c'.secretLink) :
    Same c c' ∨ ReadsOn c c' ∨ ReadsOn c' c := by
  have hstart : ∀ (c : Gates) x, c.bearerText ≠ String.singleton 'b' ++ x := by
    intro c x hx
    rcases c.bearerText_cases with hempty | ⟨y, hy⟩
    · rw [hempty] at hx
      have hlist := congrArg String.toList hx
      simp at hlist
    · exact ne_of_head (by decide) (hy.symm.trans hx)
  rw [basicText_eq, basicText_eq] at h
  rcases field_eq (hstart c) (hstart c') h with ⟨hnone, hnone', hrest⟩ | ⟨b, b', hb, hb', hrest⟩
  · exact .inl ⟨hpassword, hlink, hnone.trans hnone'.symm, bearer_eq hrest⟩
  · -- a user has no colon, so it ends at the first one
    have hcut : ∀ (basic : BasicAuth) (x : String),
        splitOnce ':' (basic.user ++ String.singleton ':' ++ basic.password ++ x) =
          some (basic.user, basic.password ++ x) := by
      intro basic x
      rw [String.append_assoc]
      exact splitOnce_append basic.valid.2
    have hparts := (hcut b _).symm.trans ((congrArg _ hrest).trans (hcut b' _))
    simp only [Option.some.injEq, Prod.mk.injEq] at hparts
    obtain ⟨huser, hpass⟩ := hparts
    rcases append_eq_cases hpass with ⟨hsame, htokens⟩ | ⟨w, hw, hlong, htokens⟩ |
      ⟨w, hw, hlong, htokens⟩
    · exact .inl ⟨hpassword, hlink, by rw [hb, hb', BasicAuth.ext huser hsame],
        bearer_eq htokens⟩
    · exact .inr (.inl (.inr (.inr ⟨hpassword, hlink, b, b', w, hb, hb', huser, hw, hlong,
        htokens⟩)))
    · exact .inr (.inr (.inr (.inr ⟨hpassword.symm, hlink.symm, b', b, w, hb', hb, huser.symm, hw,
        hlong, htokens⟩)))

lemma afterPassword_eq (h : c.linkText ++ (c.basicText ++ c.bearerText) =
      c'.linkText ++ (c'.basicText ++ c'.bearerText)) (hpassword : c.password = c'.password) :
    Same c c' ∨ ReadsOn c c' ∨ ReadsOn c' c := by
  have hstart : ∀ (c : Gates) x, c.basicText ++ c.bearerText ≠ String.singleton 'l' ++ x := by
    intro c x hx
    rcases c.afterLink_cases with hempty | ⟨a, y, ha, hy⟩
    · rw [hempty] at hx
      have hlist := congrArg String.toList hx
      simp at hlist
    · refine ne_of_head ?_ (hy.symm.trans hx)
      rcases ha with rfl | rfl <;> decide
  rw [linkText_eq, linkText_eq] at h
  rcases field_eq (hstart c) (hstart c') h with ⟨hnone, hnone', hrest⟩ | ⟨l, l', hl, hl', hrest⟩
  · exact afterBasic_eq hrest hpassword (hnone.trans hnone'.symm)
  · rcases append_eq_cases hrest with ⟨hsame, hrest⟩ | ⟨w, hw, hlong, hrest⟩ |
      ⟨w, hw, hlong, hrest⟩
    · exact afterBasic_eq hrest hpassword (by rw [hl, hl', SecretLink.ext hsame])
    · exact .inr (.inl (.inr (.inl ⟨hpassword, l, l', w, hl, hl', hw, hlong, hrest⟩)))
    · exact .inr (.inr (.inr (.inl ⟨hpassword.symm, l', l, w, hl', hl, hw, hlong, hrest⟩)))

/-- Credentials of the same text are the same, or a field of the ones reads on in the others. -/
lemma same_of_text_eq (h : c.text = c'.text) : Same c c' ∨ ReadsOn c c' ∨ ReadsOn c' c := by
  have hstart : ∀ (c : Gates) x,
      c.linkText ++ (c.basicText ++ c.bearerText) ≠ String.singleton 'p' ++ x := by
    intro c x hx
    rcases c.afterPassword_cases with hempty | ⟨a, y, ha, hy⟩
    · rw [hempty] at hx
      have hlist := congrArg String.toList hx
      simp at hlist
    · refine ne_of_head ?_ (hy.symm.trans hx)
      rcases ha with rfl | rfl | rfl <;> decide
  unfold text at h
  rw [passwordText_eq, passwordText_eq] at h
  rcases field_eq (hstart c) (hstart c') h with ⟨hnone, hnone', hrest⟩ | ⟨p, p', hp, hp', hrest⟩
  · exact afterPassword_eq hrest (hnone.trans hnone'.symm)
  · rcases append_eq_cases hrest with ⟨hsame, hrest⟩ | ⟨w, hw, hlong, hrest⟩ |
      ⟨w, hw, hlong, hrest⟩
    · exact afterPassword_eq hrest (by rw [hp, hp', PasswordGate.ext hsame])
    · exact .inr (.inl (.inl ⟨p, p', w, hp, hp', hw, hlong, hrest⟩))
    · exact .inr (.inr (.inl ⟨p', p, w, hp', hp, hw, hlong, hrest⟩))

lemma Same.symm (h : Same c c') : Same c' c :=
  ⟨h.1.symm, h.2.1.symm, h.2.2.1.symm, h.2.2.2.symm⟩

lemma Same.text_eq (h : Same c c') : c.text = c'.text := by
  obtain ⟨hpassword, hlink, hbasic, hbearer⟩ := h
  unfold text passwordText linkText basicText bearerText
  rw [hpassword, hlink, hbasic, hbearer]

omit [SessionCrypto] in
lemma ne_append {a w : String} (hw : w ≠ "") : a ≠ a ++ w := by
  intro h
  refine hw (append_left_cancel (a := a) ?_)
  rw [String.append_empty]
  exact h.symm

/-- A field that reads on makes other credentials of the same text. -/
lemma ReadsOn.text_eq (h : ReadsOn c c') : c.text = c'.text ∧ ¬ Same c c' := by
  rcases h with ⟨p, p', w, hp, hp', hw, hlong, hrest⟩ |
    ⟨hpassword, l, l', w, hl, hl', hw, hlong, hrest⟩ |
    ⟨hpassword, hlink, b, b', w, hb, hb', huser, hw, hlong, hrest⟩
  · constructor
    · unfold text
      rw [hrest, passwordText_eq, passwordText_eq, hp, hp', Option.elim_some, Option.elim_some,
        hlong]
      simp only [String.append_assoc]
    · intro hsame
      have heq := hsame.1
      rw [hp, hp', Option.some.injEq] at heq
      exact ne_append hw ((congrArg PasswordGate.phc heq).trans hlong)
  · constructor
    · unfold text
      rw [hrest, linkText_eq, linkText_eq, passwordText_eq, passwordText_eq, hpassword, hl, hl',
        Option.elim_some, Option.elim_some, hlong]
      simp only [String.append_assoc]
    · intro hsame
      have heq := hsame.2.1
      rw [hl, hl', Option.some.injEq] at heq
      exact ne_append hw ((congrArg SecretLink.token heq).trans hlong)
  · constructor
    · unfold text
      rw [hrest, linkText_eq, linkText_eq, passwordText_eq, passwordText_eq, basicText_eq,
        basicText_eq, hpassword, hlink, hb, hb', Option.elim_some, Option.elim_some, hlong, huser]
      simp only [String.append_assoc]
    · intro hsame
      have heq := hsame.2.2.1
      rw [hb, hb', Option.some.injEq] at heq
      exact ne_append hw ((congrArg BasicAuth.password heq).trans hlong)

end Gates

/-! ## The cookie -/

namespace Sessions

/-- The value a browser sends back for a cookie it was told to keep. -/
def sentBack (header : HeaderValue) : Option String := do
  let text ← header.toStr
  let (_, rest) ← splitOnce '=' text
  let (value, _) ← splitOnce ';' rest
  return value

lemma parts_issue (tap : String) (expiry : ℕ) (fingerprint : List UInt8) :
    parts (issue tap expiry fingerprint) = some ("v1", toString expiry,
      Base64.encode .urlSafe (SessionCrypto.hmac (message tap expiry fingerprint))) := by
  have hdigits : '.' ∉ (toString expiry).toList := by
    intro hmem
    have hdigit := Nat.isDigit_of_mem_toDigits (by decide) (by decide)
      ((Nat.toList_repr (n := expiry)) ▸ hmem)
    exact absurd hdigit (by decide)
  generalize htag : Base64.encode .urlSafe (SessionCrypto.hmac (message tap expiry fingerprint)) =
    tag
  have hshape : issue tap expiry fingerprint =
      "v1" ++ String.singleton '.' ++ (toString expiry ++ String.singleton '.' ++ tag) := by
    rw [issue, htag]
    simp only [String.append_assoc]
    rfl
  have hfirst := splitOnce_append (c := '.') (a := "v1")
    (b := toString expiry ++ String.singleton '.' ++ tag) (by decide)
  have hsecond := splitOnce_append (c := '.') (b := tag) hdigits
  rw [parts, hshape, hfirst]
  show (splitOnce '.' (toString expiry ++ String.singleton '.' ++ tag)).bind _ = _
  rw [hsecond]
  rfl

/-- A cookie checks where the tags of the two messages agree, until it is over. -/
lemma check_issue {tap tap' : String} {expiry now : ℕ} {fingerprint fingerprint' : List UInt8}
    (hexpiry : expiry < 2 ^ 64) :
    check (issue tap expiry fingerprint) tap' fingerprint' now = true ↔
      now < expiry ∧ SessionCrypto.hmac (message tap' expiry fingerprint') =
        SessionCrypto.hmac (message tap expiry fingerprint) := by
  have hnumber : (parseNumber (toString expiry)).filter (· < 2 ^ 64) = some expiry := by
    rw [parseNumber_toString, Option.filter_some, if_pos (decide_eq_true hexpiry)]
  simp only [check, parts_issue, hnumber, Base64.decode_encode]
  split
  · next hover => exact ⟨nofun, fun h => absurd h.1 (by omega)⟩
  · next hgood => rw [decide_eq_true_iff, and_iff_right (by omega)]

omit [SessionCrypto] in
/-- A signed message reads back: the fingerprint has one length. -/
lemma message_eq {tap tap' : String} {expiry : ℕ} {fingerprint fingerprint' : List UInt8}
    (hlength : fingerprint.length = fingerprint'.length)
    (h : message tap expiry fingerprint = message tap' expiry fingerprint') :
    tap = tap' ∧ fingerprint = fingerprint' := by
  unfold message at h
  obtain ⟨htext, hprint⟩ := List.append_inj' h hlength
  have hlist := congrArg String.toList (utf8_injective htext)
  simp only [String.toList_append, List.append_assoc] at hlist
  have htap := List.append_cancel_left hlist
  exact ⟨String.toList_injective (List.append_cancel_right htap), hprint⟩

lemma semicolon_notMem_issue (tap : String) (expiry : ℕ) (fingerprint : List UInt8) :
    ';' ∉ (issue tap expiry fingerprint).toList := by
  intro hmem
  rw [issue, String.toList_append, String.toList_append, String.toList_append,
    List.mem_append, List.mem_append, List.mem_append] at hmem
  rcases hmem with ((hmem | hmem) | hmem) | hmem
  · exact absurd hmem (by decide)
  · have hdigit := Nat.isDigit_of_mem_toDigits (by decide) (by decide)
      ((Nat.toList_repr (n := expiry)) ▸ hmem)
    exact absurd hdigit (by decide)
  · exact absurd hmem (by decide)
  · exact absurd (Base64.mem_encode _ hmem) (by decide)

omit [SessionCrypto] in
lemma allChars_toString (n : ℕ) : AllChars isVisible (toString n) := by
  rw [allChars_iff]
  intro c hc
  have hdigit := Nat.isDigit_of_mem_toDigits (by decide) (by decide)
    ((Nat.toList_repr (n := n)) ▸ hc)
  have hrange : 48 ≤ c.toNat ∧ c.toNat ≤ 57 := by
    simpa [Char.isDigit, Char.le_def, UInt32.le_iff_toNat_le] using hdigit
  have hlow : decide (32 ≤ c.toNat) = true := decide_eq_true (by omega)
  have hhigh : decide (c.toNat < 127) = true := decide_eq_true (by omega)
  rw [isVisible, hlow, hhigh]
  rfl

lemma allChars_issue (tap : String) (expiry : ℕ) (fingerprint : List UInt8) :
    AllChars isVisible (issue tap expiry fingerprint) := by
  refine (((AllChars.append (by decide) (allChars_toString expiry)).append (by decide)).append ?_)
  rw [allChars_iff]
  intro c hc
  have hchars : Base64.Alphabet.urlSafe.chars.all isVisible = true := by decide +kernel
  exact List.all_eq_true.mp hchars c (Base64.mem_encode _ hc)

/-- The header of a new session, as a browser takes it apart. -/
lemma setCookie_eq (gates : Gates) (tap : String) (fingerprint : List UInt8) (now : ℕ) :
    ∃ rest, AllChars isVisible rest ∧
      setCookie gates tap fingerprint now = HeaderValue.fromStr (gates.cookieName ++
        String.singleton '=' ++ (issue tap (expiryAt gates now) fingerprint ++
          String.singleton ';' ++ rest)) := by
  have hsecure : AllChars isVisible (if gates.secureCookie then "; Secure" else "") := by
    split <;> decide
  refine ⟨" Path=/; Max-Age=" ++ toString (max gates.sessionTtl 60) ++
    "; HttpOnly; SameSite=Lax" ++ (if gates.secureCookie then "; Secure" else ""),
    ((AllChars.append (by decide) (allChars_toString _)).append (by decide)).append hsecure, ?_⟩
  have hsemicolon : "; Path=/; Max-Age=" = String.singleton ';' ++ " Path=/; Max-Age=" := by decide
  unfold setCookie
  dsimp only
  rw [hsemicolon]
  congr 1
  simp only [String.append_assoc]
  rfl

/-- A session always has a header, and a browser sends the issued value back. -/
lemma setCookie_spec (gates : Gates) (tap : String) (fingerprint : List UInt8) (now : ℕ) :
    ∃ header, setCookie gates tap fingerprint now = some header ∧
      sentBack header = some (issue tap (expiryAt gates now) fingerprint) := by
  have hname : '=' ∉ gates.cookieName.toList := by
    unfold Gates.cookieName
    split <;> decide
  have hvisible : AllChars isVisible gates.cookieName := by
    unfold Gates.cookieName
    split <;> decide
  obtain ⟨rest, hrest, hheader⟩ := setCookie_eq gates tap fingerprint now
  have hissue := allChars_issue tap (expiryAt gates now) fingerprint
  obtain ⟨header, hsome, htext⟩ := HeaderValue.fromStr_eq_some
    ((hvisible.append (b := String.singleton '=') (by decide)).append
      ((hissue.append (b := String.singleton ';') (by decide)).append hrest))
  refine ⟨header, hheader.trans hsome, ?_⟩
  rw [sentBack, htext]
  show (splitOnce '=' _).bind _ = _
  rw [splitOnce_append hname]
  show (splitOnce ';' _).bind _ = _
  rw [splitOnce_append (semicolon_notMem_issue tap (expiryAt gates now) fingerprint)]
  rfl

/-- What a browser that was told to keep a session's cookie is good for. -/
lemma check_sentBack (tap tap' : String) (c c' : Gates) (issued now : ℕ)
    (hsha : SessionCrypto.sha256 (utf8 c.text) = SessionCrypto.sha256 (utf8 c'.text) →
      utf8 c.text = utf8 c'.text)
    (hhmac : SessionCrypto.hmac (message tap' (expiryAt c issued) c'.fingerprint) =
        SessionCrypto.hmac (message tap (expiryAt c issued) c.fingerprint) →
      message tap' (expiryAt c issued) c'.fingerprint =
        message tap (expiryAt c issued) c.fingerprint) :
    ∃ header value, setCookie c tap c.fingerprint issued = some header ∧
      sentBack header = some value ∧
      (check value tap' c'.fingerprint now = true ↔
        tap = tap' ∧ c.text = c'.text ∧ now < expiryAt c issued) := by
  obtain ⟨header, hheader, hvalue⟩ := setCookie_spec c tap c.fingerprint issued
  refine ⟨header, _, hheader, hvalue, ?_⟩
  have hexpiry : expiryAt c issued < 2 ^ 64 := Nat.mod_lt _ (by decide)
  rw [check_issue hexpiry]
  constructor
  · rintro ⟨hnow, htag⟩
    have hlength : c'.fingerprint.length = c.fingerprint.length := by
      unfold Gates.fingerprint
      rw [SessionCrypto.length_sha256, SessionCrypto.length_sha256]
    obtain ⟨htap, hprint⟩ := message_eq hlength (hhmac htag)
    exact ⟨htap.symm, utf8_injective (hsha hprint.symm), hnow⟩
  · rintro ⟨rfl, htext, hnow⟩
    have hprint : c'.fingerprint = c.fingerprint :=
      congrArg (fun text => SessionCrypto.sha256 (utf8 text)) htext.symm
    exact ⟨hnow, by rw [hprint]⟩

/-- A session is good for its tap and its credentials until it is over, and for no others unless
a field of theirs reads on into the fields that follow it, the hash and the tags taken as free of
collisions. -/
theorem session_exact (tap tap' : String) (c c' : Gates) (issued now : ℕ)
    (hsha : SessionCrypto.sha256 (utf8 c.text) = SessionCrypto.sha256 (utf8 c'.text) →
      utf8 c.text = utf8 c'.text)
    (hhmac : SessionCrypto.hmac (message tap' (expiryAt c issued) c'.fingerprint) =
        SessionCrypto.hmac (message tap (expiryAt c issued) c.fingerprint) →
      message tap' (expiryAt c issued) c'.fingerprint =
        message tap (expiryAt c issued) c.fingerprint) :
    ∃ header value, setCookie c tap c.fingerprint issued = some header ∧
      sentBack header = some value ∧
      ((check value tap' c'.fingerprint now = true ↔
          tap = tap' ∧ c.Same c' ∧ now < expiryAt c issued) ↔
        ¬ (tap = tap' ∧ now < expiryAt c issued ∧ (c.ReadsOn c' ∨ c'.ReadsOn c))) := by
  obtain ⟨header, value, hheader, hvalue, hcheck⟩ := check_sentBack tap tap' c c' issued now hsha hhmac
  refine ⟨header, value, hheader, hvalue, ?_⟩
  have hother : c.ReadsOn c' ∨ c'.ReadsOn c → c.text = c'.text ∧ ¬ c.Same c' := by
    rintro (hon | hon)
    · exact hon.text_eq
    · exact ⟨hon.text_eq.1.symm, fun hsame => hon.text_eq.2 hsame.symm⟩
  rw [hcheck]
  constructor
  · rintro hexact ⟨htap, hnow, hon⟩
    obtain ⟨htext, hdiffer⟩ := hother hon
    exact hdiffer (hexact.mp ⟨htap, htext, hnow⟩).2.1
  · intro hapart
    constructor
    · rintro ⟨htap, htext, hnow⟩
      rcases Gates.same_of_text_eq htext with hsame | hon
      · exact ⟨htap, hsame, hnow⟩
      · exact absurd ⟨htap, hnow, hon⟩ hapart
    · rintro ⟨htap, hsame, hnow⟩
      exact ⟨htap, hsame.text_eq, hnow⟩

end Sessions

end

namespace Sessions

/-- The hashes of the process, under some key. -/
abbrev reference : SessionCrypto where
  isPhc phc := phc.toList.head? = some '$'
  sha256 := Sha256.bytes
  hmac := Sha256.hmac (List.replicate 32 7)
  length_sha256 := Sha256.length_bytes

/-- A link and a basic login whose user starts with the letter of a basic login. -/
def longUser : @Gates reference :=
  letI := reference
  { password := none
    secretLink := some ⟨"0123456789abcdef", by decide⟩
    basic := some ⟨"bu", "secret", by decide⟩
    bearer := []
    sessionTtl := 3600
    secureCookie := true }

/-- The same with that letter in the link. -/
def longLink : @Gates reference :=
  letI := reference
  { password := none
    secretLink := some ⟨"0123456789abcdefb", by decide⟩
    basic := some ⟨"u", "secret", by decide⟩
    bearer := []
    sessionTtl := 3600
    secureCookie := true }

/-- A session of a tap, under the credentials it was issued under. -/
theorem session_exact_own :
    letI := reference
    ∃ header value, setCookie longUser "shop" longUser.fingerprint 1000 = some header ∧
      sentBack header = some value ∧
      check value "shop" longUser.fingerprint 2000 = true := by
  let := reference
  obtain ⟨header, value, hheader, hvalue, hexact⟩ :=
    session_exact "shop" "shop" longUser longUser 1000 2000 (fun _ => rfl) (fun _ => rfl)
  have hsame : longUser.Same longUser := ⟨rfl, rfl, rfl, rfl⟩
  refine ⟨header, value, hheader, hvalue, (hexact.mpr ?_).mpr ⟨rfl, hsame, by decide⟩⟩
  rintro ⟨-, -, hon | hon⟩
  · exact hon.text_eq.2 hsame
  · exact hon.text_eq.2 hsame

/-- Two settings of other links and users share their sessions. -/
theorem session_shared :
    letI := reference
    ¬ ∀ tap tap' (c c' : Gates) issued now,
      (SessionCrypto.sha256 (utf8 c.text) = SessionCrypto.sha256 (utf8 c'.text) →
        utf8 c.text = utf8 c'.text) →
      (SessionCrypto.hmac (message tap' (expiryAt c issued) c'.fingerprint) =
          SessionCrypto.hmac (message tap (expiryAt c issued) c.fingerprint) →
        message tap' (expiryAt c issued) c'.fingerprint =
          message tap (expiryAt c issued) c.fingerprint) →
      ∃ header value, setCookie c tap c.fingerprint issued = some header ∧
        sentBack header = some value ∧
        (check value tap' c'.fingerprint now = true ↔
          tap = tap' ∧ c.Same c' ∧ now < expiryAt c issued) := by
  let := reference
  intro hall
  have htext : longUser.text = longLink.text := by decide
  have hprint : longLink.fingerprint = longUser.fingerprint :=
    congrArg (fun text => SessionCrypto.sha256 (utf8 text)) htext.symm
  have hmessage : message "shop" (expiryAt longUser 1000) longLink.fingerprint =
      message "shop" (expiryAt longUser 1000) longUser.fingerprint := by
    rw [hprint]
  obtain ⟨header, value, hheader, hvalue, hexact⟩ := hall "shop" "shop" longUser longLink 1000 2000
    (fun _ => congrArg utf8 htext) (fun _ => hmessage)
  obtain ⟨header', value', hheader', hvalue', hcheck⟩ := check_sentBack "shop" "shop" longUser
    longLink 1000 2000 (fun _ => congrArg utf8 htext) (fun _ => hmessage)
  rw [hheader, Option.some.injEq] at hheader'
  rw [← hheader', hvalue, Option.some.injEq] at hvalue'
  rw [← hvalue', hexact] at hcheck
  have hlink := (hcheck.mpr ⟨rfl, htext, by decide⟩).2.1.2.1
  exact absurd (congrArg (Option.map SecretLink.token) hlink) (by decide)

end Sessions

end Teitunnel.Lens
