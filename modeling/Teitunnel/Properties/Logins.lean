import Teitunnel.Lib.Lists
import Teitunnel.Properties.Tidy
import Teitunnel.Reference

/-!
# A login read back

A login goes to Cloudflare as an application's policy and comes back from it, and it goes to the
screen as entries and comes back from them.
-/

namespace Teitunnel

open Text Except

/-! ## Typed and read back -/

/-- Where the prefix of a GitHub entry would end, the text isn't inside a character. -/
def CutsAtPrefix (entry : String) : Prop :=
  GITHUB_PREFIX.utf8ByteSize < entry.utf8ByteSize →
    (cutBytes GITHUB_PREFIX.utf8ByteSize entry.toList).isSome

instance (entry : String) : Decidable (CutsAtPrefix entry) :=
  inferInstanceAs (Decidable (_ → _))

/-- The entry is read as a GitHub entry. -/
def IsGithub (entry : String) : Prop :=
  GITHUB_PREFIX.utf8ByteSize < entry.utf8ByteSize ∧
    ∃ head rest, cutBytes GITHUB_PREFIX.utf8ByteSize entry.toList = some (head, rest) ∧
      SameText (String.ofList head) GITHUB_PREFIX

/-- The entry is read as an email address, if it isn't a GitHub entry. -/
def IsEmail (entry : String) : Prop := (entry.toList.findIdx? (· == '@')).any (0 < ·) = true

lemma cutBytes_eq {bytes : ℕ} {text head rest : List Char}
    (h : cutBytes bytes text = some (head, rest)) : text = head ++ rest := by
  induction text generalizing bytes head with
  | nil =>
      cases bytes with
      | zero =>
          obtain ⟨rfl, rfl⟩ := Prod.mk.inj (Option.some.inj h)
          rfl
      | succ bytes => simp [cutBytes] at h
  | cons c text ih =>
      cases bytes with
      | zero =>
          obtain ⟨rfl, rfl⟩ := Prod.mk.inj (Option.some.inj h)
          rfl
      | succ bytes =>
          rw [cutBytes] at h
          split_ifs at h with hsize
          obtain ⟨⟨head', rest'⟩, hcut, heq⟩ := Option.map_eq_some_iff.mp h
          obtain ⟨rfl, rfl⟩ := Prod.mk.inj heq
          rw [ih hcut]
          rfl

/-- A text is cut behind characters of one byte. -/
lemma cutBytes_append {head : List Char} (h : ∀ c ∈ head, c.utf8Size = 1) (rest : List Char) :
    cutBytes head.length (head ++ rest) = some (head, rest) := by
  induction head with
  | nil => rw [List.nil_append, List.length_nil, cutBytes.eq_def]
  | cons c head ih =>
      have hc : c.utf8Size = 1 := h c List.mem_cons_self
      rw [List.length_cons, List.cons_append, cutBytes, hc, if_pos (by omega),
        Nat.add_sub_cancel, ih fun d hd => h d (List.mem_cons_of_mem c hd)]
      rfl

lemma utf8Size_ascii {c : Char} (h : c.toNat < 128) : c.utf8Size = 1 := by
  have hval : c.val ≤ 127 := by
    rw [UInt32.le_iff_toNat_le]
    exact Nat.le_of_lt_succ h
  exact if_pos hval

lemma cutBytes_github (rest : List Char) :
    cutBytes GITHUB_PREFIX.utf8ByteSize (GITHUB_PREFIX.toList ++ rest) =
      some (GITHUB_PREFIX.toList, rest) := by
  have hascii : ∀ c ∈ GITHUB_PREFIX.toList, c.toNat < 128 := by
    have hlist : GITHUB_PREFIX.toList = ['g', 'i', 't', 'h', 'u', 'b', ':'] := by decide
    rw [hlist]
    intro c hc
    simp only [List.mem_cons, List.not_mem_nil, or_false] at hc
    rcases hc with rfl | rfl | rfl | rfl | rfl | rfl | rfl <;> decide
  have hone : ∀ c ∈ GITHUB_PREFIX.toList, c.utf8Size = 1 := fun c hc => utf8Size_ascii (hascii c hc)
  have hsize : GITHUB_PREFIX.utf8ByteSize = GITHUB_PREFIX.toList.length := by decide
  rw [hsize, cutBytes_append hone]

lemma size_append_lt (a : String) {b : String} (h : b ≠ "") :
    a.utf8ByteSize < (a ++ b).utf8ByteSize := by
  have hb : b.utf8ByteSize ≠ 0 := fun hzero => h (String.utf8ByteSize_eq_zero_iff.mp hzero)
  rw [String.utf8ByteSize_append]
  omega

/-- What begins with the prefix and goes on is read as a GitHub entry. -/
lemma isGithub_append {rest : String} (h : rest ≠ "") : IsGithub (GITHUB_PREFIX ++ rest) := by
  refine ⟨size_append_lt _ h, GITHUB_PREFIX.toList, rest.toList, ?_, ?_⟩
  · rw [String.toList_append]
    exact cutBytes_github _
  · rw [String.ofList_toList]

/-- In lower case nothing else is. -/
lemma startsWith_of_isGithub {entry : String} (h : IsGithub entry)
    (hlower : toAsciiLowercase entry = entry) : StartsWith GITHUB_PREFIX entry := by
  obtain ⟨-, head, rest, hcut, hsame⟩ := h
  have hlist := cutBytes_eq hcut
  have hhead : head.map Char.toLower = head := by
    have hmap := congrArg String.toList hlower
    rw [toList_toAsciiLowercase, hlist, List.map_append] at hmap
    exact (List.append_inj hmap (by rw [List.length_map])).1
  have hname : String.ofList head = GITHUB_PREFIX := by
    have hprefix : toAsciiLowercase GITHUB_PREFIX = GITHUB_PREFIX := by decide
    rw [SameText, hprefix, toAsciiLowercase, String.toList_ofList, hhead] at hsame
    exact hsame
  rw [startsWith_iff]
  refine ⟨String.ofList rest, String.toList_injective ?_⟩
  rw [String.toList_append, ← hname, String.toList_ofList, String.toList_ofList, hlist]

lemma isEmail_iff {entry : String} :
    IsEmail entry ↔ '@' ∈ entry.toList ∧ '@' ∉ entry.toList.head? := by
  rw [IsEmail]
  cases hl : entry.toList with
  | nil => simp
  | cons c l =>
      rw [List.findIdx?_cons]
      by_cases hc : (c == '@') = true
      · have heq : c = '@' := eq_of_beq hc
        rw [if_pos hc]
        simp [heq]
      · rw [if_neg hc]
        have hne : c ≠ '@' := fun heq => hc (beq_iff_eq.mpr heq)
        have hfound : (l.findIdx? (· == '@')).isSome ↔ '@' ∈ l := by
          rw [List.findIdx?_isSome, List.any_eq_true]
          simp
        cases hfind : l.findIdx? (· == '@') with
        | none =>
            rw [hfind] at hfound
            simp only [Option.isSome_none, Bool.false_eq_true, false_iff] at hfound
            simp [hfound, hne.symm]
        | some i =>
            rw [hfind] at hfound
            simp only [Option.isSome_some, true_iff] at hfound
            simp [hfound, hne]

lemma GithubForm.trimmed {g : String} (h : GithubForm g) :
    trim (GITHUB_PREFIX ++ g) = GITHUB_PREFIX ++ g := by
  have hlead : NoLeadingSpace GITHUB_PREFIX := noLeadingSpace_of (c := 'g') rfl rfl
  exact trim_append hlead (by decide) h.trailing h.ne

lemma trim_domain {s : String} (hne : tidy s ≠ "") : trim ("@" ++ tidy s) = "@" ++ tidy s := by
  have hlead : NoLeadingSpace "@" := noLeadingSpace_of (c := '@') rfl rfl
  exact trim_append hlead (by decide) (noTrailingSpace_tidy s) hne

namespace AccessRule

lemma addEntry_github {rule : AccessRule} {g : String} (h : g ≠ "") :
    addEntry rule (GITHUB_PREFIX ++ g) = .ok { rule with github := rule.github ++ [g] } := by
  rw [addEntry, if_pos (size_append_lt _ h), String.toList_append, cutBytes_github]
  dsimp only
  rw [String.ofList_toList, if_pos (SameText.refl _), String.ofList_toList]

lemma addEntry_address {rule : AccessRule} {entry : String} (hcuts : CutsAtPrefix entry)
    (h : ¬ IsGithub entry) : addEntry rule entry = .ok (rule.addAddress entry) := by
  rw [addEntry]
  by_cases hsize : entry.utf8ByteSize > GITHUB_PREFIX.utf8ByteSize
  · rw [if_pos hsize]
    cases hcut : cutBytes GITHUB_PREFIX.utf8ByteSize entry.toList with
    | none =>
        have := hcuts hsize
        rw [hcut] at this
        exact absurd this (by simp)
    | some parts =>
        obtain ⟨head, rest⟩ := parts
        exact if_neg fun hsame => h ⟨hsize, head, rest, hcut, hsame⟩
  · rw [if_neg hsize]

lemma mem_addAddress {rule : AccessRule} {entry e : String}
    (h : e ∈ (rule.addAddress entry).emails) : e ∈ rule.emails ∨ e = entry ∧ IsEmail entry := by
  rw [addAddress] at h
  by_cases hat : (entry.toList.findIdx? (· == '@')).any (0 < ·) = true
  · rw [if_pos hat] at h
    rcases List.mem_append.mp h with h | h
    · exact .inl h
    · exact .inr ⟨List.mem_singleton.mp h, hat⟩
  · rw [if_neg hat] at h
    exact .inl h

/-- An entry that was read could be cut, and what is an email address then was one or is this. -/
lemma addEntry_ok {rule rule' : AccessRule} {entry : String} (h : addEntry rule entry = .ok rule') :
    CutsAtPrefix entry ∧ ∀ e ∈ rule'.emails, e ∈ rule.emails ∨
      e = entry ∧ ¬ IsGithub entry ∧ IsEmail entry := by
  rw [addEntry] at h
  by_cases hsize : entry.utf8ByteSize > GITHUB_PREFIX.utf8ByteSize
  · rw [if_pos hsize] at h
    cases hcut : cutBytes GITHUB_PREFIX.utf8ByteSize entry.toList with
    | none => simp [hcut] at h
    | some parts =>
        obtain ⟨head, rest⟩ := parts
        simp only [hcut] at h
        refine ⟨fun _ => by rw [hcut]; rfl, fun e he => ?_⟩
        by_cases hsame : SameText (String.ofList head) GITHUB_PREFIX
        · rw [if_pos hsame] at h
          obtain rfl := Except.ok.inj h
          exact .inl he
        · rw [if_neg hsame] at h
          obtain rfl := Except.ok.inj h
          refine (mem_addAddress he).imp_right fun ⟨heq, hemail⟩ => ⟨heq, ?_, hemail⟩
          rintro ⟨-, head', rest', hcut', hsame'⟩
          rw [hcut] at hcut'
          obtain ⟨rfl, rfl⟩ := Prod.mk.inj (Option.some.inj hcut')
          exact hsame hsame'
  · rw [if_neg hsize] at h
    obtain rfl := Except.ok.inj h
    refine ⟨fun hlt => absurd hlt hsize, fun e he => ?_⟩
    exact (mem_addAddress he).imp_right fun ⟨heq, hemail⟩ =>
      ⟨heq, fun hgithub => hsize hgithub.1, hemail⟩

/-- The loop over the entries. -/
def addEntries (rule : AccessRule) (entries : List String) : Except Panic AccessRule :=
  entries.foldlM (fun rule entry => addEntry rule (trim entry)) rule

lemma addEntries_cons (rule : AccessRule) (entry : String) (entries : List String) :
    addEntries rule (entry :: entries) =
      addEntry rule (trim entry) >>= fun rule => addEntries rule entries := rfl

lemma addEntries_append (rule : AccessRule) (l l' : List String) :
    addEntries rule (l ++ l') = addEntries rule l >>= fun rule => addEntries rule l' :=
  List.foldlM_append

lemma addEntries_ok {rule rule' : AccessRule} {entries : List String}
    (h : addEntries rule entries = .ok rule') :
    (∀ entry ∈ entries, CutsAtPrefix (trim entry)) ∧ ∀ e ∈ rule'.emails, e ∈ rule.emails ∨
      ∃ entry ∈ entries, e = trim entry ∧ ¬ IsGithub (trim entry) ∧ IsEmail (trim entry) := by
  induction entries generalizing rule with
  | nil =>
      obtain rfl := Except.ok.inj h
      exact ⟨fun entry hentry => absurd hentry List.not_mem_nil, fun e he => .inl he⟩
  | cons entry entries ih =>
      obtain ⟨next, hnext, hrest⟩ := bind_eq_ok.mp (addEntries_cons rule entry entries ▸ h)
      obtain ⟨hcuts, hemails⟩ := addEntry_ok hnext
      obtain ⟨hcuts', hemails'⟩ := ih hrest
      refine ⟨?_, fun e he => ?_⟩
      · intro x hx
        rcases List.mem_cons.mp hx with rfl | hx
        · exact hcuts
        · exact hcuts' x hx
      · rcases hemails' e he with he | ⟨x, hx, hfound⟩
        · rcases hemails e he with he | hfound
          · exact .inl he
          · exact .inr ⟨entry, List.mem_cons_self, hfound⟩
        · exact .inr ⟨x, List.mem_cons_of_mem entry hx, hfound⟩

/-- An entry that is trimmed, can be cut and isn't a GitHub entry. -/
structure Address (entry : String) : Prop where
  trimmed : trim entry = entry
  cuts : CutsAtPrefix entry
  plain : ¬ IsGithub entry

lemma addEntries_emails {rule : AccessRule} {l : List String}
    (h : ∀ entry ∈ l, Address entry ∧ IsEmail entry) :
    addEntries rule l = .ok { rule with emails := rule.emails ++ l } := by
  have hread := @List.foldlM_push AccessRule String String (Except Panic) _ _
    (fun rule entry => addEntry rule (trim entry))
    (fun rule l => { rule with emails := rule.emails ++ l }) id (fun rule => by simp)
    (fun rule entry l => by simp) l ?_ rule
  · rwa [List.map_id] at hread
  · intro rule entry hentry
    obtain ⟨haddress, hemail⟩ := h entry hentry
    rw [id_eq, haddress.trimmed, addEntry_address haddress.cuts haddress.plain, addAddress]
    exact congrArg Except.ok (if_pos hemail)

lemma addEntries_domains {rule : AccessRule} {l : List String}
    (h : ∀ entry ∈ l, Address entry ∧ ¬ IsEmail entry) :
    addEntries rule l = .ok { rule with emailDomains := rule.emailDomains ++ l } := by
  have hread := @List.foldlM_push AccessRule String String (Except Panic) _ _
    (fun rule entry => addEntry rule (trim entry))
    (fun rule l => { rule with emailDomains := rule.emailDomains ++ l }) id (fun rule => by simp)
    (fun rule entry l => by simp) l ?_ rule
  · rwa [List.map_id] at hread
  · intro rule entry hentry
    obtain ⟨haddress, hemail⟩ := h entry hentry
    rw [id_eq, haddress.trimmed, addEntry_address haddress.cuts haddress.plain, addAddress]
    exact congrArg Except.ok (if_neg hemail)

lemma addEntries_github {rule : AccessRule} {l : List String} (h : ∀ g ∈ l, GithubForm g) :
    addEntries rule (l.map (GITHUB_PREFIX ++ ·)) =
      .ok { rule with github := rule.github ++ l } := by
  refine @List.foldlM_push AccessRule String String (Except Panic) _ _
    (fun rule entry => addEntry rule (trim entry))
    (fun rule l => { rule with github := rule.github ++ l }) (GITHUB_PREFIX ++ ·)
    (fun rule => by simp) (fun rule entry l => by simp) l ?_ rule
  intro rule g hg
  rw [(h g hg).trimmed, addEntry_github (h g hg).ne]
  rfl

end AccessRule

/-! ## Reading back what was written -/

namespace AccessRule.fromPolicies

lemma foldlM_emails (rule : AccessRule) (l : List String) :
    (l.map emailRule).foldlM addInclude rule = some { rule with emails := rule.emails ++ l } :=
  @List.foldlM_push AccessRule Json String Option _ _ addInclude
    (fun rule l => { rule with emails := rule.emails ++ l }) emailRule (fun rule => by simp)
    (fun rule e l => by simp) l (fun rule e _ => addInclude_email rule e) rule

lemma foldlM_domains (rule : AccessRule) (l : List String) :
    (l.map emailDomainRule).foldlM addInclude rule =
      some { rule with emailDomains := rule.emailDomains ++ l } :=
  @List.foldlM_push AccessRule Json String Option _ _ addInclude
    (fun rule l => { rule with emailDomains := rule.emailDomains ++ l }) emailDomainRule
    (fun rule => by simp) (fun rule d l => by simp) l (fun rule d _ => addInclude_domain rule d) rule

/-- The rule for a GitHub entry, with the login method `id`. -/
def entryRule (id entry : String) : Json :=
  let (org, team) := match splitOnce '/' entry with
    | some (org, team) => (org, some team)
    | none => (entry, none)
  githubRule id org team

lemma addInclude_entry (rule : AccessRule) (id entry : String) :
    addInclude rule (entryRule id entry) = some { rule with github := rule.github ++ [entry] } := by
  rw [entryRule]
  cases hcut : splitOnce '/' entry with
  | none => rw [addInclude_github]
  | some parts =>
      obtain ⟨org, team⟩ := parts
      have hentry : entry = org ++ "/" ++ team := splitOnce_eq hcut
      rw [addInclude_github, hentry]

lemma foldlM_github (rule : AccessRule) (id : String) (l : List String) :
    (l.map (entryRule id)).foldlM addInclude rule =
      some { rule with github := rule.github ++ l } :=
  @List.foldlM_push AccessRule Json String Option _ _ addInclude
    (fun rule l => { rule with github := rule.github ++ l }) (entryRule id) (fun rule => by simp)
    (fun rule g l => by simp) l (fun rule g _ => addInclude_entry rule id g) rule

lemma foldlM_people (n : AccessRule) (method : Option LoginMethod) :
    (peopleRules n method).foldlM addInclude ⟨[], [], [], n.signIn, []⟩ = some n.peopleOnly := by
  have hrules : peopleRules n method = n.emails.map emailRule ++
      n.emailDomains.map emailDomainRule ++
        n.github.map (entryRule ((method.map LoginMethod.id).getD "")) := rfl
  rw [hrules, List.foldlM_append, List.foldlM_append, foldlM_emails, Option.bind_eq_bind,
    Option.bind_some, foldlM_domains, Option.bind_some, foldlM_github]
  rfl

end AccessRule.fromPolicies

section normalized

variable [External]

/-! ## What normalizing gives -/

/-- `n` is what `r` is tidied to. -/
structure Normalizes (r n : AccessRule) : Prop where
  emails : n.emails = AccessRule.clean r.emails
  domains : n.emailDomains = AccessRule.clean r.emailDomains
  github : ∃ entries, collect githubEntry .github [] (r.github.filter fun g => trim g ≠ "") =
    .ok entries ∧ n.github = sorted entries
  someone : ¬ (n.emails = [] ∧ n.emailDomains = [] ∧ n.github = [])
  signIn : AccessRule.signInFor r.signIn n.github.isEmpty = .ok n.signIn
  validEmails : n.emails.find? (fun e => !AccessRule.validEmail e) = none
  validDomains : n.emailDomains.find? (fun d => !validDomain d) = none
  bypass : ∃ paths, collect bypassPath .bypassPath [] r.bypass = .ok paths ∧
    ¬ paths.length > MAX_BYPASS ∧ n.bypass = sorted paths

lemma normalized_iff {r n : AccessRule} : r.normalized = .ok n ↔ Normalizes r n := by
  simp only [AccessRule.normalized, bind_eq_ok, pure_eq_ok, refuseIf_eq_ok, refuseSome_eq_ok,
    cleanGithub_eq, cleanBypass_eq]
  constructor
  · rintro ⟨entries, hentries, -, hsome, signIn, hsignIn, -, hemails, -, hdomains, paths, hpaths, -,
      hfew, rfl⟩
    exact ⟨rfl, rfl, ⟨entries, hentries, rfl⟩, hsome, hsignIn, hemails, hdomains,
      ⟨paths, hpaths, hfew, rfl⟩⟩
  · rintro ⟨hemails, hdomains, ⟨entries, hentries, hgithub⟩, hsome, hsignIn, hvalid, hvalid',
      paths, hpaths, hfew, hbypass⟩
    rw [hemails] at hsome hvalid
    rw [hdomains] at hsome hvalid'
    rw [hgithub] at hsome hsignIn
    refine ⟨entries, hentries, (), hsome, n.signIn, hsignIn, (), hvalid, (), hvalid', paths, hpaths,
      (), hfew, ?_⟩
    rw [← hemails, ← hdomains, ← hgithub, ← hbypass]

variable {r n : AccessRule}

lemma Normalizes.githubForm (h : Normalizes r n) : ∀ g ∈ n.github, GithubForm g := by
  obtain ⟨entries, hentries, hgithub⟩ := h.github
  intro g hg
  rw [hgithub, mem_sorted] at hg
  obtain ⟨raw, hraw⟩ := (collect_ok hentries ⟨List.nodup_nil, fun e he => absurd he List.not_mem_nil⟩).2 g hg
  exact Teitunnel.githubForm hraw

/-- Entries that normalizing gave are collected as they are, and in order. -/
lemma Normalizes.collect_github (h : Normalizes r n) :
    collect githubEntry .github [] (n.github.filter fun g => trim g ≠ "") = .ok n.github ∧
      sorted n.github = n.github := by
  obtain ⟨entries, hentries, hgithub⟩ := h.github
  have hnodup := (collect_ok hentries ⟨List.nodup_nil, fun e he => absurd he List.not_mem_nil⟩).1
  have hfilter : (n.github.filter fun g => trim g ≠ "") = n.github := by
    refine List.filter_eq_self.mpr fun g hg => decide_eq_true ?_
    have hform := h.githubForm g hg
    rw [trim_eq hform.leading hform.trailing]
    exact hform.ne
  constructor
  · rw [hfilter]
    refine collect_self (fun g hg => (h.githubForm g hg).again) ?_
    rw [List.nil_append, hgithub]
    exact nodup_sorted hnodup
  · rw [hgithub]
    exact sorted_eq (sorted_pairwise entries)

lemma Normalizes.collect_bypass (h : Normalizes r n) :
    collect bypassPath .bypassPath [] n.bypass = .ok n.bypass ∧ ¬ n.bypass.length > MAX_BYPASS ∧
      sorted n.bypass = n.bypass := by
  obtain ⟨paths, hpaths, hfew, hbypass⟩ := h.bypass
  obtain ⟨hnodup, hread⟩ :=
    collect_ok hpaths ⟨List.nodup_nil, fun e he => absurd he List.not_mem_nil⟩
  refine ⟨?_, ?_, ?_⟩
  · refine collect_self (fun path hpath => ?_) ?_
    · rw [hbypass, mem_sorted] at hpath
      obtain ⟨raw, hraw⟩ := hread path hpath
      exact bypassPath_again hraw
    · rw [List.nil_append, hbypass]
      exact nodup_sorted hnodup
  · rw [hbypass, sorted, List.length_insertionSort]
    exact hfew
  · rw [hbypass]
    exact sorted_eq (sorted_pairwise paths)

/-- A rule with the entries of a normalized one, read once more. -/
lemma Normalizes.read (h : Normalizes r n) {q : AccessRule} {signIn : SignIn}
    (hemails : AccessRule.clean q.emails = n.emails)
    (hdomains : AccessRule.clean q.emailDomains = n.emailDomains) (hgithub : q.github = n.github)
    (hsignIn : AccessRule.signInFor q.signIn n.github.isEmpty = .ok signIn)
    (hbypass : q.bypass = n.bypass ∨ q.bypass = []) :
    q.normalized = .ok { n with signIn, bypass := q.bypass } := by
  obtain ⟨hcollect, hsorted⟩ := h.collect_github
  obtain ⟨hpaths, hfew, hpathsSorted⟩ := h.collect_bypass
  refine normalized_iff.mpr ⟨hemails.symm, hdomains.symm, ⟨n.github, ?_, hsorted.symm⟩, h.someone,
    hsignIn, h.validEmails, h.validDomains, q.bypass, ?_⟩
  · rw [hgithub]
    exact hcollect
  · rcases hbypass with hsame | hnone
    · rw [hsame]
      exact ⟨hpaths, hfew, hpathsSorted.symm⟩
    · rw [hnone]
      exact ⟨rfl, by decide, rfl⟩

/-- No entry of the rule keeps a space in front. -/
def NoSpaces (r : AccessRule) : Prop :=
  ∀ s ∈ r.emails ++ r.emailDomains, NoLeadingSpace (tidy s)

/-- Normalizing again changes nothing if no entry keeps a space in front. -/
lemma normalized_again (h : Normalizes r n) : n.normalized = .ok n ↔ NoSpaces r := by
  constructor
  · intro hagain s hs
    have hself := normalized_iff.mp hagain
    have hemails := hself.emails
    have hdomains := hself.domains
    rw [h.emails] at hemails
    rw [h.domains] at hdomains
    rcases List.mem_append.mp hs with hs | hs
    · exact (clean_clean _).mp hemails.symm s hs
    · exact (clean_clean _).mp hdomains.symm s hs
  · intro hspaces
    refine h.read ?_ ?_ rfl (signInFor_again h.signIn) (.inl rfl)
    · rw [h.emails]
      exact (clean_clean _).mpr fun s hs => hspaces s (List.mem_append_left _ hs)
    · rw [h.domains]
      exact (clean_clean _).mpr fun s hs => hspaces s (List.mem_append_right _ hs)

/-- The definition with policies for machines before and after. -/
lemma fromNew_definition (n : AccessRule) (domain : String) (method : Option LoginMethod)
    {before after : List AccessPolicy} (h : ∀ p ∈ before ++ after, isMachines p = true) :
    AccessRule.fromNew { appDefinition domain n method with
      policies := before ++ (appDefinition domain n method).policies ++ after } =
      n.peopleOnly.normalized.toOption := by
  have hnone : ∀ l : List AccessPolicy, (∀ p ∈ l, isMachines p = true) →
      l.filter (fun p => !isMachines p) = [] := by
    intro l hl
    refine List.filter_eq_nil_iff.mpr fun p hp => ?_
    rw [hl p hp]
    exact Bool.false_ne_true
  have hbefore := hnone before fun p hp => h p (List.mem_append_left _ hp)
  have hafter := hnone after fun p hp => h p (List.mem_append_right _ hp)
  have hpeople : (appDefinition domain n method).policies.filter (fun p => !isMachines p) =
      (appDefinition domain n method).policies := by
    refine List.filter_eq_self.mpr fun p hp => ?_
    obtain rfl := List.mem_singleton.mp hp
    rfl
  have hone : (before ++ (appDefinition domain n method).policies ++ after).filter
      (fun p => !isMachines p) = (appDefinition domain n method).policies := by
    rw [List.filter_append, List.filter_append, hbefore, hafter, hpeople, List.nil_append,
      List.append_nil]
  have hfold := AccessRule.fromPolicies.foldlM_people n method
  rw [AccessRule.fromNew, AccessRule.fromPolicies, hone]
  simp only [appDefinition, selfHosted, ne_eq, not_true, if_false, signInOf_policyName, hfold,
    Option.bind_eq_bind, Option.bind_some]

/-! ## Round trips -/

/-- A normalized rule is what it is normalized to again, what is read back from the application
written for it, and, how people log in apart, what is read back from its entries. -/
structure RoundTrips (n : AccessRule) : Prop where
  again : n.normalized = .ok n
  written : ∀ domain methods method, loginMethod n.signIn methods = .ok method →
    ∀ before after : List AccessPolicy, (∀ p ∈ before ++ after, isMachines p = true) →
      AccessRule.fromNew { appDefinition domain n method with
        policies := before ++ (appDefinition domain n method).policies ++ after } = some n.peopleOnly
  typed : ∃ rule n', AccessRule.fromAllow n.allow n.bypass = .ok (some rule) ∧
    rule.normalized = .ok n' ∧ { n' with signIn := n.signIn } = n

/-- No address or domain keeps a space in front; no address looks like a GitHub entry; and none of
their entries has a character across the end of that prefix. -/
structure ReadsBack (r : AccessRule) : Prop where
  noSpaces : NoSpaces r
  notGithub : ∀ s ∈ r.emails, ¬ StartsWith GITHUB_PREFIX (tidy s)
  cutsEmails : ∀ s ∈ r.emails, CutsAtPrefix (tidy s)
  cutsDomains : ∀ s ∈ r.emailDomains, CutsAtPrefix ("@" ++ tidy s)

lemma Normalizes.mem_emails (h : Normalizes r n) {e : String} (he : e ∈ n.emails) :
    ∃ s ∈ r.emails, tidy s = e := by
  rw [h.emails] at he
  exact (mem_clean.mp he).1

lemma Normalizes.mem_domains (h : Normalizes r n) {d : String} (hd : d ∈ n.emailDomains) :
    (∃ s ∈ r.emailDomains, tidy s = d) ∧ d ≠ "" := by
  rw [h.domains] at hd
  exact mem_clean.mp hd

/-- An address has an `@`, and not in front. -/
lemma Normalizes.isEmail (h : Normalizes r n) {e : String} (he : e ∈ n.emails) :
    '@' ∈ e.toList ∧ IsEmail e := by
  have hvalid : AccessRule.validEmail e = true := by
    have hnone := List.find?_eq_none.mp h.validEmails e he
    simpa using hnone
  obtain ⟨s, -, rfl⟩ := h.mem_emails he
  have hat : '@' ∈ (tidy s).toList := by
    rw [AccessRule.validEmail] at hvalid
    cases hcut : splitOnce '@' (tidy s) with
    | none => simp [hcut] at hvalid
    | some parts =>
        obtain ⟨user, domain⟩ := parts
        rw [splitOnce_eq hcut]
        simp
  exact ⟨hat, isEmail_iff.mpr ⟨hat, tidy_head s⟩⟩

omit [External] in
lemma lower_at (d : String) (h : toAsciiLowercase d = d) :
    toAsciiLowercase ("@" ++ d) = "@" ++ d := by
  have hat : toAsciiLowercase "@" = "@" := by decide
  rw [toAsciiLowercase_append, h, hat]

omit [External] in
/-- A domain as it is typed. -/
lemma address_domain {s : String} (hne : tidy s ≠ "")
    (hcuts : CutsAtPrefix ("@" ++ tidy s)) :
    (AccessRule.Address ("@" ++ tidy s) ∧ ¬ IsEmail ("@" ++ tidy s)) ∧
      tidy ("@" ++ tidy s) = tidy s := by
  have hlist : ("@" ++ tidy s).toList = '@' :: (tidy s).toList := by
    rw [String.toList_append]
    rfl
  have htrim : trim ("@" ++ tidy s) = "@" ++ tidy s := trim_domain hne
  have hplain : ¬ IsGithub ("@" ++ tidy s) := by
    intro hgithub
    obtain ⟨rest, hrest⟩ :=
      startsWith_iff.mp (startsWith_of_isGithub hgithub (lower_at _ (lower_tidy s)))
    have hheads := congrArg List.head? (congrArg String.toList hrest)
    rw [hlist, String.toList_append] at hheads
    exact absurd (Option.some.inj hheads) (by decide)
  refine ⟨⟨⟨htrim, hcuts, hplain⟩, ?_⟩, ?_⟩
  · rw [isEmail_iff, hlist]
    exact fun hemail => hemail.2 rfl
  · have hstart : trimStart (· == '@') ("@" ++ tidy s) = tidy s := by
      have hself : (tidy s).toList.dropWhile (· == '@') = (tidy s).toList := by
        refine dropWhile_eq_self fun c hc => beq_eq_false_iff_ne.mpr fun heq => ?_
        rw [heq] at hc
        exact tidy_head s hc
      rw [trimStart, hlist, List.dropWhile_cons_of_pos (by decide), hself, String.ofList_toList]
    rw [tidy, htrim, hstart, lower_tidy]

/-- The entries of a rule read back. -/
lemma ReadsBack.fromAllow (hback : ReadsBack r) (h : Normalizes r n) :
    AccessRule.fromAllow n.allow n.bypass =
      .ok (some ⟨n.emails, n.emailDomains.map ("@" ++ ·), n.github, .any, n.bypass⟩) := by
  have hemails : ∀ e ∈ n.emails, AccessRule.Address e ∧ IsEmail e := by
    intro e he
    obtain ⟨s, hs, rfl⟩ := h.mem_emails he
    have hspace := hback.noSpaces s (List.mem_append_left _ hs)
    refine ⟨⟨trim_eq hspace (noTrailingSpace_tidy s), hback.cutsEmails s hs, fun hgithub => ?_⟩,
      (h.isEmail he).2⟩
    exact hback.notGithub s hs (startsWith_of_isGithub hgithub (lower_tidy s))
  have hdomains : ∀ d ∈ n.emailDomains.map ("@" ++ ·), AccessRule.Address d ∧ ¬ IsEmail d := by
    intro d hd
    obtain ⟨e, he, rfl⟩ := List.mem_map.mp hd
    obtain ⟨⟨s, hs, rfl⟩, hne⟩ := h.mem_domains he
    exact (address_domain hne (hback.cutsDomains s hs)).1
  have hne : n.allow ≠ [] := by
    intro hnil
    rw [AccessRule.allow, List.append_eq_nil_iff, List.append_eq_nil_iff, List.map_eq_nil_iff,
      List.map_eq_nil_iff] at hnil
    exact h.someone ⟨hnil.1.1, hnil.1.2, hnil.2⟩
  have hread : AccessRule.addEntries ⟨[], [], [], .any, n.bypass⟩ n.allow =
      .ok ⟨n.emails, n.emailDomains.map ("@" ++ ·), n.github, .any, n.bypass⟩ := by
    rw [AccessRule.allow, AccessRule.addEntries_append, AccessRule.addEntries_append]
    simp only [bind_eq_ok]
    exact ⟨_, ⟨_, AccessRule.addEntries_emails hemails, AccessRule.addEntries_domains hdomains⟩,
      AccessRule.addEntries_github h.githubForm⟩
  rw [AccessRule.fromAllow, if_neg hne]
  exact congrArg (Except.map some) hread

omit [External] in
lemma clean_congr {l l' : List String} (h : l.map tidy = l'.map tidy) :
    AccessRule.clean l = AccessRule.clean l' := by
  rw [clean_eq, clean_eq, h]

/-- Read back and normalized they are the rule again, how people log in apart. -/
lemma ReadsBack.typed (hback : ReadsBack r) (h : Normalizes r n) :
    ∃ rule n', AccessRule.fromAllow n.allow n.bypass = .ok (some rule) ∧
      rule.normalized = .ok n' ∧ { n' with signIn := n.signIn } = n := by
  obtain ⟨signIn, hsignIn⟩ := signInFor_any n.github.isEmpty
  have hemails : AccessRule.clean n.emails = n.emails := by
    rw [h.emails]
    exact (clean_clean _).mpr fun s hs => hback.noSpaces s (List.mem_append_left _ hs)
  have hdomains : AccessRule.clean (n.emailDomains.map ("@" ++ ·)) = n.emailDomains := by
    have hself : AccessRule.clean n.emailDomains = n.emailDomains := by
      rw [h.domains]
      exact (clean_clean _).mpr fun s hs => hback.noSpaces s (List.mem_append_right _ hs)
    refine (clean_congr ?_).trans hself
    rw [List.map_map]
    refine List.map_congr_left fun d hd => ?_
    obtain ⟨⟨s, hs, rfl⟩, hne⟩ := h.mem_domains hd
    have hspace := hback.noSpaces s (List.mem_append_right _ hs)
    rw [Function.comp_apply, (address_domain hne (hback.cutsDomains s hs)).2,
      tidy_tidy hspace]
  exact ⟨_, _, hback.fromAllow h, h.read hemails hdomains rfl hsignIn (.inl rfl), rfl⟩

/-- What reads back from its entries can be cut, and none of its addresses is taken for a GitHub
entry. -/
lemma readsBack_of_typed (h : Normalizes r n) (hspaces : NoSpaces r)
    (htyped : ∃ rule n', AccessRule.fromAllow n.allow n.bypass = .ok (some rule) ∧
      rule.normalized = .ok n' ∧ { n' with signIn := n.signIn } = n) : ReadsBack r := by
  obtain ⟨rule, n', hallow, hn', hsame⟩ := htyped
  have hemails' : n'.emails = n.emails := by
    have hfields := congrArg AccessRule.emails hsame
    exact hfields
  have hread : AccessRule.addEntries ⟨[], [], [], .any, n.bypass⟩ n.allow = .ok rule := by
    rw [AccessRule.fromAllow] at hallow
    split_ifs at hallow
    · exact absurd hallow (by simp)
    · obtain ⟨found, hfound, heq⟩ := map_eq_ok.mp hallow
      rw [← Option.some.inj heq]
      exact hfound
  obtain ⟨hcuts, hemails⟩ := AccessRule.addEntries_ok hread
  have hmem : ∀ s ∈ r.emails, tidy s ≠ "" → tidy s ∈ n.emails := by
    intro s hs hne
    rw [h.emails]
    exact mem_clean.mpr ⟨⟨s, hs, rfl⟩, hne⟩
  have htrim : ∀ s ∈ r.emails, trim (tidy s) = tidy s := fun s hs =>
    trim_eq (hspaces s (List.mem_append_left _ hs)) (noTrailingSpace_tidy s)
  have hsmall : ∀ {s : String}, s.utf8ByteSize ≤ GITHUB_PREFIX.utf8ByteSize → CutsAtPrefix s :=
    fun hle hlt => absurd hlt (Nat.not_lt.mpr hle)
  refine ⟨hspaces, ?_, ?_, ?_⟩
  · intro s hs hstarts
    obtain ⟨rest, hrest⟩ := startsWith_iff.mp hstarts
    have hne : tidy s ≠ "" := by
      intro hempty
      rw [hempty] at hstarts
      exact absurd hstarts (by decide)
    have hin := hmem s hs hne
    have hgithub : IsGithub (tidy s) := by
      rw [hrest]
      refine isGithub_append fun hempty => ?_
      have hat := (h.isEmail hin).1
      rw [hrest, hempty] at hat
      exact absurd hat (by decide)
    -- the address must come from an entry that was read as one
    rw [← hemails', (normalized_iff.mp hn').emails] at hin
    obtain ⟨⟨x, hx, hxs⟩, -⟩ := mem_clean.mp hin
    rcases hemails x hx with hx | ⟨entry, hentry, rfl, hplain, hemail⟩
    · exact absurd hx List.not_mem_nil
    · rw [AccessRule.allow, List.mem_append, List.mem_append] at hentry
      rcases hentry with (hentry | hentry) | hentry
      · obtain ⟨s', hs', rfl⟩ := h.mem_emails hentry
        rw [htrim s' hs'] at hxs hplain
        rw [tidy_tidy (hspaces s' (List.mem_append_left _ hs'))] at hxs
        rw [hxs] at hplain
        exact hplain hgithub
      · obtain ⟨d, hd, rfl⟩ := List.mem_map.mp hentry
        obtain ⟨⟨s', -, rfl⟩, hne'⟩ := h.mem_domains hd
        rw [trim_domain hne', isEmail_iff, String.toList_append] at hemail
        exact hemail.2 rfl
      · obtain ⟨g, hg, rfl⟩ := List.mem_map.mp hentry
        rw [(h.githubForm g hg).trimmed] at hplain
        exact hplain (isGithub_append (h.githubForm g hg).ne)
  · intro s hs
    by_cases hne : tidy s = ""
    · rw [hne]
      exact hsmall (by decide)
    · have hcut := hcuts (tidy s) (List.mem_append_left _ (List.mem_append_left _ (hmem s hs hne)))
      rwa [htrim s hs] at hcut
  · intro s hs
    by_cases hne : tidy s = ""
    · rw [hne]
      exact hsmall (by decide)
    · have hin : tidy s ∈ n.emailDomains := by
        rw [h.domains]
        exact mem_clean.mpr ⟨⟨s, hs, rfl⟩, hne⟩
      have hcut := hcuts ("@" ++ tidy s)
        (List.mem_append_left _ (List.mem_append_right _ (List.mem_map.mpr ⟨_, hin, rfl⟩)))
      rwa [trim_domain hne] at hcut

/-- A normalized rule survives being written and read back exactly if none of its addresses and
domains keeps a space in front, none of its addresses looks like a GitHub entry, and none of their
entries has a character across the end of that prefix. -/
theorem roundTrips_iff (r n : AccessRule) (h : r.normalized = .ok n) :
    RoundTrips n ↔ ReadsBack r := by
  have hn := normalized_iff.mp h
  constructor
  · rintro ⟨hagain, -, htyped⟩
    exact readsBack_of_typed hn ((normalized_again hn).mp hagain) htyped
  · intro hback
    refine ⟨(normalized_again hn).mpr hback.noSpaces, ?_, hback.typed hn⟩
    intro domain methods method _ before after hmachines
    have hagain := normalized_iff.mp ((normalized_again hn).mpr hback.noSpaces)
    have hpeople : n.peopleOnly.normalized = .ok n.peopleOnly :=
      hn.read hagain.emails.symm hagain.domains.symm rfl (signInFor_again hn.signIn) (.inr rfl)
    rw [fromNew_definition n domain method hmachines, hpeople]
    rfl

end normalized

section sample

local instance loginReference : External := reference

/-- A login as it may be typed. -/
def sampleRule : AccessRule where
  emails := [" Me@xyz.com"]
  emailDomains := ["@Partner.com", "partner.com"]
  github := ["github:octo-org/ops"]
  signIn := .any
  bypass := ["api/*"]

/-- The same, tidied. -/
def sampleLogin : AccessRule where
  emails := ["me@xyz.com"]
  emailDomains := ["partner.com"]
  github := ["octo-org/ops"]
  signIn := .github
  bypass := ["/api"]

/-- It survives. -/
theorem sampleLogin_roundTrips : sampleRule.normalized = .ok sampleLogin ∧ RoundTrips sampleLogin := by
  have hnormal : sampleRule.normalized = .ok sampleLogin := by decide +kernel
  refine ⟨hnormal, (roundTrips_iff sampleRule sampleLogin hnormal).mpr ⟨?_, ?_, ?_, ?_⟩⟩
  · intro s hs
    simp only [sampleRule, List.cons_append, List.nil_append, List.mem_cons, List.not_mem_nil,
      or_false] at hs
    rcases hs with rfl | rfl | rfl
    · rw [show tidy " Me@xyz.com" = "me@xyz.com" by decide +kernel]
      exact noLeadingSpace_of (c := 'm') rfl rfl
    · rw [show tidy "@Partner.com" = "partner.com" by decide +kernel]
      exact noLeadingSpace_of (c := 'p') rfl rfl
    · rw [show tidy "partner.com" = "partner.com" by decide +kernel]
      exact noLeadingSpace_of (c := 'p') rfl rfl
  · decide +kernel
  · decide +kernel
  · decide +kernel

/-- An address with a space behind an `@` in front. -/
def spacedRule : AccessRule := { sampleRule with emails := ["@ me@xyz.com"] }

/-- It is accepted with the space, and without it the second time. -/
theorem spacedLogin_strays :
    ∃ n, spacedRule.normalized = .ok n ∧ n.normalized ≠ .ok n ∧ ¬ RoundTrips n := by
  have hnormal : spacedRule.normalized = .ok { sampleLogin with emails := [" me@xyz.com"] } := by
    decide +kernel
  have htidy : tidy "@ me@xyz.com" = " me@xyz.com" := by decide +kernel
  have hchanges : AccessRule.normalized { sampleLogin with emails := [" me@xyz.com"] } ≠
      .ok { sampleLogin with emails := [" me@xyz.com"] } := by
    intro hagain
    have hspaces := (normalized_again (normalized_iff.mp hnormal)).mp hagain
    have hspace := hspaces "@ me@xyz.com" List.mem_cons_self
    rw [htidy] at hspace
    exact absurd (hspace ' ' rfl) (by decide)
  exact ⟨_, hnormal, hchanges, fun hround => hchanges hround.again⟩

end sample

end Teitunnel
