import Teitunnel.Lib.Trim
import Teitunnel.Allow

/-!
# Tidy entries

What `normalized` gives is in order, once each, and in the form it is tidied to: a GitHub entry or
a path that was read is read as it is.  An email address or a domain keeps a space that stood
behind an `@` before it; such an entry is tidied once more the second time.
-/

namespace Teitunnel

open Text Except

/-! ## Tidy entries -/

/-- One entry trimmed, without `@` in front, in lower case. -/
def tidy (s : String) : String := toAsciiLowercase (trimStart (· == '@') (trim s))

lemma clean_eq (items : List String) :
    AccessRule.clean items = (sorted ((items.map tidy).filter (· ≠ ""))).destutter (· ≠ ·) := rfl

lemma noTrailingSpace_tidy (s : String) : NoTrailingSpace (tidy s) := by
  intro c hc
  rw [tidy, toList_toAsciiLowercase, trimStart, String.toList_ofList, List.getLast?_map] at hc
  obtain ⟨d, hd, rfl⟩ := Option.map_eq_some_iff.mp hc
  rw [isWhitespace_toLower]
  exact noTrailingSpace_trim s d (mem_getLast?_of_suffix (List.dropWhile_suffix _) hd)

/-- A tidy entry has no `@` in front. -/
lemma tidy_head (s : String) : '@' ∉ (tidy s).toList.head? := by
  intro hc
  rw [tidy, toList_toAsciiLowercase, trimStart, String.toList_ofList, List.head?_map] at hc
  obtain ⟨d, hd, hlower⟩ := Option.map_eq_some_iff.mp hc
  have hfirst := head_dropWhile hd
  rw [toLower_eq_at hlower] at hfirst
  exact absurd hfirst (by decide)

/-- In lower case it stays. -/
lemma lower_tidy (s : String) : toAsciiLowercase (tidy s) = tidy s := by
  rw [tidy, String.ext_iff, toList_toAsciiLowercase, toList_toAsciiLowercase, List.map_map]
  exact List.map_congr_left fun c _ => Char.toLower_toLower_eq_toLower c

/-- Without a space in front a tidy entry is tidy for good. -/
lemma tidy_tidy {s : String} (h : NoLeadingSpace (tidy s)) : tidy (tidy s) = tidy s := by
  have hstart : ∀ c ∈ (tidy s).toList.head?, (c == '@') = false := by
    intro c hc
    refine beq_eq_false_iff_ne.mpr fun heq => ?_
    rw [heq] at hc
    exact tidy_head s hc
  rw [tidy, trim_eq h (noTrailingSpace_tidy s), trimStart_eq_self hstart, lower_tidy]

lemma length_tidy_le (s : String) : (tidy s).toList.length ≤ (trim s).toList.length := by
  rw [tidy, toList_toAsciiLowercase, List.length_map, trimStart, String.toList_ofList]
  exact (List.dropWhile_suffix _).length_le

/-- With one it gets shorter. -/
lemma length_tidy_lt {s : String} (h : ¬ NoLeadingSpace s) :
    (tidy s).toList.length < s.toList.length := by
  refine (length_tidy_le s).trans_lt ?_
  rw [trim, trimMatches, trimEnd, trimStart, String.toList_ofList, String.toList_ofList]
  refine (List.rdropWhile_prefix _ _).length_le.trans_lt ?_
  rw [NoLeadingSpace] at h
  cases hs : s.toList with
  | nil => simp [hs] at h
  | cons a rest =>
      have ha : isWhitespace a = true := by simpa [hs] using h
      rw [List.dropWhile_cons_of_pos ha, List.length_cons]
      exact Nat.lt_succ_of_le (List.dropWhile_suffix _).length_le

/-! ## Lists in order, once each -/

/-- Entries of all lists together, in characters. -/
def size (l : List String) : ℕ := (l.map fun s => s.toList.length).sum

lemma mem_sorted {l : List String} {s : String} : s ∈ sorted l ↔ s ∈ l :=
  List.mem_insertionSort _

lemma sorted_pairwise (l : List String) : (sorted l).Pairwise (· ≤ ·) :=
  List.pairwise_insertionSort _ _

lemma sorted_eq {l : List String} (h : l.Pairwise (· ≤ ·)) : sorted l = l := h.insertionSort_eq

lemma mem_clean {items : List String} {e : String} :
    e ∈ AccessRule.clean items ↔ (∃ s ∈ items, tidy s = e) ∧ e ≠ "" := by
  have hdedup := (sorted_pairwise ((items.map tidy).filter (· ≠ ""))).destutter_eq_dedup
  rw [clean_eq, hdedup, List.mem_dedup, mem_sorted, List.mem_filter, List.mem_map,
    decide_eq_true_iff]

lemma clean_sorted (items : List String) : (AccessRule.clean items).Pairwise (· ≤ ·) := by
  rw [clean_eq]
  exact (sorted_pairwise _).sublist (List.destutter_sublist _ _)

lemma clean_chain (items : List String) : (AccessRule.clean items).IsChain (· ≠ ·) := by
  rw [clean_eq]
  exact List.isChain_destutter _ _

/-- Tidy entries in order, once each, stay. -/
lemma clean_self {l : List String} (h : ∀ e ∈ l, tidy e = e ∧ e ≠ "")
    (hsorted : l.Pairwise (· ≤ ·)) (hchain : l.IsChain (· ≠ ·)) : AccessRule.clean l = l := by
  have hmap : l.map tidy = l := by
    conv_rhs => rw [← List.map_id l]
    exact List.map_congr_left fun e he => (h e he).1
  have hfilter : l.filter (· ≠ "") = l :=
    List.filter_eq_self.mpr fun e he => decide_eq_true (h e he).2
  rw [clean_eq, hmap, hfilter, sorted_eq hsorted, List.destutter_of_isChain _ _ hchain]

lemma size_clean_le (l : List String) : size (AccessRule.clean l) ≤ size (l.map tidy) := by
  rw [clean_eq]
  refine (((List.destutter_sublist _ _).map _).sum_le_sum fun _ _ => Nat.zero_le _).trans ?_
  rw [sorted, ((List.perm_insertionSort _ _).map _).sum_eq]
  exact ((List.filter_sublist.map _).sum_le_sum fun _ _ => Nat.zero_le _)

/-- With a space in front of one, they get shorter. -/
lemma clean_ne {l : List String} {e : String} (he : e ∈ l) (h : ¬ NoLeadingSpace e) :
    AccessRule.clean l ≠ l := by
  intro heq
  have hle : ∀ s : String, (tidy s).toList.length ≤ s.toList.length := fun s =>
    (length_tidy_le s).trans (length_trim_le s)
  have hshort : (tidy e).toList.length < e.toList.length := length_tidy_lt h
  have hlt : size (l.map tidy) < size l := by
    rw [size, size, List.map_map]
    refine List.sum_lt_sum ((fun s => s.toList.length) ∘ tidy) (fun s => s.toList.length) ?_
      ⟨e, he, ?_⟩
    · intro s _
      rw [Function.comp_apply]
      exact hle s
    · rw [Function.comp_apply]
      exact hshort
  have hsize := size_clean_le l
  rw [heq] at hsize
  omega

/-- What was cleaned is clean if none has a space in front. -/
lemma clean_clean (items : List String) :
    AccessRule.clean (AccessRule.clean items) = AccessRule.clean items ↔
      ∀ s ∈ items, NoLeadingSpace (tidy s) := by
  constructor
  · intro heq s hs
    by_contra hspace
    refine clean_ne (mem_clean.mpr ⟨⟨s, hs, rfl⟩, ?_⟩) hspace heq
    intro hempty
    rw [hempty] at hspace
    exact hspace fun c hc => by simp at hc
  · intro h
    refine clean_self ?_ (clean_sorted items) (clean_chain items)
    intro e he
    obtain ⟨⟨s, hs, rfl⟩, hne⟩ := mem_clean.mp he
    exact ⟨tidy_tidy (h s hs), hne⟩

/-! ## Entries read one by one -/

/-- Entries as a reader gives them, in the order given, once each. -/
def collect (read : String → Option String) (error : String → AccessRuleError) :
    List String → List String → Except AccessRuleError (List String)
  | out, [] => .ok out
  | out, raw :: rest =>
      match read raw with
      | none => .error (error raw)
      | some entry => collect read error (pushNew out entry) rest

attribute [local irreducible] githubEntry bypassPath in
lemma clean_cons (out raws : List String) (raw : String) :
    AccessRule.cleanGithub out (raw :: raws) = (match githubEntry raw with
      | none => .error (.github raw)
      | some entry => AccessRule.cleanGithub (pushNew out entry) raws) ∧
    AccessRule.cleanBypass out (raw :: raws) = (match bypassPath raw with
      | none => .error (.bypassPath raw)
      | some path => AccessRule.cleanBypass (pushNew out path) raws) :=
  ⟨rfl, rfl⟩

lemma cleanGithub_eq (out raws : List String) :
    AccessRule.cleanGithub out raws = collect githubEntry .github out raws := by
  induction raws generalizing out with
  | nil => rfl
  | cons raw raws ih =>
      rw [(clean_cons out raws raw).1, collect]
      generalize githubEntry raw = found
      cases found with
      | none => rfl
      | some entry => exact ih _

lemma cleanBypass_eq (out raws : List String) :
    AccessRule.cleanBypass out raws = collect bypassPath .bypassPath out raws := by
  induction raws generalizing out with
  | nil => rfl
  | cons raw raws ih =>
      rw [(clean_cons out raws raw).2, collect]
      generalize bypassPath raw = found
      cases found with
      | none => rfl
      | some entry => exact ih _

variable {read : String → Option String} {error : String → AccessRuleError}

lemma mem_pushNew {l : List String} {x e : String} : e ∈ pushNew l x ↔ e ∈ l ∨ e = x := by
  rw [pushNew]
  split_ifs with h
  · constructor
    · exact .inl
    · rintro (he | rfl)
      · exact he
      · exact h
  · rw [List.mem_append, List.mem_singleton]

lemma nodup_pushNew {l : List String} (h : l.Nodup) (x : String) : (pushNew l x).Nodup := by
  rw [pushNew]
  split_ifs with hx
  · exact h
  · exact List.nodup_append.mpr ⟨h, List.nodup_singleton x, fun a ha b hb hab => hx (by
      rw [← List.mem_singleton.mp hb, ← hab]
      exact ha)⟩

/-- What is collected was read, and is there once. -/
lemma collect_ok {out raws l : List String} (h : collect read error out raws = .ok l)
    (hout : out.Nodup ∧ ∀ e ∈ out, ∃ raw, read raw = some e) :
    l.Nodup ∧ ∀ e ∈ l, ∃ raw, read raw = some e := by
  induction raws generalizing out with
  | nil =>
      obtain rfl := Except.ok.inj h
      exact hout
  | cons raw raws ih =>
      rw [collect] at h
      cases hread : read raw with
      | none => simp [hread] at h
      | some entry =>
          rw [hread] at h
          refine ih h ⟨nodup_pushNew hout.1 entry, fun e he => ?_⟩
          rcases mem_pushNew.mp he with he | rfl
          · exact hout.2 e he
          · exact ⟨raw, hread⟩

/-- Entries that are read as they are, once each, are collected as they are. -/
lemma collect_self {out l : List String} (hread : ∀ e ∈ l, read e = some e)
    (hnodup : (out ++ l).Nodup) : collect read error out l = .ok (out ++ l) := by
  induction l generalizing out with
  | nil => rw [collect, List.append_nil]
  | cons e l ih =>
      have hnew : e ∉ out := fun he =>
        (List.nodup_append.mp hnodup).2.2 e he e List.mem_cons_self rfl
      rw [collect, hread e List.mem_cons_self]
      simp only [pushNew, if_neg hnew]
      rw [List.append_cons out e l] at hnodup ⊢
      exact ih (fun x hx => hread x (List.mem_cons_of_mem e hx)) hnodup

/-! ## GitHub entries -/

def isOrgChar (c : Char) : Bool := isAsciiAlphanumeric c || c == '-'

lemma isOrgChar_range {c : Char} (h : isOrgChar c = true) :
    c.toNat = 45 ∨ 48 ≤ c.toNat ∧ c.toNat ≤ 57 ∨ 65 ≤ c.toNat ∧ c.toNat ≤ 90 ∨
      97 ≤ c.toNat ∧ c.toNat ≤ 122 := by
  simp only [isOrgChar, isAsciiAlphanumeric, Bool.or_eq_true, Bool.and_eq_true, decide_eq_true_eq,
    Char.le_def, UInt32.le_iff_toNat_le, beq_iff_eq] at h
  rcases h with ((h | h) | h) | rfl
  · exact .inr (.inr (.inr h))
  · exact .inr (.inr (.inl h))
  · exact .inr (.inl h)
  · exact .inl rfl

lemma isOrgChar_plain {c : Char} (h : isOrgChar c = true) :
    isWhitespace c = false ∧ c ≠ ':' ∧ c ≠ '/' := by
  have hrange := isOrgChar_range h
  refine ⟨not_isWhitespace (by omega), ?_, ?_⟩
  · rintro rfl
    have hcolon : ':'.toNat = 58 := rfl
    omega
  · rintro rfl
    have hslash : '/'.toNat = 47 := rfl
    omega

/-- An organization's name. -/
def orgOk (org : String) : Bool :=
  1 ≤ org.utf8ByteSize && org.utf8ByteSize ≤ 39 && org.toList.head? != some '-' &&
    org.toList.all isOrgChar

/-- A team's name. -/
def teamOk (team : String) : Bool :=
  1 ≤ team.length && team.length ≤ 100 &&
    team.toList.all fun c => !(isControl c || c == ',' || c == ';' || c == '/')

/-- An entry without space around it and without the prefix. -/
def githubBody (raw : String) : String :=
  trim ((stripStart GITHUB_PREFIX (trim raw)).getD (trim raw))

lemma githubEntry_eq (raw : String) :
    githubEntry raw = match splitOnce '/' (githubBody raw) with
      | some (org, team) =>
          if orgOk (trim org) && teamOk (trim team) then some (trim org ++ "/" ++ trim team) else none
      | none => if orgOk (githubBody raw) then some (githubBody raw) else none := by
  unfold githubEntry githubBody
  dsimp only
  generalize trim ((stripStart GITHUB_PREFIX (trim raw)).getD (trim raw)) = body
  generalize splitOnce '/' body = parts
  rcases parts with _ | ⟨org, team⟩
  · dsimp only
    rw [Bool.and_true]
    rfl
  · rfl

/-- A GitHub entry that was read is read as it is, has no space at its ends and doesn't begin with
the prefix. -/
structure GithubForm (e : String) : Prop where
  again : githubEntry e = some e
  leading : NoLeadingSpace e
  trailing : NoTrailingSpace e
  ne : e ≠ ""

lemma mem_of_orgOk {org : String} (h : orgOk org = true) :
    org.toList ≠ [] ∧ ∀ c ∈ org.toList, isOrgChar c = true := by
  simp only [orgOk, Bool.and_eq_true, decide_eq_true_eq, List.all_eq_true] at h
  refine ⟨fun hnil => ?_, h.2⟩
  have hempty : org = "" := String.toList_injective hnil
  rw [hempty] at h
  exact absurd h.1.1.1 (by decide)

/-- An organization, and possibly more behind a slash, doesn't begin with the prefix. -/
lemma stripStart_github {org rest : String} (h : orgOk org = true)
    (hrest : ∀ c ∈ rest.toList.head?, c = '/') : stripStart GITHUB_PREFIX (org ++ rest) = none := by
  obtain ⟨hne, hchars⟩ := mem_of_orgOk h
  by_contra hsome
  obtain ⟨r, hr⟩ := Option.ne_none_iff_exists'.mp hsome
  have hlist := congrArg String.toList (stripStart_eq_some.mp hr)
  rw [String.toList_append, String.toList_append] at hlist
  have hcolon : ':' ∈ GITHUB_PREFIX.toList := by decide
  have hslash : '/' ∉ GITHUB_PREFIX.toList := by decide
  rcases List.append_eq_append_iff.mp hlist with ⟨x, hx, hx'⟩ | ⟨x, hx, hx'⟩
  · -- the organization ends inside the prefix
    cases x with
    | nil =>
        rw [List.append_nil] at hx
        exact (isOrgChar_plain (hchars ':' (hx ▸ hcolon))).2.1 rfl
    | cons c x =>
        have hc : c = '/' := hrest c (by rw [hx']; rfl)
        refine hslash ?_
        rw [hx, ← hc]
        exact List.mem_append_right _ List.mem_cons_self
  · refine (isOrgChar_plain (hchars ':' ?_)).2.1 rfl
    rw [hx]
    exact List.mem_append_left _ hcolon

lemma noLeadingSpace_append {org rest : String} (h : orgOk org = true) :
    NoLeadingSpace (org ++ rest) := by
  obtain ⟨hne, hchars⟩ := mem_of_orgOk h
  intro c hc
  rw [String.toList_append, List.head?_append_of_ne_nil _ hne] at hc
  exact (isOrgChar_plain (hchars c (List.mem_of_mem_head? hc))).1

lemma githubBody_self {org rest : String} (h : orgOk org = true)
    (hrest : ∀ c ∈ rest.toList.head?, c = '/') (htrail : NoTrailingSpace (org ++ rest)) :
    githubBody (org ++ rest) = org ++ rest := by
  have htrim : trim (org ++ rest) = org ++ rest := trim_eq (noLeadingSpace_append h) htrail
  rw [githubBody, htrim, stripStart_github h hrest, Option.getD_none, htrim]

lemma noTrailingSpace_org {org : String} (h : orgOk org = true) : NoTrailingSpace org := by
  intro c hc
  exact (isOrgChar_plain ((mem_of_orgOk h).2 c (List.mem_of_getLast? hc))).1

lemma trim_org {org : String} (h : orgOk org = true) : trim org = org := by
  have hlead := @noLeadingSpace_append _ "" h
  rw [String.append_empty] at hlead
  exact trim_eq hlead (noTrailingSpace_org h)

lemma slash_notMem {org : String} (h : orgOk org = true) : '/' ∉ org.toList := fun hmem =>
  (isOrgChar_plain ((mem_of_orgOk h).2 '/' hmem)).2.2 rfl

lemma ne_empty_of_orgOk {org rest : String} (h : orgOk org = true) : org ++ rest ≠ "" := by
  intro hempty
  have hlist := congrArg String.toList hempty
  rw [String.toList_append, String.toList_empty, List.append_eq_nil_iff] at hlist
  exact (mem_of_orgOk h).1 hlist.1

lemma githubForm_org {org : String} (h : orgOk org = true) : GithubForm org := by
  have hbody := @githubBody_self org "" h (fun c hc => by simp at hc)
    (by rw [String.append_empty]; exact noTrailingSpace_org h)
  have hlead := @noLeadingSpace_append org "" h
  have hne := @ne_empty_of_orgOk org "" h
  rw [String.append_empty] at hbody hlead hne
  refine ⟨?_, hlead, noTrailingSpace_org h, hne⟩
  rw [githubEntry_eq, hbody, splitOnce_none (slash_notMem h)]
  exact if_pos h

lemma githubForm_team {org team : String} (h : orgOk org = true) (h' : teamOk team = true)
    (hlead : NoLeadingSpace team) (htrail : NoTrailingSpace team) :
    GithubForm (org ++ "/" ++ team) := by
  have hne : team.toList ≠ [] := by
    intro hnil
    have hempty : team = "" := String.toList_injective hnil
    rw [hempty] at h'
    exact absurd h' (by decide)
  have hend : NoTrailingSpace (org ++ ("/" ++ team)) := by
    intro c hc
    rw [String.toList_append, String.toList_append, ← List.append_assoc,
      List.getLast?_append_of_ne_nil _ hne] at hc
    exact htrail c hc
  have hslash : ∀ c ∈ ("/" ++ team).toList.head?, c = '/' := by
    intro c hc
    rw [String.toList_append] at hc
    exact (Option.some.inj hc).symm
  have hbody := githubBody_self h hslash hend
  have hcut : splitOnce '/' (org ++ "/" ++ team) = some (org, team) :=
    splitOnce_append (slash_notMem h)
  rw [← String.append_assoc] at hbody hend
  refine ⟨?_, ?_, hend, ?_⟩
  · rw [githubEntry_eq, hbody, hcut]
    dsimp only
    rw [trim_org h, trim_eq hlead htrail, h, h']
    rfl
  · rw [String.append_assoc]
    exact noLeadingSpace_append h
  · rw [String.append_assoc]
    exact ne_empty_of_orgOk h

lemma githubForm {raw e : String} (h : githubEntry raw = some e) : GithubForm e := by
  rw [githubEntry_eq] at h
  generalize splitOnce '/' (githubBody raw) = parts at h
  rcases parts with _ | ⟨org, team⟩
  · dsimp only at h
    split_ifs at h with hok
    obtain rfl := Option.some.inj h
    exact githubForm_org hok
  · dsimp only at h
    split_ifs at h with hok
    obtain rfl := Option.some.inj h
    rw [Bool.and_eq_true] at hok
    exact githubForm_team hok.1 hok.2 (noLeadingSpace_trim team) (noTrailingSpace_trim team)

/-! ## Paths -/

/-- A path of the characters that Access takes. -/
def pathOk (path : String) : Bool :=
  1 < path.utf8ByteSize &&
    ((path.toList.drop 1).all fun c => isAsciiAlphanumeric c || "-_./~".toList.contains c) &&
    !decide (HasText "//" path) && !(split '/' path).contains ".."

/-- A path without what may stand at its end. -/
def pathBody (raw : String) : String := trimEnd (· == '/') (trimEnd (· == '*') (trim raw))

def slashed (path : String) : String := if StartsWith "/" path then path else "/" ++ path

lemma bypassPath_eq (raw : String) :
    bypassPath raw =
      if pathOk (slashed (pathBody raw)) then some (slashed (pathBody raw)) else none := rfl

lemma slashed_head (path : String) : (slashed path).toList.head? = some '/' := by
  rw [slashed]
  split_ifs with h
  · obtain ⟨rest, rfl⟩ := startsWith_iff.mp h
    rw [String.toList_append]
    rfl
  · rw [String.toList_append]
    rfl

lemma pathChar_plain {c : Char} (h : (isAsciiAlphanumeric c || "-_./~".toList.contains c) = true) :
    isWhitespace c = false ∧ c ≠ '*' := by
  rw [Bool.or_eq_true] at h
  rcases h with h | h
  · have hrange := isOrgChar_range (show isOrgChar c = true by rw [isOrgChar, h]; rfl)
    refine ⟨not_isWhitespace (by omega), ?_⟩
    rintro rfl
    have hstar : '*'.toNat = 42 := rfl
    omega
  · have hmem : c ∈ ['-', '_', '.', '/', '~'] := List.contains_iff_mem.mp h
    simp only [List.mem_cons, List.not_mem_nil, or_false] at hmem
    rcases hmem with rfl | rfl | rfl | rfl | rfl <;> decide

/-- What was cut off at the end isn't there any more. -/
lemma getLast_pathBody (raw : String) : '/' ∉ (pathBody raw).toList.getLast? := by
  intro hlast
  rw [pathBody, trimEnd, String.toList_ofList] at hlast
  obtain ⟨hne, heq⟩ := List.mem_getLast?_eq_getLast hlast
  have hnot := List.rdropWhile_last_not (· == '/') _ hne
  rw [← heq] at hnot
  exact hnot rfl

lemma bypassPath_again {raw e : String} (h : bypassPath raw = some e) : bypassPath e = some e := by
  rw [bypassPath_eq] at h
  split_ifs at h with hok
  have he : slashed (pathBody raw) = e := Option.some.inj h
  rw [he] at hok
  have hhead : e.toList.head? = some '/' := he ▸ slashed_head _
  obtain ⟨rest, hlist⟩ : ∃ rest, e.toList = '/' :: rest := by
    cases hl : e.toList with
    | nil => simp [hl] at hhead
    | cons c rest => exact ⟨rest, by rw [hl] at hhead; rw [Option.some.inj hhead]⟩
  have hchars : ∀ c ∈ rest, (isAsciiAlphanumeric c || "-_./~".toList.contains c) = true := by
    simp only [pathOk, Bool.and_eq_true, List.all_eq_true, hlist, List.drop_succ_cons,
      List.drop_zero] at hok
    exact hok.1.1.2
  have hplain : ∀ c ∈ e.toList, isWhitespace c = false ∧ c ≠ '*' := by
    intro c hc
    rw [hlist] at hc
    rcases List.mem_cons.mp hc with rfl | hc
    · decide
    · exact pathChar_plain (hchars c hc)
  have hslash : '/' ∉ e.toList.getLast? := by
    intro hlast
    have hbody : (pathBody raw).toList ≠ [] := by
      intro hnil
      have hempty : pathBody raw = "" := String.toList_injective hnil
      rw [hempty] at he
      rw [← he] at hok
      exact absurd hok (by decide)
    refine getLast_pathBody raw ?_
    rw [← he, slashed] at hlast
    split_ifs at hlast with hstarts
    · exact hlast
    · rwa [String.toList_append, List.getLast?_append_of_ne_nil _ hbody] at hlast
  have htrim : trim e = e := trim_eq_self fun c hc => (hplain c hc).1
  have hstar : trimEnd (· == '*') e = e := by
    refine trimEnd_eq_self fun c hc => beq_eq_false_iff_ne.mpr ?_
    exact (hplain c (List.mem_of_getLast? hc)).2
  have hend : trimEnd (· == '/') e = e := by
    refine trimEnd_eq_self fun c hc => beq_eq_false_iff_ne.mpr fun heq => ?_
    rw [heq] at hc
    exact hslash hc
  have hstarts : StartsWith "/" e := by
    rw [startsWith_iff]
    refine ⟨String.ofList rest, String.toList_injective ?_⟩
    rw [hlist, String.toList_append, String.toList_ofList]
    simp
  have hsame : slashed (pathBody e) = e := by
    rw [pathBody, htrim, hstar, hend, slashed, if_pos hstarts]
  rw [bypassPath_eq, hsame, if_pos hok]

lemma nodup_sorted {l : List String} (h : l.Nodup) : (sorted l).Nodup :=
  (List.perm_insertionSort _ _).nodup_iff.mpr h

/-! ## How people log in -/

lemma signInFor_again {signIn signIn' : SignIn} {noGithub : Bool}
    (h : AccessRule.signInFor signIn noGithub = .ok signIn') :
    AccessRule.signInFor signIn' noGithub = .ok signIn' := by
  cases signIn <;> cases noGithub <;> simp_all [AccessRule.signInFor] <;> subst h <;> rfl

lemma signInFor_any (noGithub : Bool) :
    ∃ signIn, AccessRule.signInFor .any noGithub = .ok signIn := by
  cases noGithub
  · exact ⟨.github, rfl⟩
  · exact ⟨.any, rfl⟩

lemma signInOf_policyName (signIn : SignIn) : signInOf (policyName signIn) = some signIn := by
  cases signIn <;> decide +kernel

lemma addInclude_email (rule : AccessRule) (e : String) :
    AccessRule.fromPolicies.addInclude rule (emailRule e) =
      some { rule with emails := rule.emails ++ [e] } := rfl

lemma addInclude_domain (rule : AccessRule) (d : String) :
    AccessRule.fromPolicies.addInclude rule (emailDomainRule d) =
      some { rule with emailDomains := rule.emailDomains ++ [d] } := rfl

lemma addInclude_github (rule : AccessRule) (id org : String) (team : Option String) :
    AccessRule.fromPolicies.addInclude rule (githubRule id org team) =
      some { rule with github := rule.github ++ [match team with
        | some t => org ++ "/" ++ t
        | none => org] } := by
  cases team <;> rfl

end Teitunnel
