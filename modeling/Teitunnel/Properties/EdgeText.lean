import Teitunnel.Planner

/-!
# Rules as text, and back

What is written into edge rules reads back: the hostnames of a shared rate limit, its limit,
the header changes, which bots a block rule names, and whose rule a marker says it is.
-/

namespace Teitunnel

open Text Except

/-! ## Headers -/

/-- Header changes in the order of their lower-case names, each name once. -/
def HeadersSorted (l : List HeaderRule) : Prop :=
  l.Pairwise fun a b => toAsciiLowercase a.name < toAsciiLowercase b.name

/-- One header change reads back from its JSON. -/
lemma headerOf_headerOperation (rule : HeaderRule) :
    headerOf (rule.name, headerOperation rule) = some rule := by
  obtain ⟨name, op, value⟩ := rule
  have hop : ((headerOperation ⟨name, op, value⟩).get? "operation").bind Json.asStr =
      some op.cloudflare := by
    simp [headerOperation, Json.get?, Json.asStr]
  have hvalue : ((headerOperation ⟨name, op, value⟩).get? "value").bind Json.asStr = value := by
    have hne : ("value" == "operation") = false := by decide
    cases value <;> simp [headerOperation, Json.get?, Json.asStr, List.lookup_cons, hne]
  simp only [headerOf, hop, hvalue, Option.bind_eq_bind, Option.bind_some,
    EdgeHeaderOp.fromCloudflare_cloudflare, Option.pure_def]

instance : Std.Total fun a b : HeaderRule => toAsciiLowercase a.name ≤ toAsciiLowercase b.name where
  total _ _ := le_total _ _

instance : IsTrans HeaderRule fun a b => toAsciiLowercase a.name ≤ toAsciiLowercase b.name where
  trans _ _ _ := le_trans

/-- Sorting any order of a sorted list gives the list. -/
lemma sortHeaders_of_perm {l l' : List HeaderRule} (hl : HeadersSorted l) (h : l'.Perm l) :
    sortHeaders l' = l := by
  have hperm : (sortHeaders l').Perm l := (List.perm_insertionSort _ l').trans h
  have hsorted : (sortHeaders l').Pairwise fun a b =>
      toAsciiLowercase a.name ≤ toAsciiLowercase b.name := List.pairwise_insertionSort _ l'
  have hle : l.Pairwise fun a b => toAsciiLowercase a.name ≤ toAsciiLowercase b.name :=
    List.Pairwise.imp (fun h => le_of_lt h) hl
  -- equal names in a list with each name once are one element
  have hnodup : (l.map fun rule => toAsciiLowercase rule.name).Nodup :=
    List.pairwise_map.mpr (List.Pairwise.imp (fun h => ne_of_lt h) hl)
  refine hperm.eq_of_pairwise (fun a b ha hb hab hba => ?_) hsorted hle
  exact List.inj_on_of_nodup_map hnodup (hperm.mem_iff.mp ha) hb (le_antisymm hab hba)

/-- The header changes read back from a rule's parameters. -/
lemma headersOf_headersParameters {l : List HeaderRule} (hl : HeadersSorted l) :
    headersOf (some (headersParameters l)) = l := by
  have hkeys : ((l.map fun rule => (rule.name, headerOperation rule)).map Prod.fst).Nodup := by
    rw [List.map_map]
    refine List.pairwise_map.mpr (hl.imp fun hlt heq => ?_)
    exact absurd (congrArg toAsciiLowercase heq) (ne_of_lt hlt)
  have hback : (l.map fun rule => (rule.name, headerOperation rule)).filterMap headerOf = l := by
    rw [List.filterMap_map]
    have hsome : headerOf ∘ (fun rule : HeaderRule => (rule.name, headerOperation rule)) = some := by
      funext rule
      exact headerOf_headerOperation rule
    rw [hsome, List.filterMap_some]
  show sortHeaders ((Json.fieldsOf (l.map fun rule =>
    (rule.name, headerOperation rule))).filterMap headerOf) = l
  refine sortHeaders_of_perm hl ?_
  have hperm := (Json.fieldsOf_perm hkeys).filterMap headerOf
  rwa [hback] at hperm

/-- Settings as the checks leave them. -/
def EdgeProtection.IsNormalized (protection : EdgeProtection) : Prop :=
  ∃ input : EdgeProtection, input.normalized = .ok protection

/-- Tidied headers have distinct lower-case names, none of those seen before. -/
lemma normalizeEach_names {request : Bool} {list tidy : List HeaderRule} {seen : List String}
    (h : normalizeEach request seen list = .ok tidy) :
    (tidy.map fun rule => toAsciiLowercase rule.name).Nodup ∧
      ∀ rule ∈ tidy, toAsciiLowercase rule.name ∉ seen := by
  induction list generalizing seen tidy with
  | nil =>
      cases h
      exact ⟨List.nodup_nil, nofun⟩
  | cons rule rest ih =>
      simp only [normalizeEach, bind_eq_ok, pure_eq_ok] at h
      obtain ⟨first, hfirst, others, hothers, rfl⟩ := h
      obtain ⟨hnodup, hfresh⟩ := ih hothers
      have hseen : toAsciiLowercase first.name ∉ seen := by
        simp only [normalizeHeader, bind_eq_ok, refuseIf_eq_ok, pure_eq_ok] at hfirst
        obtain ⟨_, -, _, hseen, _, -, value, -, rfl⟩ := hfirst
        exact hseen
      refine ⟨?_, ?_⟩
      · rw [List.map_cons, List.nodup_cons]
        refine ⟨fun hmem => ?_, hnodup⟩
        obtain ⟨other, hother, heq⟩ := List.mem_map.mp hmem
        exact hfresh other hother (heq ▸ List.mem_cons_self)
      · intro r hr
        rcases List.mem_cons.mp hr with rfl | hr
        · exact hseen
        · exact fun hmem => hfresh r hr (List.mem_cons_of_mem _ hmem)

lemma normalizeHeaders_sorted {request : Bool} {list tidy : List HeaderRule}
    (h : normalizeHeaders list request = .ok tidy) : HeadersSorted tidy := by
  unfold normalizeHeaders at h
  split at h
  · cases h
  · obtain ⟨each, heach, rfl⟩ := map_eq_ok.mp h
    have hperm : (sortHeaders each).Perm each := List.perm_insertionSort _ each
    have hsorted : (sortHeaders each).Pairwise fun a b =>
        toAsciiLowercase a.name ≤ toAsciiLowercase b.name := List.pairwise_insertionSort _ each
    have hnames : (sortHeaders each).Pairwise fun a b =>
        toAsciiLowercase a.name ≠ toAsciiLowercase b.name :=
      List.pairwise_map.mp ((hperm.map _).nodup_iff.mpr (normalizeEach_names heach).1)
    exact hsorted.imp₂ (fun _ _ hle hne => lt_of_le_of_ne hle hne) hnames

lemma EdgeProtection.IsNormalized.headers {protection : EdgeProtection}
    (h : protection.IsNormalized) :
    HeadersSorted protection.requestHeaders ∧ HeadersSorted protection.responseHeaders := by
  obtain ⟨input, h⟩ := h
  simp only [EdgeProtection.normalized, bind_eq_ok, pure_eq_ok] at h
  obtain ⟨_, -, request, hrequest, response, hresponse, rfl⟩ := h
  exact ⟨normalizeHeaders_sorted hrequest, normalizeHeaders_sorted hresponse⟩

/-! ## Hostnames -/

/-- A character a hostname may have. -/
def isHostnameChar (c : Char) : Bool :=
  isLabelChar c || c == '.' || c == '*'

/-- A hostname has hostname characters only. -/
lemma Hostname.chars (h : Hostname) : ∀ c ∈ h.asStr.toList, isHostnameChar c = true := by
  obtain ⟨_, hlabels, _⟩ := h.valid
  have hname : ∀ c ∈ withoutWildcard h.asStr.toList, isHostnameChar c = true := by
    intro c hc
    have hsplit : ['.'].intercalate ((withoutWildcard h.asStr.toList).splitOn '.') = _ :=
      List.intercalate_splitOn '.'
    rw [← hsplit] at hc
    rcases mem_intercalate hc with rfl | ⟨l, hl, hcl⟩
    · decide
    · have hlabel := (hlabels l hl).2.2.1
      rw [isHostnameChar, List.all_eq_true.mp hlabel c hcl]
      rfl
  intro c hc
  unfold withoutWildcard at hname
  cases hs : stripList ['*', '.'] h.asStr.toList with
  | none => exact hname c (by rw [hs]; exact hc)
  | some rest =>
      rw [stripList_eq_some.mp hs] at hc
      rcases List.mem_append.mp hc with hc | hc
      · simp only [List.mem_cons, List.not_mem_nil, or_false] at hc
        rcases hc with rfl | rfl <;> decide
      · exact hname c (by rw [hs]; exact hc)

lemma Hostname.ne_empty (h : Hostname) : h.asStr ≠ "" := by
  intro hempty
  have hparts := h.valid.1
  rw [hempty] at hparts
  exact absurd hparts (by decide)

/-- A hostname has no character outside those of hostnames. -/
lemma Hostname.not_mem {h : Hostname} {c : Char} (hc : isHostnameChar c = false) :
    c ∉ h.asStr.toList := by
  intro hmem
  rw [h.chars c hmem] at hc
  cases hc

/-- Where the characters of hostnames lie: between `*` and `9`, or lower-case letters. -/
lemma isHostnameChar_range {c : Char} (h : isHostnameChar c = true) :
    (42 ≤ c.toNat ∧ c.toNat ≤ 57) ∨ (97 ≤ c.toNat ∧ c.toNat ≤ 122) := by
  simp only [isHostnameChar, isLabelChar, Bool.or_eq_true, Bool.and_eq_true, decide_eq_true_eq,
    beq_iff_eq] at h
  rcases h with ((((⟨ha, hz⟩ | ⟨h0, h9⟩) | rfl) | rfl) | rfl)
  · exact .inr ⟨ha, hz⟩
  · have h48 : 48 ≤ c.toNat := h0
    exact .inl ⟨by omega, h9⟩
  · exact .inl (by decide)
  · exact .inl (by decide)
  · exact .inl (by decide)

lemma Hostname.toAsciiLowercase (h : Hostname) : Text.toAsciiLowercase h.asStr = h.asStr := by
  have hlower : ∀ c : Char, isHostnameChar c = true → c.toLower = c := by
    intro c hc
    have hrange := isHostnameChar_range hc
    refine dif_neg ?_
    rintro ⟨hA, hZ⟩
    have h65 : 65 ≤ c.toNat := hA
    have h90 : c.toNat ≤ 90 := hZ
    omega
  refine String.toList_injective ?_
  rw [toList_toAsciiLowercase]
  exact (List.map_congr_left fun c hc => hlower c (h.chars c hc)).trans (List.map_id _)

/-- The hostnames of a shared rate limit read back from its expression. -/
lemma hostsOf_hostsExpression {hosts : SortedSet String}
    (h : ∀ x ∈ hosts, ∃ host : Hostname, host.asStr = x) :
    hostsOf (hostsExpression hosts) = hosts := by
  set inner := String.intercalate " " (hosts.toList.map fun x => "\"" ++ x ++ "\"") with hinner
  have hchars : ∀ c ∈ inner.toList, c = ' ' ∨ c = '"' ∨ isHostnameChar c = true := by
    intro c hc
    rw [hinner, String.toList_intercalate] at hc
    rcases mem_intercalate hc with hc | ⟨l, hl, hcl⟩
    · exact .inl hc
    · rw [List.map_map] at hl
      obtain ⟨x, hx, rfl⟩ := List.mem_map.mp hl
      obtain ⟨host, rfl⟩ := h x hx
      have hquoted : ("\"" ++ host.asStr ++ "\"").toList = '"' :: (host.asStr.toList ++ ['"']) := by
        simp
      rw [Function.comp_apply, hquoted] at hcl
      rcases List.mem_cons.mp hcl with hcl | hcl
      · exact .inr (.inl hcl)
      · rcases List.mem_append.mp hcl with hcl | hcl
        · exact .inr (.inr (host.chars c hcl))
        · exact .inr (.inl (List.mem_singleton.mp hcl))
  have hopen : splitOnce '\x7b' (hostsExpression hosts) = some ("(http.host in ", inner ++ "\x7d)") := by
    have hexpr : hostsExpression hosts =
        "(http.host in " ++ String.singleton '\x7b' ++ (inner ++ "\x7d)") := by
      rw [hostsExpression, ← hinner, String.append_assoc]
      rfl
    rw [hexpr]
    exact splitOnce_append (by decide)
  have hclose : splitOnce '\x7d' (inner ++ "\x7d)") = some (inner, ")") := by
    have hexpr : inner ++ "\x7d)" = inner ++ String.singleton '\x7d' ++ ")" := by
      rw [String.append_assoc]
      rfl
    rw [hexpr]
    refine splitOnce_append fun hmem => ?_
    rcases hchars _ hmem with hc | hc | hc
    · exact absurd hc (by decide)
    · exact absurd hc (by decide)
    · exact absurd hc (by decide)
  have hspace : ∀ host : Hostname, ∀ c ∈ host.asStr.toList, isWhitespace c = false := by
    intro host c hc
    have hrange := isHostnameChar_range (host.chars c hc)
    simp only [isWhitespace, Bool.or_eq_false_iff, Bool.and_eq_false_iff, decide_eq_false_iff_not,
      beq_eq_false_iff_ne]
    omega
  have hpieces : (inner.toList.splitOnP isWhitespace).filter (· ≠ []) =
      hosts.toList.map fun x => ("\"" ++ x ++ "\"").toList := by
    rw [hinner, String.toList_intercalate, List.map_map]
    refine splitOnP_intercalate (by decide) fun l hl => ?_
    obtain ⟨x, hx, rfl⟩ := List.mem_map.mp hl
    obtain ⟨host, rfl⟩ := h x hx
    refine ⟨by simp, fun c hc => ?_⟩
    have hquoted : ("\"" ++ host.asStr ++ "\"").toList = '"' :: (host.asStr.toList ++ ['"']) := by
      simp
    rw [Function.comp_apply, hquoted] at hc
    rcases List.mem_cons.mp hc with rfl | hc
    · decide
    · rcases List.mem_append.mp hc with hc | hc
      · exact hspace host c hc
      · rw [List.mem_singleton.mp hc]
        decide
  have hread : (hosts.toList.map fun x => ("\"" ++ x ++ "\"").toList).map (fun l =>
      Text.toAsciiLowercase (trimMatches (· == '"') (String.ofList l))) = hosts.toList := by
    rw [List.map_map]
    refine (List.map_congr_left fun x hx => ?_).trans (List.map_id _)
    obtain ⟨host, rfl⟩ := h x hx
    rw [Function.comp_apply, String.ofList_toList, id]
    have htrim := trimMatches_quoted (c := '"') (s := host.asStr) (Hostname.not_mem (by decide))
    rw [show "\"" ++ host.asStr ++ "\"" = String.singleton '"' ++ host.asStr ++ String.singleton '"'
      from rfl, htrim, host.toAsciiLowercase]
  have hnonempty : hosts.toList.filter (· ≠ "") = hosts.toList := by
    refine List.filter_eq_self.mpr fun x hx => ?_
    obtain ⟨host, rfl⟩ := h x hx
    exact decide_eq_true host.ne_empty
  simp only [hostsOf, hopen, Option.bind_some, hclose]
  rw [hpieces, hread, hnonempty, SortedSet.ofList_toList]

/-! ## Rate limits -/

/-- The limit reads back from the rule that enforces it. -/
lemma rateLimitSpec_rateLimitRule (spec : RateLimitSpec) (hosts : SortedSet String) :
    rateLimitSpec (rateLimitRule spec hosts) = some spec := by
  have hmarker : StartsWith RATE_LIMIT_MARKER (rateLimitRule spec hosts).description := by
    refine startsWith_iff.mpr ⟨toString spec.requests ++ "-" ++ toString spec.period ++ "-" ++
      spec.action.cloudflare, ?_⟩
    show rateLimitMarker spec = _
    simp only [rateLimitMarker, String.append_assoc]
  rw [rateLimitSpec, if_pos hmarker]
  simp only [rateLimitRule, Option.bind_eq_bind, Option.bind_some, LimitAction.fromCloudflare_cloudflare,
    Option.pure_def]

/-- An owned shared rate limit is read as its limit and its hostnames. -/
lemma rateLimitGroup_of_rule {rule : ObservedRule} {position : ℕ} {spec : RateLimitSpec}
    {hosts : SortedSet String} (howned : rule.owned = true)
    (hrule : rule.rule = rateLimitRule spec hosts)
    (hhosts : ∀ x ∈ hosts, ∃ host : Hostname, host.asStr = x) :
    rateLimitGroup rule position = some ⟨position, rule, spec, hosts⟩ := by
  have hread : hostsOf rule.rule.expression = hosts := by
    rw [hrule]
    exact hostsOf_hostsExpression hhosts
  have hspec : rateLimitSpec rule.rule = some spec := by
    rw [hrule, rateLimitSpec_rateLimitRule]
  rw [rateLimitGroup, if_pos howned, hspec, hread, Option.map_some]

/-! ## Markers -/

section markers

variable [External]

omit [External] in
lemma length_hex (d : Digest) : d.hex.toList.length = 64 := by
  simp [Digest.hex]

lemma length_routeId (hostname : Hostname) (path : Option PathRule) :
    (routeId hostname path).toList.length = 12 := by
  simp [routeId, length_hex]

/-- A marker says whose rule it is and of which kind. -/
lemma marker_inj {h h' : Hostname} {kind kind' : RuleKind}
    (heq : marker h kind = marker h' kind') :
    routeId h none = routeId h' none ∧ kind = kind' := by
  have hlist := congrArg String.toList heq
  simp only [marker, String.toList_append, List.append_assoc] at hlist
  have hrest := List.append_cancel_left hlist
  obtain ⟨hid, hslug⟩ := List.append_inj hrest (by rw [length_routeId, length_routeId])
  refine ⟨String.toList_injective hid, ?_⟩
  have hkind : kind.slug = kind'.slug := String.toList_injective (List.append_cancel_left hslug)
  revert hkind
  cases kind <;> cases kind' <;> decide

end markers

/-! ## What a block rule names -/

/-- The characters of a hostname's expression: those of hostnames and of the text around it. -/
lemma not_mem_hostExpression {hostname : Hostname} {c : Char} (hc : isHostnameChar c = false)
    (hopen : c ∉ "(http.host eq \"".toList) (hclose : c ∉ "\")".toList) :
    c ∉ (hostExpression hostname).toList := by
  intro hmem
  simp only [hostExpression, String.toList_append, List.mem_append] at hmem
  rcases hmem with (hmem | hmem) | hmem
  · exact hopen hmem
  · exact Hostname.not_mem hc hmem
  · exact hclose hmem

lemma hasText_last (a b p : String) : HasText p (a ++ b ++ p) := by
  have h := hasText_append (a ++ b) p ""
  rwa [String.append_empty] at h

/-- A text isn't in a hostname's rule when a character of it is in neither part. -/
lemma not_hasText_rule {hostname : Hostname} {p condition : String} {c : Char} (hp : c ∈ p.toList)
    (hhost : c ∉ (hostExpression hostname).toList) (hand : c ∉ " and ".toList)
    (hcondition : c ∉ condition.toList) :
    ¬ HasText p (hostExpression hostname ++ " and " ++ condition) := by
  refine not_hasText hp fun hmem => ?_
  rw [String.toList_append, String.toList_append, List.mem_append, List.mem_append] at hmem
  rcases hmem with (hmem | hmem) | hmem
  · exact hhost hmem
  · exact hand hmem
  · exact hcondition hmem

lemma mem_toList_append {c : Char} {a b : String} :
    c ∈ (a ++ b).toList ↔ c ∈ a.toList ∨ c ∈ b.toList := by
  rw [String.toList_append, List.mem_append]

lemma not_mem_toList_append {c : Char} {a b : String} (ha : c ∉ a.toList) (hb : c ∉ b.toList) :
    c ∉ (a ++ b).toList := by
  rw [mem_toList_append]
  exact not_or.mpr ⟨ha, hb⟩

lemma slash_mem_bots : '/' ∈ BOTS_EXPRESSION.toList := by
  have hjava {a b : String} (hb : '/' ∈ b.toList) : '/' ∈ (a ++ b).toList :=
    mem_toList_append.mpr (.inr hb)
  have hrest {a b : String} (ha : '/' ∈ a.toList) : '/' ∈ (a ++ b).toList :=
    mem_toList_append.mpr (.inl ha)
  refine hrest (hrest (hrest (hrest (hjava ?_))))
  decide +kernel

lemma upper_not_mem_bots : 'A' ∉ BOTS_EXPRESSION.toList := by
  iterate 9 refine not_mem_toList_append ?_ ?_
  all_goals decide +kernel

/-- The expression of a block rule names the bots exactly when bots are blocked. -/
lemma hasText_bots_iff {hostname : Hostname} {protection : EdgeProtection} {condition : String}
    (h : blockCondition protection = some condition) :
    HasText BOTS_EXPRESSION (hostExpression hostname ++ " and " ++ condition) ↔
      protection.bots = .block := by
  have hslash := slash_mem_bots
  unfold blockCondition at h
  -- the long literal stays a name: only its characters matter
  generalize BOTS_EXPRESSION = bots at h hslash ⊢
  cases hbots : (protection.bots == .block) with
  | true =>
      refine iff_of_true ?_ (eq_of_beq hbots)
      cases hai : protection.aiCrawlers with
      | true =>
          simp only [hbots, hai, Option.some.injEq] at h
          rw [← h]
          have htext := hasText_append (hostExpression hostname ++ " and " ++ "(") bots
            (" or " ++ AI_EXPRESSION ++ ")")
          simp only [String.append_assoc] at htext ⊢
          exact htext
      | false =>
          simp only [hbots, hai, Option.some.injEq] at h
          rw [← h]
          exact hasText_last _ _ _
  | false =>
      refine iff_of_false ?_ fun heq => by rw [heq] at hbots; cases hbots
      cases hai : protection.aiCrawlers with
      | true =>
          simp only [hbots, hai, Option.some.injEq] at h
          rw [← h]
          exact not_hasText_rule hslash
            (not_mem_hostExpression (by decide) (by decide) (by decide)) (by decide) (by decide)
      | false =>
          simp only [hbots, hai] at h
          cases h

/-- The expression of a block rule names the crawlers exactly when they are blocked. -/
lemma hasText_ai_iff {hostname : Hostname} {protection : EdgeProtection} {condition : String}
    (h : blockCondition protection = some condition) :
    HasText AI_EXPRESSION (hostExpression hostname ++ " and " ++ condition) ↔
      protection.aiCrawlers = true := by
  have hupper := upper_not_mem_bots
  unfold blockCondition at h
  generalize BOTS_EXPRESSION = bots at h hupper
  cases hai : protection.aiCrawlers with
  | true =>
      refine iff_of_true ?_ rfl
      cases hbots : (protection.bots == .block) with
      | true =>
          simp only [hbots, hai, Option.some.injEq] at h
          rw [← h]
          have htext := hasText_append (hostExpression hostname ++ " and " ++
            ("(" ++ bots ++ " or ")) AI_EXPRESSION ")"
          simp only [String.append_assoc] at htext ⊢
          exact htext
      | false =>
          simp only [hbots, hai, Option.some.injEq] at h
          rw [← h]
          exact hasText_last _ _ _
  | false =>
      refine iff_of_false ?_ Bool.false_ne_true
      cases hbots : (protection.bots == .block) with
      | true =>
          simp only [hbots, hai, Option.some.injEq] at h
          rw [← h]
          have hai : 'A' ∈ AI_EXPRESSION.toList := by decide
          exact not_hasText_rule hai
            (not_mem_hostExpression (by decide) (by decide) (by decide)) (by decide) hupper
      | false =>
          simp only [hbots, hai] at h
          cases h

end Teitunnel
