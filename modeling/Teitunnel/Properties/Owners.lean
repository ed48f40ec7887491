import Teitunnel.Ownership

/-!
# Owners read back from comments

A label is sanitized, cut at forty characters, cut again to what fits the comment and stripped
of the dashes at the cut; whoever reads it back compares it by a prefix rule.  A sanitized label
(`IsLabel`) survives another pass, a cut one loses only its trailing dashes
(`sanitizeOwner_cut`), and a lease's comment parses to what was written with the cut label
(`parse_render_leaseOf`).  What the prefix rule then says of two labels is `sameOwner_cut_iff`.
-/

namespace Teitunnel

open Text

/-! ## Labels -/

/-- Where the characters of labels lie. -/
lemma isOwnerChar_range {c : Char} (h : isOwnerChar c = true) :
    (43 ≤ c.toNat ∧ c.toNat ≤ 57) ∨ (64 ≤ c.toNat ∧ c.toNat ≤ 90) ∨ c.toNat = 95 ∨
      (97 ≤ c.toNat ∧ c.toNat ≤ 122) := by
  have hsigns : "@._+-/".toList = ['@', '.', '_', '+', '-', '/'] := by decide
  simp only [isOwnerChar, isAsciiAlphanumeric, hsigns, Bool.or_eq_true, Bool.and_eq_true,
    decide_eq_true_eq, List.contains_iff_mem, List.mem_cons, List.not_mem_nil, or_false] at h
  rcases h with ((⟨ha, hz⟩ | ⟨hA, hZ⟩) | ⟨h0, h9⟩) | hsign
  · exact .inr (.inr (.inr ⟨ha, hz⟩))
  · have h65 : 65 ≤ c.toNat := hA
    have h90 : c.toNat ≤ 90 := hZ
    omega
  · have h48 : 48 ≤ c.toNat := h0
    have h57 : c.toNat ≤ 57 := h9
    omega
  · rcases hsign with rfl | rfl | rfl | rfl | rfl | rfl <;> decide

lemma isOwnerChar_dash : isOwnerChar '-' = true := by decide

lemma isOwnerChar_ascii {c : Char} (h : isOwnerChar c = true) : c.toNat < 128 := by
  have hrange := isOwnerChar_range h
  omega

lemma isOwnerChar_not_space {c : Char} (h : isOwnerChar c = true) : isWhitespace c = false := by
  have hrange := isOwnerChar_range h
  simp only [isWhitespace, Bool.or_eq_false_iff, Bool.and_eq_false_iff, decide_eq_false_iff_not,
    beq_eq_false_iff_ne]
  omega

/-- A label as `sanitizeOwner` leaves it. -/
structure IsLabel (l : List Char) : Prop where
  chars : ∀ c ∈ l, isOwnerChar c = true
  length : l.length ≤ MAX_OWNER
  first : l.head? ≠ some '-'
  last : l.getLast? ≠ some '-'

/-- What is built from safe characters has safe characters only, and no more than fit. -/
lemma sanitizeFrom_safe {out l : List Char} (hchars : ∀ c ∈ out, isOwnerChar c = true)
    (hlen : out.length < MAX_OWNER) :
    (∀ c ∈ sanitizeFrom out l, isOwnerChar c = true) ∧ (sanitizeFrom out l).length ≤ MAX_OWNER := by
  induction l generalizing out with
  | nil => exact ⟨hchars, hlen.le⟩
  | cons c rest ih =>
      have hsnoc : ∀ d, isOwnerChar d = true → ∀ x ∈ out ++ [d], isOwnerChar x = true := by
        intro d hd x hx
        rcases List.mem_append.mp hx with hx | hx
        · exact hchars x hx
        · rw [List.mem_singleton.mp hx]
          exact hd
      -- one more character, or none after a dash
      have hstep : ∀ next : List Char, (∀ x ∈ next, isOwnerChar x = true) →
          next.length ≤ out.length + 1 →
          (∀ x ∈ (if next.length ≥ MAX_OWNER then next else sanitizeFrom next rest),
            isOwnerChar x = true) ∧
          (if next.length ≥ MAX_OWNER then next else sanitizeFrom next rest).length ≤ MAX_OWNER := by
        intro next hnext hle
        split_ifs with hfull
        · exact ⟨hnext, by omega⟩
        · exact ih hnext (not_le.mp hfull)
      rw [sanitizeFrom]
      by_cases hc : isOwnerChar c = true
      · rw [if_pos hc]
        exact hstep _ (hsnoc c hc) (by simp)
      · rw [if_neg hc]
        by_cases hdash : out.getLast? = some '-'
        · rw [if_pos hdash]
          exact hstep _ hchars (by omega)
        · rw [if_neg hdash]
          exact hstep _ (hsnoc '-' isOwnerChar_dash) (by simp)

/-- Safe characters that fit are kept as they are. -/
lemma sanitizeFrom_eq {out l : List Char} (hchars : ∀ c ∈ l, isOwnerChar c = true)
    (hlen : out.length + l.length ≤ MAX_OWNER) : sanitizeFrom out l = out ++ l := by
  induction l generalizing out with
  | nil => rw [sanitizeFrom, List.append_nil]
  | cons c rest ih =>
      have hc : isOwnerChar c = true := hchars c List.mem_cons_self
      rw [List.length_cons] at hlen
      rw [sanitizeFrom, if_pos hc]
      show (if (out ++ [c]).length ≥ MAX_OWNER then out ++ [c] else _) = _
      split_ifs with hfull
      · have hrest : rest = [] := by
          rw [List.length_append, List.length_singleton] at hfull
          exact List.length_eq_zero_iff.mp (by omega)
        rw [hrest]
      · rw [ih (fun x hx => hchars x (List.mem_cons_of_mem c hx))
          (by rw [List.length_append, List.length_singleton]; omega), List.append_assoc,
          List.singleton_append]

lemma toList_trimDashes (l : List Char) :
    (trimMatches (· == '-') (String.ofList l)).toList =
      (l.dropWhile (· == '-')).rdropWhile (· == '-') := by
  simp only [trimMatches, trimEnd, trimStart, String.toList_ofList]

lemma isLabel_sanitizeOwner (owner : String) : IsLabel (sanitizeOwner owner).toList := by
  set l := sanitizeFrom [] (trim owner).toList with hl
  obtain ⟨hchars, hlen⟩ : (∀ c ∈ l, isOwnerChar c = true) ∧ l.length ≤ MAX_OWNER :=
    sanitizeFrom_safe nofun (by decide)
  have hdrop : (l.dropWhile (· == '-')) <:+ l := List.dropWhile_suffix _
  have hkeep : (l.dropWhile (· == '-')).rdropWhile (· == '-') <+: l.dropWhile (· == '-') :=
    List.rdropWhile_prefix _ _
  have hlist : (sanitizeOwner owner).toList =
      (l.dropWhile (· == '-')).rdropWhile (· == '-') := toList_trimDashes l
  rw [hlist]
  refine ⟨fun c hc => hchars c (hdrop.subset (hkeep.subset hc)),
    (hkeep.length_le.trans hdrop.length_le).trans hlen, ?_, ?_⟩
  · intro hfirst
    obtain ⟨rest, hrest⟩ := hkeep
    cases hs : (l.dropWhile (· == '-')).rdropWhile (· == '-') with
    | nil => rw [hs] at hfirst; cases hfirst
    | cons a tail =>
        rw [hs] at hfirst hrest
        have ha : a = '-' := Option.some.inj hfirst
        have hne : l.dropWhile (· == '-') ≠ [] := by rw [← hrest]; simp
        have hnot := List.head_dropWhile_not (· == '-') hne
        simp only [← hrest, List.cons_append, List.head_cons, ha, beq_self_eq_true] at hnot
        cases hnot
  · intro hlast
    obtain ⟨rest, hrest⟩ := List.getLast?_eq_some_iff.mp hlast
    have hne : (l.dropWhile (· == '-')).rdropWhile (· == '-') ≠ [] := by rw [hrest]; simp
    have hnot := List.rdropWhile_last_not (· == '-') _ hne
    simp only [hrest, List.getLast_append_singleton, beq_self_eq_true, not_true_eq_false] at hnot

/-- Of a safe text that starts with no dash only the dashes at its end go. -/
lemma sanitizeOwner_ofList {l : List Char} (hchars : ∀ c ∈ l, isOwnerChar c = true)
    (hlen : l.length ≤ MAX_OWNER) (hfirst : l.head? ≠ some '-') :
    sanitizeOwner (String.ofList l) = String.ofList (l.rdropWhile (· == '-')) := by
  have htrim : trim (String.ofList l) = String.ofList l :=
    trim_eq_self fun c hc => isOwnerChar_not_space (hchars c (by rwa [String.toList_ofList] at hc))
  have hfrom : sanitizeFrom [] l = l := sanitizeFrom_eq hchars (by simpa using hlen)
  have hdrop : l.dropWhile (· == '-') = l := by
    cases l with
    | nil => rfl
    | cons a rest =>
        refine List.dropWhile_cons_of_neg fun ha => hfirst ?_
        rw [eq_of_beq ha, List.head?_cons]
  refine String.toList_injective ?_
  rw [sanitizeOwner, htrim, String.toList_ofList, hfrom, toList_trimDashes, hdrop,
    String.toList_ofList]

/-- The label as far as `room` lets it be written. -/
def cutLabel (room : ℕ) (owner : String) : List Char :=
  (sanitizeOwner owner).toList.take room

/-- What is left of it when it is read back. -/
def keptLabel (room : ℕ) (owner : String) : List Char :=
  (cutLabel room owner).rdropWhile (· == '-')

lemma cutLabel_chars {room : ℕ} {owner : String} :
    ∀ c ∈ cutLabel room owner, isOwnerChar c = true :=
  fun c hc => (isLabel_sanitizeOwner owner).chars c (List.mem_of_mem_take hc)

lemma sanitizeOwner_cut (room : ℕ) (owner : String) :
    sanitizeOwner (String.ofList (cutLabel room owner)) = String.ofList (keptLabel room owner) := by
  have hlabel := isLabel_sanitizeOwner owner
  refine sanitizeOwner_ofList cutLabel_chars ?_ ?_
  · have hle : (cutLabel room owner).length ≤ (sanitizeOwner owner).toList.length := by
      rw [cutLabel, List.length_take]
      exact Nat.min_le_right _ _
    exact le_trans hle hlabel.length
  · intro hfirst
    rw [cutLabel, List.head?_take] at hfirst
    split_ifs at hfirst
    exact hlabel.first hfirst

/-! ## Comments of leases -/

/-- A route's id: twelve hexadecimal digits. -/
structure RouteId where
  text : String
  length_text : text.toList.length = 12
  hex : ∀ c ∈ text.toList, (48 ≤ c.toNat ∧ c.toNat ≤ 57) ∨ (97 ≤ c.toNat ∧ c.toNat ≤ 102)

/-- A lease: a placeholder, or the record of a route that keeps its lease. -/
def leaseOf (route : Option RouteId) (owner : String) (ends : Option ℕ) : Ownership :=
  match route with
  | none => Ownership.ofLease owner ends
  | some id => { Ownership.ofRoute id.text owner with lease := true, untilMs := ends }

/-- What a comment says of its marker. -/
def Marker.text : Marker → String
  | .route id => "route=" ++ id
  | .lease => "lease"
  | .other head => head

/-- What a comment says behind the owner. -/
def Ownership.tailText (o : Ownership) : String :=
  (if o.lease ∧ o.marker ≠ .lease then ";lease" else "") ++
    match o.untilMs with
    | some ends => ";until=" ++ formatUntil ends
    | none => ""

/-- The characters a comment has left for the owner. -/
def Ownership.room (o : Ownership) : ℕ :=
  MAX_COMMENT - ((COMMENT_PREFIX ++ o.marker.text).utf8ByteSize + o.tailText.utf8ByteSize + 4)

/-- The parts of a lease's comment behind its marker. -/
def leaseParts (route : Option RouteId) (cut : List Char) (ends : Option ℕ) : List String :=
  (if cut = [] then [] else ["by=" ++ String.ofList cut]) ++
    ((match route with
      | none => []
      | some _ => ["lease"]) ++
    (match ends with
      | none => []
      | some at_ => ["until=" ++ formatUntil at_]))

lemma ofList_eq_empty {l : List Char} : String.ofList l = "" ↔ l = [] := by
  rw [← String.toList_inj, String.toList_ofList]
  rfl

lemma render_leaseOf (route : Option RouteId) (owner : String) (ends : Option ℕ) :
    (leaseOf route owner ends).render =
      COMMENT_PREFIX ++ String.intercalate ";" ((leaseOf route owner ends).marker.text ::
        leaseParts route (cutLabel (leaseOf route owner ends).room owner) ends) := by
  have hrender : (leaseOf route owner ends).render =
      COMMENT_PREFIX ++ (leaseOf route owner ends).marker.text ++
        (if String.ofList (cutLabel (leaseOf route owner ends).room owner) ≠ "" then
          ";by=" ++ String.ofList (cutLabel (leaseOf route owner ends).room owner) else "") ++
        (leaseOf route owner ends).tailText := by
    cases route <;> rfl
  rw [hrender, intercalate_cons]
  generalize cutLabel (leaseOf route owner ends).room owner = cut
  have hby : ∀ t, ";" ++ ("by=" ++ t) = ";by=" ++ t := fun t => (String.append_assoc).symm
  have hlease : ∀ t, ";" ++ ("lease" ++ t) = ";lease" ++ t := fun t => (String.append_assoc).symm
  have huntil : ∀ t, ";" ++ ("until=" ++ t) = ";until=" ++ t := fun t => (String.append_assoc).symm
  by_cases hcut : cut = []
  · have hno : ¬ String.ofList cut ≠ "" := not_not.mpr (ofList_eq_empty.mpr hcut)
    rw [leaseParts.eq_def, if_pos hcut, if_neg hno]
    cases route <;> cases ends <;>
      simp [leaseOf, Ownership.ofLease, Ownership.ofRoute, Ownership.tailText, hlease,
        huntil, String.append_assoc]
  · have hsome : String.ofList cut ≠ "" := fun h => hcut (ofList_eq_empty.mp h)
    rw [leaseParts.eq_def, if_neg hcut, if_pos hsome]
    cases route <;> cases ends <;>
      simp [leaseOf, Ownership.ofLease, Ownership.ofRoute, Ownership.tailText, hby, hlease,
        huntil, String.append_assoc]

/-! ## Reading them -/

/-- A character that neither ends a part of a comment nor is white space. -/
def isPartChar (c : Char) : Bool :=
  c != ';' && !isWhitespace c

/-- A text that can be a part of a comment. -/
abbrev IsPart (s : String) : Prop :=
  AllChars isPartChar s

lemma isPart_of_range {s : String} (h : ∀ c ∈ s.toList, (43 ≤ c.toNat ∧ c.toNat ≤ 58) ∨
    (64 ≤ c.toNat ∧ c.toNat ≤ 122)) : IsPart s := by
  refine allChars_iff.mpr fun c hc => ?_
  have hrange := h c hc
  have hsep : (c != ';') = true := by
    refine bne_iff_ne.mpr ?_
    rintro rfl
    exact absurd hrange (by decide)
  have hspace : isWhitespace c = false := by
    simp only [isWhitespace, Bool.or_eq_false_iff, Bool.and_eq_false_iff,
      decide_eq_false_iff_not, beq_eq_false_iff_ne]
    omega
  rw [isPartChar, hsep, hspace]
  rfl

lemma IsPart.not_mem {s : String} (h : IsPart s) : ';' ∉ s.toList := by
  intro hmem
  have hsep := allChars_iff.mp h ';' hmem
  exact absurd hsep (by decide)

lemma IsPart.not_space {s : String} (h : IsPart s) : ∀ c ∈ s.toList, isWhitespace c = false := by
  intro c hc
  have hpart := allChars_iff.mp h c hc
  rw [isPartChar, Bool.and_eq_true, Bool.not_eq_true'] at hpart
  exact hpart.2

lemma isPart_padded (width n : ℕ) : IsPart (padded width n) := by
  refine isPart_of_range fun c hc => .inl ?_
  have hdigit : c.isDigit = true := by
    rw [padded, String.toList_append, String.toList_ofList] at hc
    rcases List.mem_append.mp hc with hc | hc
    · rw [List.eq_of_mem_replicate hc]
      decide
    · have hrepr : (toString n).toList = Nat.toDigits 10 n := Nat.toList_repr
      rw [hrepr] at hc
      exact Nat.isDigit_of_mem_toDigits (by decide) (by decide) hc
  simp only [Char.isDigit, Bool.and_eq_true, decide_eq_true_eq] at hdigit
  have h48 : 48 ≤ c.toNat := hdigit.1
  have h57 : c.toNat ≤ 57 := hdigit.2
  omega

lemma isPart_formatUntil (at_ : ℕ) : IsPart (formatUntil at_) := by
  have hdash : IsPart "-" := by decide
  have hT : IsPart "T" := by decide
  have hcolon : IsPart ":" := by decide
  have hZ : IsPart "Z" := by decide
  exact ((((((((((isPart_padded _ _).append hdash).append (isPart_padded _ _)).append
    hdash).append (isPart_padded _ _)).append hT).append (isPart_padded _ _)).append
    hcolon).append (isPart_padded _ _)).append hZ)

lemma isPart_marker (route : Option RouteId) (owner : String) (ends : Option ℕ) :
    IsPart (leaseOf route owner ends).marker.text := by
  cases route with
  | none => exact (by decide : IsPart "lease")
  | some id =>
      have hid : IsPart id.text := isPart_of_range fun c hc => by
        have hhex := id.hex c hc
        omega
      exact (by decide : IsPart "route=").append hid

lemma isPart_leaseParts {route : Option RouteId} {cut : List Char} {ends : Option ℕ}
    (hcut : ∀ c ∈ cut, isOwnerChar c = true) :
    ∀ part ∈ leaseParts route cut ends, IsPart part := by
  have howner : IsPart ("by=" ++ String.ofList cut) := by
    refine (by decide : IsPart "by=").append (isPart_of_range fun c hc => ?_)
    have hrange := isOwnerChar_range (hcut c (by rwa [String.toList_ofList] at hc))
    omega
  intro part hpart
  rw [leaseParts.eq_def, List.mem_append, List.mem_append] at hpart
  rcases hpart with hpart | hpart | hpart
  · split_ifs at hpart
    · cases hpart
    · rw [List.mem_singleton.mp hpart]
      exact howner
  · cases route with
    | none => cases hpart
    | some id =>
        rw [List.mem_singleton.mp hpart]
        decide
  · cases ends with
    | none => cases hpart
    | some at_ =>
        rw [List.mem_singleton.mp hpart]
        exact (by decide : IsPart "until=").append (isPart_formatUntil at_)

lemma addPart_by (o : Ownership) {value : String} (hvalue : value ≠ "") :
    o.addPart ("by=" ++ value) = { o with owner := some value } := by
  have hkey : "by=" = "by" ++ String.singleton '=' := by decide
  have hsplit : splitOnce '=' ("by=" ++ value) = some ("by", value) := by
    rw [hkey]
    exact splitOnce_append (by decide)
  simp only [Ownership.addPart, hsplit, hvalue, ne_eq, not_false_eq_true, and_self, if_true]

lemma addPart_until (o : Ownership) (value : String) :
    o.addPart ("until=" ++ value) = { o with untilMs := parseUntil value } := by
  have hkey : "until=" = "until" ++ String.singleton '=' := by decide
  have hsplit : splitOnce '=' ("until=" ++ value) = some ("until", value) := by
    rw [hkey]
    exact splitOnce_append (by decide)
  have hother : ¬ ("until" = "by" ∧ value ≠ "") := by
    rintro ⟨hby, -⟩
    exact absurd hby (by decide)
  simp only [Ownership.addPart, hsplit, hother, if_false, if_true]

lemma addPart_lease (o : Ownership) : o.addPart "lease" = { o with lease := true } := by
  have hsplit : splitOnce '=' "lease" = none := by decide
  simp only [Ownership.addPart, hsplit, if_true]

/-- What the parts of a lease's comment say, one after the other. -/
lemma foldl_leaseParts (route : Option RouteId) (cut : List Char) (ends : Option ℕ)
    (o : Ownership) :
    (leaseParts route cut ends).foldl Ownership.addPart o =
      { o with
        owner := if cut = [] then o.owner else some (String.ofList cut)
        lease := o.lease || route.isSome
        untilMs := ends.elim o.untilMs fun at_ => parseUntil (formatUntil at_) } := by
  have howner : (if cut = [] then [] else ["by=" ++ String.ofList cut]).foldl Ownership.addPart o =
      { o with owner := if cut = [] then o.owner else some (String.ofList cut) } := by
    by_cases hcut : cut = []
    · rw [if_pos hcut, if_pos hcut, List.foldl_nil]
    · have hne : String.ofList cut ≠ "" := fun h => hcut (ofList_eq_empty.mp h)
      rw [if_neg hcut, if_neg hcut, List.foldl_cons, List.foldl_nil, addPart_by _ hne]
  rw [leaseParts.eq_def, List.foldl_append, List.foldl_append, howner]
  cases route with
  | none =>
      cases ends with
      | none => rw [List.foldl_nil, List.foldl_nil, Option.elim_none, Option.isSome_none, Bool.or_false]
      | some at_ =>
          rw [List.foldl_nil, List.foldl_cons, List.foldl_nil, addPart_until, Option.elim_some,
            Option.isSome_none, Bool.or_false]
  | some id =>
      cases ends with
      | none =>
          rw [List.foldl_nil, List.foldl_cons, List.foldl_nil, addPart_lease, Option.elim_none,
            Option.isSome_some, Bool.or_true]
      | some at_ =>
          rw [List.foldl_cons, List.foldl_nil, List.foldl_cons, List.foldl_nil, addPart_lease,
            addPart_until, Option.elim_some, Option.isSome_some, Bool.or_true]

/-- A lease's comment reads back, with the label as far as there was room for it. -/
lemma parse_render_leaseOf (route : Option RouteId) (owner : String) (ends : Option ℕ) :
    let cut := cutLabel (leaseOf route owner ends).room owner
    Ownership.parse (leaseOf route owner ends).render =
      some ⟨(leaseOf route owner ends).marker,
        if cut = [] then none else some (String.ofList cut), true,
        ends.bind fun at_ => parseUntil (formatUntil at_)⟩ := by
  intro cut
  set parts := (leaseOf route owner ends).marker.text :: leaseParts route cut ends with hparts
  have hpart : ∀ part ∈ parts, IsPart part := by
    intro part hmem
    rcases List.mem_cons.mp hmem with rfl | hmem
    · exact isPart_marker route owner ends
    · exact isPart_leaseParts cutLabel_chars part hmem
  have hspace : ∀ c ∈ (COMMENT_PREFIX ++ String.intercalate ";" parts).toList,
      isWhitespace c = false := by
    intro c hc
    rw [String.toList_append, String.toList_intercalate] at hc
    rcases List.mem_append.mp hc with hc | hc
    · exact IsPart.not_space (by decide : IsPart COMMENT_PREFIX) c hc
    · rcases mem_intercalate hc with rfl | ⟨l, hl, hcl⟩
      · decide
      · obtain ⟨part, hmem, rfl⟩ := List.mem_map.mp hl
        exact (hpart part hmem).not_space c hcl
  have hsep : ";" = String.singleton ';' := by decide
  have hsplit : split ';' (String.intercalate ";" parts) = parts := by
    rw [hsep]
    exact split_joined (by rw [hparts]; exact List.cons_ne_nil _ _) fun part hmem =>
      (hpart part hmem).not_mem
  have hmarker : Ownership.markerOf (leaseOf route owner ends).marker.text =
      (leaseOf route owner ends).marker := by
    cases route with
    | none => exact (by decide : Ownership.markerOf "lease" = .lease)
    | some id =>
        have hstrip : stripStart "route=" ("route=" ++ id.text) = some id.text :=
          stripStart_eq_some.mpr rfl
        show Ownership.markerOf ("route=" ++ id.text) = .route id.text
        rw [Ownership.markerOf, hstrip]
  have hlease : (decide ((leaseOf route owner ends).marker = .lease) || route.isSome) = true := by
    cases route <;> rfl
  have huntil : (ends.elim none fun at_ => parseUntil (formatUntil at_)) =
      ends.bind fun at_ => parseUntil (formatUntil at_) := by
    cases ends
    · rw [Option.elim_none, Option.bind_none]
    · rw [Option.elim_some, Option.bind_some]
  rw [render_leaseOf, Ownership.parse, trim_eq_self hspace, stripStart_eq_some.mpr rfl,
    Option.map_some, hsplit, hparts, Ownership.ofParts, foldl_leaseParts, hmarker, hlease, huntil]

/-! ## The prefix rule -/

/-- A label in lower case. -/
def lowerLabel (owner : String) : List Char :=
  (sanitizeOwner owner).toList.map Char.toLower

/-- The label as the comment holds it, in lower case. -/
def shortForm (room : ℕ) (owner : String) : List Char :=
  (cutLabel room owner).map Char.toLower

/-- The label as it is read back, in lower case. -/
def keptForm (room : ℕ) (owner : String) : List Char :=
  (keptLabel room owner).map Char.toLower

/-- Labels that the prefix rule takes for one. -/
def Alike (x y : List Char) : Prop :=
  x ≠ [] ∧ y ≠ [] ∧
    (x = y ∨ (SHORTENED ≤ x.length ∧ SHORTENED ≤ y.length ∧ (x <+: y ∨ y <+: x)))

instance (x y : List Char) : Decidable (Alike x y) :=
  inferInstanceAs (Decidable (_ ∧ _))

lemma Alike.symm {x y : List Char} (h : Alike x y) : Alike y x := by
  obtain ⟨hx, hy, hsame⟩ := h
  refine ⟨hy, hx, ?_⟩
  rcases hsame with hsame | ⟨hlx, hly, hbegins⟩
  · exact .inl hsame.symm
  · exact .inr ⟨hly, hlx, hbegins.symm⟩

lemma toLower_ascii {c : Char} (h : c.toNat < 128) : c.toLower.toNat < 128 := by
  unfold Char.toLower
  split
  · rename_i hupper
    have h90 : c.val.toNat ≤ 90 := UInt32.le_iff_toNat_le.mp hupper.2
    show (c.val + ('a'.val - 'A'.val)).toNat < 128
    rw [UInt32.toNat_add]
    have h32 : ('a'.val - 'A'.val).toNat = 32 := by decide
    omega
  · exact h

lemma startsWith_iff_prefix {p s : String} : StartsWith p s ↔ p.toList <+: s.toList := by
  rw [StartsWith, Option.isSome_iff_exists]
  constructor
  · rintro ⟨rest, hrest⟩
    exact ⟨rest, (stripList_eq_some.mp hrest).symm⟩
  · rintro ⟨rest, hrest⟩
    exact ⟨rest, stripList_eq_some.mpr hrest.symm⟩

lemma sameOwner_iff {a b : String} :
    sameOwner a b = true ↔ Alike (lowerLabel a) (lowerLabel b) := by
  have hlist : ∀ owner, (toAsciiLowercase (sanitizeOwner owner)).toList = lowerLabel owner :=
    fun owner => toList_toAsciiLowercase _
  have hsize : ∀ owner, (toAsciiLowercase (sanitizeOwner owner)).utf8ByteSize =
      (lowerLabel owner).length := by
    intro owner
    rw [← hlist]
    refine utf8ByteSize_ascii fun c hc => ?_
    rw [hlist] at hc
    obtain ⟨d, hd, rfl⟩ := List.mem_map.mp hc
    exact toLower_ascii (isOwnerChar_ascii ((isLabel_sanitizeOwner owner).chars d hd))
  have heq : ∀ x y, toAsciiLowercase (sanitizeOwner x) = toAsciiLowercase (sanitizeOwner y) ↔
      lowerLabel x = lowerLabel y := by
    intro x y
    rw [← hlist, ← hlist, String.toList_inj]
  have hempty : ∀ owner, toAsciiLowercase (sanitizeOwner owner) = "" ↔ lowerLabel owner = [] := by
    intro owner
    rw [← hlist, ← String.toList_inj]
    rfl
  -- the shorter one is compared with the longer one
  have hrule : ∀ x y, (lowerLabel x).length ≤ (lowerLabel y).length →
      ((lowerLabel x ≠ [] ∧ (lowerLabel x = lowerLabel y ∨
        (SHORTENED ≤ (lowerLabel x).length ∧ lowerLabel x <+: lowerLabel y))) ↔
      Alike (lowerLabel x) (lowerLabel y)) := by
    intro x y hle
    constructor
    · rintro ⟨hne, hsame⟩
      refine ⟨hne, fun hy => hne ?_, ?_⟩
      · rw [hy, List.length_nil] at hle
        exact List.length_eq_zero_iff.mp (Nat.le_zero.mp hle)
      · rcases hsame with hsame | ⟨hlong, hbegins⟩
        · exact .inl hsame
        · exact .inr ⟨hlong, hlong.trans hle, .inl hbegins⟩
    · rintro ⟨hx, -, hsame⟩
      refine ⟨hx, ?_⟩
      rcases hsame with hsame | ⟨hlong, -, hbegins | hbegins⟩
      · exact .inl hsame
      · exact .inr ⟨hlong, hbegins⟩
      · exact .inl (hbegins.eq_of_length_le hle).symm
  simp only [sameOwner, hsize]
  split_ifs with hle
  · simp only [Bool.and_eq_true, Bool.or_eq_true, decide_eq_true_eq, ne_eq, hempty, heq, hsize,
      startsWith_iff_prefix, hlist]
    exact hrule a b hle
  · simp only [Bool.and_eq_true, Bool.or_eq_true, decide_eq_true_eq, ne_eq, hempty, heq, hsize,
      startsWith_iff_prefix, hlist]
    exact (hrule b a (not_le.mp hle).le).trans ⟨Alike.symm, Alike.symm⟩

/-- Labels that are the same as far as a comment has room for them. -/
def SameLabel (room : ℕ) (a b : String) : Prop :=
  shortForm room a = shortForm room b

/-- The label is written, but what is read back is nothing, or too short to be known again. -/
def Lost (room : ℕ) (a b : String) : Prop :=
  keptForm room a = [] ∨ (keptForm room a ≠ lowerLabel b ∧ (keptForm room a).length < SHORTENED)

/-- What is read back is `b`'s label, or one of the two begins the other. -/
def Mistaken (room : ℕ) (a b : String) : Prop :=
  keptForm room a ≠ [] ∧ (keptForm room a = lowerLabel b ∨
    (SHORTENED ≤ (keptForm room a).length ∧ SHORTENED ≤ (lowerLabel b).length ∧
      (keptForm room a <+: lowerLabel b ∨ lowerLabel b <+: keptForm room a)))

/-- The prefix rule agrees with the labels unless the same one is lost or another is mistaken. -/
lemma alike_iff_sameLabel {room : ℕ} {a b : String} :
    (Alike (keptForm room a) (lowerLabel b) ↔ SameLabel room a b) ↔
      (SameLabel room a b → ¬ Lost room a b) ∧ (¬ SameLabel room a b → ¬ Mistaken room a b) := by
  by_cases hsame : SameLabel room a b
  · have hkept : keptForm room a <+: lowerLabel b := by
      have hcut : keptForm room a <+: shortForm room a :=
        List.IsPrefix.map _ (List.rdropWhile_prefix _ _)
      have htake : shortForm room b <+: lowerLabel b := List.IsPrefix.map _ (List.take_prefix _ _)
      rw [SameLabel] at hsame
      exact (hsame ▸ hcut).trans htake
    have hne : keptForm room a ≠ [] → lowerLabel b ≠ [] := by
      intro hk hb
      rw [hb] at hkept
      exact hk (List.prefix_nil.mp hkept)
    simp only [hsame, iff_true, true_imp_iff, not_true_eq_false, false_imp_iff, and_true]
    constructor
    · rintro ⟨hk, -, halike⟩ hlost
      rcases hlost with hnil | ⟨hother, hshort⟩
      · exact hk hnil
      · rcases halike with heq | ⟨hlong, -⟩
        · exact hother heq
        · omega
    · intro hlost
      have hk : keptForm room a ≠ [] := fun hnil => hlost (.inl hnil)
      refine ⟨hk, hne hk, ?_⟩
      by_cases heq : keptForm room a = lowerLabel b
      · exact .inl heq
      · have hlong : SHORTENED ≤ (keptForm room a).length :=
          not_lt.mp fun hshort => hlost (.inr ⟨heq, hshort⟩)
        exact .inr ⟨hlong, hlong.trans hkept.length_le, .inl hkept⟩
  · simp only [hsame, iff_false, false_imp_iff, true_and, not_false_eq_true, true_imp_iff, not_iff_not]
    constructor
    · rintro ⟨hk, -, halike⟩
      exact ⟨hk, halike⟩
    · rintro ⟨hk, halike⟩
      refine ⟨hk, fun hb => ?_, halike⟩
      rcases halike with heq | ⟨-, hlong, -⟩
      · exact hk (heq.trans hb)
      · rw [hb] at hlong
        exact absurd hlong (by decide)

/-! ## Owners told apart -/

/-- Whether the owner that a comment names is `b`. -/
def Ownership.isOf (o : Ownership) (b : String) : Bool :=
  o.owner.any fun owner => sameOwner owner b

/-- What `leaseOf` reads back as is `b`'s when the label read back is like `b`'s. -/
lemma isOf_iff {room : ℕ} {a b : String} {o : Ownership}
    (h : o.owner = if cutLabel room a = [] then none else some (String.ofList (cutLabel room a))) :
    o.isOf b = true ↔ Alike (keptForm room a) (lowerLabel b) := by
  rw [Ownership.isOf, h]
  by_cases hcut : cutLabel room a = []
  · have hkept : keptForm room a = [] := by
      rw [keptForm, keptLabel, hcut]
      rfl
    rw [if_pos hcut, Option.any_none]
    exact iff_of_false Bool.false_ne_true fun halike => halike.1 hkept
  · have hlabel : lowerLabel (String.ofList (cutLabel room a)) = keptForm room a := by
      rw [lowerLabel, sanitizeOwner_cut, String.toList_ofList, keptForm]
    rw [if_neg hcut, Option.any_some, sameOwner_iff, hlabel]

/-- A live lease holds its name for everyone but its owner, through no tunnel of theirs. -/
lemma heldByOther_isSome_iff {record : DnsRecord} {me : Me} {read : Ownership}
    (hread : record.comment.bind Ownership.parse = some read) (hlive : read.leasedAt me.now = true)
    (helse : read.marker.isRoute = true → ∀ tunnel,
      tunnelOf (toAsciiLowercase record.content) = some tunnel → tunnel ∉ me.tunnels) :
    (heldByOther record me).isSome = true ↔ ¬ read.isOf me.owner = true := by
  simp only [heldByOther, hread, Option.bind_eq_bind, Option.bind_some]
  have hrest : (if (read.leasedAt me.now && !read.isOf me.owner) = true then
      some (⟨toAsciiLowercase record.name, read.owner, read.untilMs, .reservation⟩ : Hold)
      else none).isSome = true ↔ ¬ read.isOf me.owner = true := by
    rw [hlive, Bool.true_and]
    cases read.isOf me.owner <;> simp
  cases hmarker : read.marker with
  | lease => exact hrest
  | other head => exact hrest
  | route id =>
      cases htunnel : tunnelOf (toAsciiLowercase record.content) with
      | none => exact hrest
      | some tunnel =>
          have hnot : me.tunnels.contains tunnel = false := by
            rw [← Bool.not_eq_true, List.contains_iff_mem]
            exact helse (by rw [hmarker]; rfl) tunnel htunnel
          show (if (me.tunnels.contains tunnel || read.isOf me.owner) = true then none
            else some _).isSome = true ↔ _
          rw [hnot, Bool.false_or]
          cases read.isOf me.owner <;> simp

/-- Whoever reads the comment of a lease of `a`'s takes it for `b`'s exactly when `a` and `b` have
one label, so that it holds its name for `b` exactly when they do not. -/
def ToldApart (route : Option RouteId) (a b : String) (ends : Option ℕ) : Prop :=
  let lease := leaseOf route a ends
  ∃ read, Ownership.parse lease.render = some read ∧
    (read.isOf b = true ↔ SameLabel lease.room a b) ∧
    ∀ (record : DnsRecord) (tunnels : List String) (now : ℕ),
      record.comment = some lease.render → read.leasedAt now = true →
      (route.isSome = true → ∀ tunnel,
        tunnelOf (toAsciiLowercase record.content) = some tunnel → tunnel ∉ tunnels) →
      ((heldByOther record ⟨b, tunnels, now⟩).isSome = true ↔ ¬ SameLabel lease.room a b)

/-- Reservations tell owners apart, except for a label that is lost at the cut and for labels of
which one begins the other. -/
theorem lease_toldApart_iff (route : Option RouteId) (a b : String) (ends : Option ℕ) :
    ToldApart route a b ends ↔
      (SameLabel (leaseOf route a ends).room a b → ¬ Lost (leaseOf route a ends).room a b) ∧
      (¬ SameLabel (leaseOf route a ends).room a b →
        ¬ Mistaken (leaseOf route a ends).room a b) := by
  have hread := parse_render_leaseOf route a ends
  refine Iff.trans ⟨?_, ?_⟩ alike_iff_sameLabel
  · rintro ⟨read, hparse, howner, -⟩
    have hsome := Option.some.inj (hread.symm.trans hparse)
    exact (isOf_iff (by rw [← hsome])).symm.trans howner
  · intro halike
    refine ⟨_, hread, (isOf_iff rfl).trans halike, fun record tunnels now hcomment hlive helse => ?_⟩
    refine (heldByOther_isSome_iff (by rw [hcomment, Option.bind_some, hread]) hlive ?_).trans
      (not_congr ((isOf_iff rfl).trans halike))
    intro hroute
    refine helse ?_
    cases route with
    | none => cases hroute
    | some id => rfl

/-- Two build machines of which one name begins the other are taken for one. -/
theorem lease_not_toldApart :
    ¬ ToldApart none "ci-runner@build-machine-01" "ci-runner@build-machine-012" none := by
  rintro ⟨read, hparse, howner, -⟩
  have hread := parse_render_leaseOf none "ci-runner@build-machine-01" none
  have hsome := Option.some.inj (hread.symm.trans hparse)
  have hroom : (leaseOf none "ci-runner@build-machine-01" none).room = 81 := by decide
  have halike := (isOf_iff (by rw [← hsome])).symm.trans howner
  rw [hroom, SameLabel] at halike
  have hother : shortForm 81 "ci-runner@build-machine-01" ≠
      shortForm 81 "ci-runner@build-machine-012" := by decide
  have hlike : Alike (keptForm 81 "ci-runner@build-machine-01")
      (lowerLabel "ci-runner@build-machine-012") := by decide
  exact hother (halike.mp hlike)

end Teitunnel
