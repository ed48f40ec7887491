import Teitunnel.LocalDomains.Registry

/-!
# Local names agree

The registry, the certificates and the DNS responder each decide about a name on their own.  All
three come to whether a domain serves it: the domain of that name, or one with a wildcard that the
name is one label below.
-/

namespace Teitunnel.LocalDomains

open Text

/-- A domain serves its name and, with a wildcard, the names one label below. -/
def LocalDomain.Serves (domain : LocalDomain) (name : LocalName) : Prop :=
  domain.name = name ∨ domain.wildcard = true ∧ name.parent = some domain.name

/-- The name that a host asks for: without port and the dot at its end, in lower case. -/
def asked (host : String) : String := toAsciiLowercase (stripDot (stripPort host))

/-- A name has one label more than the name above it. -/
lemma LocalName.split_parent {name up : LocalName} (h : name.parent = some up) :
    ∃ label, '.' ∉ label.toList ∧ name.asStr = label ++ "." ++ up.asStr ∧
      split '.' name.asStr = label :: split '.' up.asStr := by
  obtain ⟨label, hlabel, hname⟩ := parent_eq_some.mp h
  refine ⟨label, hlabel, hname, ?_⟩
  rw [hname]
  exact split_append hlabel

lemma LocalName.suffix_parent {name up : LocalName} (h : name.parent = some up) :
    up.suffix = name.suffix := by
  obtain ⟨label, -, -, hsplit⟩ := split_parent h
  have hlast := name.valid.last
  rw [hsplit, List.getLast?_cons_of_ne_nil (split_ne_nil '.' _), up.valid.last,
    Option.some_inj] at hlast
  exact Option.some.inj ((Suffix.of_asStr _).symm.trans ((congrArg Suffix.of hlast).trans
    (Suffix.of_asStr _)))

lemma LocalDomain.Serves.suffix {domain : LocalDomain} {name : LocalName} (h : domain.Serves name) :
    domain.name.suffix = name.suffix := by
  rcases h with rfl | ⟨-, hparent⟩
  · rfl
  · exact LocalName.suffix_parent hparent

/-! ## The registry -/

namespace DomainRegistry

variable {registry : DomainRegistry}

/-- The names of the registry that the responder is given. -/
def zone (registry : DomainRegistry) : DnsZone :=
  DnsZone.set ((registry.withSuffix .test).map fun domain => (domain.name, domain.wildcard))

end DomainRegistry

/-! ## The name that is asked for -/

/-- The name, as it is, is under `.test`. -/
def UnderTest (qname : String) : Prop := EndsWith ".test" (toAsciiLowercase (stripDot qname))

lemma LocalName.endsWith_suffix (name : LocalName) :
    EndsWith ("." ++ name.suffix.asStr) name.asStr := by
  rcases getLast?_split name.valid.last with heq | ⟨front, heq⟩
  · exact absurd (congrArg String.utf8ByteSize heq) name.valid.front
  · have hdot : front ++ String.singleton '.' ++ name.suffix.asStr =
        front ++ ("." ++ name.suffix.asStr) := String.append_assoc
    rw [EndsWith, heq, hdot, String.toList_append (s := front)]
    exact List.suffix_append _ _

/-- A question for an address of a name, as the responder reads it. -/
structure AsksFor (fromVec : List UInt8 → Option Request) (packet : List UInt8) (query : Query) :
    Prop where
  long : 12 ≤ packet.length
  isRequest : packet.getD 2 0 &&& 0x80 = 0
  read : ∃ request, fromVec packet = some request ∧ request.isQuery = true ∧ request.opCode = 0 ∧
    request.queries = [query]
  isIn : query.isIn = true
  address : query.type = .a ∨ query.type = .aaaa ∨ query.type = .any

variable {fromVec : List UInt8 → Option Request} {registry : DomainRegistry}

/-- A subject name covers the name that it is, and as a wildcard those one label below. -/
def Covers (san name : String) : Prop :=
  san = name ∨ ∃ label rest, label ≠ "" ∧ '.' ∉ label.toList ∧ san = "*." ++ rest ∧
    name = label ++ "." ++ rest

/-- The name is under the suffix of a domain. -/
def Inside (registry : DomainRegistry) (name : String) : Prop :=
  ∃ domain ∈ registry.domains, EndsWith ("." ++ domain.name.suffix.asStr) name

/-- The registry, the certificates and the responder agree. -/
structure Agree (registry : DomainRegistry) (fromVec : List UInt8 → Option Request) : Prop where
  /-- A domain is found iff a certificate is issued, which is for the name. -/
  certified : ∀ host, (registry.lookup host).isSome ↔ (registry.certRequest host).isSome
  covered : ∀ host request, registry.certRequest host = some request →
    ∃ san ∈ request.sans, Covers san (asked host)
  /-- No certificate is for a name that isn't found. -/
  covers_found : ∀ host request, registry.certRequest host = some request →
    ∀ san ∈ request.sans, ∀ name : LocalName, Covers san name.asStr →
      (registry.lookup name.asStr).isSome
  /-- A name under `.test` has an address iff a domain is found. -/
  answered : ∀ packet query, AsksFor fromVec packet query → UnderTest query.name →
    ((∃ response, answer fromVec registry.zone packet = some response ∧ response.answers ≠ []) ↔
      (registry.lookup query.name).isSome)
  /-- The domain of a name comes before any wildcard. -/
  exact_first : ∀ domain ∈ registry.domains, ∀ host, asked host = domain.name.asStr →
    registry.lookup host = some { domain, viaWildcard := false } ∧
      registry.certRequest host = some { name := domain.name, wildcard := domain.wildcard } ∧
      ∀ packet query, AsksFor fromVec packet query → query.name = host → UnderTest host →
        ∃ response, answer fromVec registry.zone packet = some response ∧ response.answers ≠ []
  /-- Nothing outside the suffixes of the domains is found, certified or answered. -/
  inside : ∀ host, (registry.lookup host).isSome → Inside registry (asked host)
  answers_inside : ∀ packet response, answer fromVec registry.zone packet = some response →
    response.answers ≠ [] → ∃ query, response.queries = [query] ∧
      Inside registry (toAsciiLowercase (stripDot query.name))
  /-- Case, a dot at the end and a port make no difference. -/
  spelling : ∀ name, ':' ∉ name.toList →
    (∀ other, SameText other name → registry.lookup other = registry.lookup name) ∧
    (name.toList.getLast? ≠ some '.' → registry.lookup (name ++ ".") = registry.lookup name) ∧
    ∀ port, port ≠ "" → port.toList.all Char.isDigit = true →
      registry.lookup (name ++ ":" ++ port) = registry.lookup name

/-! ## Spellings -/

lemma rsplitOnce_none {c : Char} {s : String} (h : c ∉ s.toList) : rsplitOnce c s = none := by
  cases hcut : rsplitOnce c s with
  | none => rfl
  | some pieces =>
      refine absurd ?_ h
      rw [rsplitOnce_eq hcut]
      simp

lemma stripPort_of_not_mem {name : String} (h : ':' ∉ name.toList) : stripPort name = name := by
  rw [stripPort, rsplitOnce_none h]

lemma LocalName.char (name : LocalName) {c : Char} (hc : c ∈ name.asStr.toList) :
    c = '.' ∨ isLabelChar c = true := by
  rw [← name.asStr.toList.intercalate_splitOn '.'] at hc
  rcases mem_intercalate hc with hdot | ⟨label, hlabel, hmem⟩
  · exact .inl hdot
  · have hvalid := name.valid.labels (String.ofList label) (List.mem_map_of_mem hlabel)
    rw [String.toList_ofList] at hvalid
    exact .inr (List.all_eq_true.mp hvalid.2.2.1 c hmem)

/-- A local name asks for itself. -/
lemma LocalName.asked (name : LocalName) : LocalDomains.asked name.asStr = name.asStr := by
  have hcolon : ':' ∉ name.asStr.toList := by
    intro hmem
    rcases name.char hmem with h | h
    · exact absurd h (by decide)
    · exact absurd h (by decide)
  have hlast : name.asStr.toList.getLast? ≠ some '.' := by
    intro hdot
    obtain ⟨front, hfront⟩ := name.endsWith_suffix
    rw [← hfront] at hdot
    cases hsuffix : name.suffix <;> rw [hsuffix] at hdot <;>
      rw [List.getLast?_append_of_ne_nil _ (by decide)] at hdot <;> exact absurd hdot (by decide)
  have hlower : toAsciiLowercase name.asStr = name.asStr := by
    refine String.toList_injective ?_
    rw [toList_toAsciiLowercase]
    refine (List.map_congr_left fun c hc => ?_).trans (List.map_id _)
    rcases toLower_cases c with hsame | ⟨hrange, -⟩
    · exact hsame
    · exfalso
      rcases name.char hc with rfl | hlabel
      · exact absurd hrange (by decide)
      · have hcases : ((97 ≤ c.toNat ∧ c.toNat ≤ 122) ∨ 48 ≤ c.toNat ∧ c.toNat ≤ 57) ∨ c = '-' := by
          simpa [isLabelChar, Char.le_def, UInt32.le_iff_toNat_le] using hlabel
        rcases hcases with (hletter | hdigit) | rfl
        · omega
        · omega
        · exact absurd hrange (by decide)
  rw [LocalDomains.asked, stripPort_of_not_mem hcolon, stripDot, if_neg hlast, hlower]

end Teitunnel.LocalDomains
