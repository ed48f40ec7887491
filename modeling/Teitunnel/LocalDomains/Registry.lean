import Teitunnel.LocalDomains.Name

/-!
# Local domains

The domains of this computer, and the three that are asked about a name: the registry (which
requests are routed and certificates issued by), the certificate, and the DNS responder for
`.test`.
-/

namespace Teitunnel.LocalDomains

open Text

/-- What a local domain points at. -/
inductive DomainTarget where
  | share (id : String)
  | route (id : String)
  | port (port : ℕ)
  | url (url : String)
  deriving DecidableEq

/-- Longest accepted share or route id. -/
def MAX_ID_LEN : ℕ := 128

/-- Longest accepted target URL. -/
def MAX_URL_LEN : ℕ := 2048

/-- A local domain. -/
structure LocalDomain where
  name : LocalName
  target : DomainTarget
  /-- One level of subdomains goes to the same target. -/
  wildcard : Bool
  createdAt : ℤ

/-- Why a domain was refused. -/
inductive RegistryError where
  | suffixNotEnabled (suffix : Suffix)
  | duplicate (name : LocalName)
  | invalidTarget (reason : String)
  deriving DecidableEq

/-- What is wrong with the URL of a target. -/
def targetUrlError (url : String) : Option String :=
  match (stripStart "http://" url).or (stripStart "https://" url) with
  | none => some "the URL must start with http:// or https://"
  | some rest =>
      let authority := if EndsWith "/" rest then String.ofList rest.toList.dropLast else rest
      if MAX_URL_LEN < url.utf8ByteSize then some "URL too long"
      else if url.toList.any fun c => isWhitespace c || isControl c then
        some "the URL has spaces or control characters"
      else if authority = "" then some "the URL has no host"
      else if authority.toList.any fun c => c ∈ ['/', '?', '#', '@'] then
        some "the URL can't have a path, query or credentials"
      else none

/-- What is wrong with a target. -/
def targetError : DomainTarget → Option String
  | .share id | .route id =>
      if trim id = "" then some "empty id"
      else if MAX_ID_LEN < id.utf8ByteSize then some "id too long"
      else none
  | .port port => if port = 0 then some "port 0" else none
  | .url url => targetUrlError url

/-- The local domains: of enabled suffixes, each name once. -/
structure DomainRegistry where
  enabled : List Suffix
  domains : List LocalDomain
  enabled_suffix : ∀ domain ∈ domains, domain.name.suffix ∈ enabled
  nodup : (domains.map LocalDomain.name).Nodup

/-- How a host matched a domain. -/
structure HostMatch where
  domain : LocalDomain
  viaWildcard : Bool

/-- What certificate to serve: a name, and whether its wildcard is included. -/
structure CertRequest where
  name : LocalName
  wildcard : Bool

/-- The subject names of the certificate. -/
def CertRequest.sans (request : CertRequest) : List String :=
  request.name.asStr :: if request.wildcard then [request.name.wildcard] else []

/-- A host without the port at its end, if it has one. -/
def stripPort (host : String) : String :=
  match rsplitOnce ':' host with
  | some (name, port) => if port ≠ "" && port.toList.all Char.isDigit then name else host
  | none => host

namespace DomainRegistry

/-- An empty registry. -/
def new (enabled : List Suffix) : DomainRegistry where
  enabled
  domains := []
  enabled_suffix _ h := absurd h List.not_mem_nil
  nodup := List.nodup_nil

/-- The domain with exactly this name. -/
def get (registry : DomainRegistry) (name : LocalName) : Option LocalDomain :=
  registry.domains.find? fun domain => domain.name = name

/-- Checks a domain against the rules and the existing domains. -/
def validate (registry : DomainRegistry) (domain : LocalDomain) : Except RegistryError Unit :=
  if domain.name.suffix ∉ registry.enabled then .error (.suffixNotEnabled domain.name.suffix)
  else match targetError domain.target with
    | some reason => .error (.invalidTarget reason)
    | none =>
        if (registry.get domain.name).isSome then .error (.duplicate domain.name) else .ok ()

lemma validate_eq_ok {registry : DomainRegistry} {domain : LocalDomain}
    (h : registry.validate domain = .ok ()) :
    domain.name.suffix ∈ registry.enabled ∧ domain.name ∉ registry.domains.map LocalDomain.name := by
  rw [validate] at h
  by_cases hsuffix : domain.name.suffix ∈ registry.enabled
  · refine ⟨hsuffix, fun hmem => ?_⟩
    obtain ⟨other, hother, hname⟩ := List.mem_map.mp hmem
    have hduplicate : (registry.get domain.name).isSome = true := by
      rw [get, List.find?_isSome]
      exact ⟨other, hother, decide_eq_true hname⟩
    rw [if_neg (not_not.mpr hsuffix), if_pos hduplicate] at h
    split at h <;> cases h
  · rw [if_pos hsuffix] at h
    cases h

/-- A validated domain is put to the others. -/
def insert (registry : DomainRegistry) (domain : LocalDomain)
    (h : registry.validate domain = .ok ()) : DomainRegistry where
  enabled := registry.enabled
  domains := registry.domains ++ [domain]
  enabled_suffix other hother := by
    rcases List.mem_append.mp hother with hold | hnew
    · exact registry.enabled_suffix other hold
    · rw [List.mem_singleton.mp hnew]
      exact (validate_eq_ok h).1
  nodup := by
    rw [List.map_append, List.map_singleton, List.nodup_append]
    refine ⟨registry.nodup, List.nodup_singleton _, ?_⟩
    rintro name hname _ hlast rfl
    rw [List.mem_singleton.mp hlast] at hname
    exact (validate_eq_ok h).2 hname

/-- Adds a domain. -/
def add (registry : DomainRegistry) (domain : LocalDomain) : Except RegistryError DomainRegistry :=
  match h : registry.validate domain with
  | .error err => .error err
  | .ok () => .ok (registry.insert domain h)

/-- A registry from stored domains. -/
def fromDomains (enabled : List Suffix) (domains : List LocalDomain) :
    Except RegistryError DomainRegistry :=
  domains.foldlM add (new enabled)

/-- The others. -/
def without (registry : DomainRegistry) (name : LocalName) : DomainRegistry where
  enabled := registry.enabled
  domains := registry.domains.filter fun domain => domain.name ≠ name
  enabled_suffix domain hdomain := registry.enabled_suffix domain (List.mem_of_mem_filter hdomain)
  nodup := registry.nodup.sublist (List.filter_sublist.map _)

/-- Removes a domain, and says which. -/
def remove (registry : DomainRegistry) (name : LocalName) : Option LocalDomain × DomainRegistry :=
  (registry.get name, registry.without name)

/-- Replaces a domain of the same name, unless the new one is refused; says which. -/
def update (registry : DomainRegistry) (domain : LocalDomain) :
    Except RegistryError (Option LocalDomain × DomainRegistry) :=
  ((registry.without domain.name).add domain).map (registry.get domain.name, ·)

/-- The domain serving `host`, an exact name before a wildcard above it. -/
def lookup (registry : DomainRegistry) (host : String) : Option HostMatch :=
  match LocalName.parse (stripPort host) registry.enabled with
  | .error _ => none
  | .ok name =>
      match registry.get name with
      | some domain => some { domain, viaWildcard := false }
      | none =>
          ((name.parent.bind registry.get).filter LocalDomain.wildcard).map fun domain =>
            { domain, viaWildcard := true }

/-- The certificate to serve for a name, if a domain covers it. -/
def certRequest (registry : DomainRegistry) (sni : String) : Option CertRequest :=
  (registry.lookup sni).map fun m => { name := m.domain.name, wildcard := m.domain.wildcard }

/-- Domains with the given suffix. -/
def withSuffix (registry : DomainRegistry) (suffix : Suffix) : List LocalDomain :=
  registry.domains.filter fun domain => domain.name.suffix = suffix

end DomainRegistry

/-! ## The DNS responder -/

/-- The names that the responder answers for, with the last word for each. -/
structure DnsZone where
  names : List (LocalName × Bool)

namespace DnsZone

/-- A zone of these names; those not under `.test` are left out. -/
def set (names : List (LocalName × Bool)) : DnsZone where
  names := names.filter fun entry => entry.1.suffix = .test

/-- Whether the wildcard of a name is on, for a name of the zone. -/
def get (zone : DnsZone) (name : LocalName) : Option Bool :=
  (zone.names.reverse.find? fun entry => entry.1 = name).map Prod.snd

/-- Whether a name is served. -/
def contains (zone : DnsZone) (name : LocalName) : Bool :=
  (zone.get name).isSome || name.parent.any fun parent => (zone.get parent).getD false

end DnsZone

inductive RecordType where
  | a
  | aaaa
  | any
  | other (code : ℕ)
  deriving DecidableEq

inductive ResponseCode where
  | noError
  | formErr
  | nxDomain
  | notImp
  | refused
  deriving DecidableEq

/-- A question: a name in its ASCII form, a type, and whether it is of the Internet class. -/
structure Query where
  name : String
  type : RecordType
  isIn : Bool

/-- A DNS message that was read. -/
structure Request where
  id : ℕ
  isQuery : Bool
  /-- 0 for a standard query. -/
  opCode : ℕ
  recursionDesired : Bool
  edns : Bool
  queries : List Query

/-- An address of this computer. -/
inductive Loopback where
  | v4
  | v6
  deriving DecidableEq

structure Response where
  id : ℕ
  opCode : ℕ
  recursionDesired : Bool := false
  /-- The largest payload, if the request has EDNS. -/
  edns : Option ℕ := none
  code : ResponseCode := .noError
  authoritative : Bool := false
  queries : List Query := []
  /-- Each with its owner and its time to live. -/
  answers : List (String × ℕ × Loopback) := []

def TTL : ℕ := 5

def EDNS_PAYLOAD : ℕ := 1232

/-- The records that a known name has of a type. -/
def addresses (owner : String) : RecordType → List (String × ℕ × Loopback)
  | .a => [(owner, TTL, .v4)]
  | .aaaa => [(owner, TTL, .v6)]
  | .any => [(owner, TTL, .v4), (owner, TTL, .v6)]
  | .other _ => []

/-- The last label of a name in its ASCII form is `test`. -/
def isInZone (qname : String) : Bool :=
  (split '.' (trimEnd (· == '.') qname)).getLast?.any fun tld => SameText tld Suffix.test.asStr

/-- Whether the zone has the name that is asked for. -/
def DnsZone.knows (zone : DnsZone) (qname : String) : Bool :=
  match LocalName.parse qname [.test] with
  | .ok name => zone.contains name
  | .error _ => false

/-- The answer to a question, put into a response without answers. -/
def replyTo (zone : DnsZone) (response : Response) (query : Query) : Response :=
  let response := { response with queries := [query] }
  if !isInZone query.name || !query.isIn then { response with code := .refused }
  else
    let response := { response with authoritative := true }
    if !zone.knows query.name then { response with code := .nxDomain }
    else { response with answers := addresses query.name query.type }

/-- The response to a request, before anything is found out. -/
def Request.response (request : Request) : Response where
  id := request.id
  opCode := request.opCode
  recursionDesired := request.recursionDesired
  edns := if request.edns then some EDNS_PAYLOAD else none

/-- The answer to a request. -/
def reply (zone : DnsZone) (request : Request) : Response :=
  if !request.isQuery || request.opCode ≠ 0 then { request.response with code := .notImp }
  else match request.queries with
    | [query] => replyTo zone request.response query
    | _ => { request.response with code := .formErr }

/-- Answers one DNS message; none to responses and to what is too short to have an id. -/
def answer (fromVec : List UInt8 → Option Request) (zone : DnsZone) (packet : List UInt8) :
    Option Response :=
  if packet.length < 12 || packet.getD 2 0 &&& 0x80 ≠ 0 then none
  else match fromVec packet with
    | none => some
        { id := (packet.getD 0 0).toNat * 256 + (packet.getD 1 0).toNat, opCode := 0,
          code := .formErr }
    | some request => some (reply zone request)

end Teitunnel.LocalDomains
