import Teitunnel.CfApi

/-!
# Who holds a hostname

Every DNS record written carries a comment: the route or the reservation it stands for, the
owner who wrote it, and the lease it carries.

```
teitunnel:route=<route id>[;by=<owner>][;lease][;until=<YYYY-MM-DDTHH:MMZ>]
teitunnel:lease[;by=<owner>][;until=<YYYY-MM-DDTHH:MMZ>]
```
-/

namespace Teitunnel

open Text

/-- The longest DNS record comment. -/
def MAX_COMMENT : ℕ := 100
/-- The placeholder's address: the IPv6 discard prefix. -/
def LEASE_ADDRESS : String := "100::"
/-- The placeholder's record type. -/
def LEASE_KIND : String := "AAAA"
/-- What every comment written starts with. -/
def COMMENT_PREFIX : String := "teitunnel:"
def MAX_OWNER : ℕ := 40

/-! ## Times -/

/-- `n` in decimal, with zeros in front up to `width` characters. -/
def padded (width n : ℕ) : String :=
  String.ofList (List.replicate (width - (toString n).length) '0') ++ toString n

def daysInMonth (year month : ℕ) : ℕ :=
  match month with
  | 2 => if (year % 4 = 0 ∧ year % 100 ≠ 0) ∨ year % 400 = 0 then 29 else 28
  | 4 | 6 | 9 | 11 => 30
  | _ => 31

/-- Days since 1970-01-01. -/
def daysFromCivil (year month day : ℕ) : ℕ :=
  let y := if month ≤ 2 then year - 1 else year
  let era := y / 400
  let yoe := y - era * 400
  let doy := (153 * (if month > 2 then month - 3 else month + 9) + 2) / 5 + day - 1
  let doe := yoe * 365 + yoe / 4 - yoe / 100 + doy
  era * 146097 + doe - 719468

/-- Year, month and day of a number of days since 1970-01-01. -/
def civilFromDays (days : ℕ) : ℕ × ℕ × ℕ :=
  let z := days + 719468
  let era := z / 146097
  let doe := z - era * 146097
  let yoe := (doe - doe / 1460 + doe / 36524 - doe / 146096) / 365
  let doy := doe - (365 * yoe + yoe / 4 - yoe / 100)
  let mp := (5 * doy + 2) / 153
  let day := doy - (153 * mp + 2) / 5 + 1
  let month := if mp < 10 then mp + 3 else mp - 9
  (yoe + era * 400 + (if month ≤ 2 then 1 else 0), month, day)

/-- `2026-12-31T00:00Z` for milliseconds since the epoch (UTC, minutes). -/
def formatUntil (ms : ℕ) : String :=
  let minutes := ms / 60000
  let (year, month, day) := civilFromDays (minutes / (24 * 60))
  let rest := minutes % (24 * 60)
  padded 4 year ++ "-" ++ padded 2 month ++ "-" ++ padded 2 day ++ "T" ++
    padded 2 (rest / 60) ++ ":" ++ padded 2 (rest % 60) ++ "Z"

/-- A decimal number, with an optional `+`. -/
def parseNumber (s : String) : Option ℕ :=
  let digits := match s.toList with
    | '+' :: rest => rest
    | l => l
  if digits ≠ [] ∧ digits.all Char.isDigit then
    some (digits.foldl (fun n c => 10 * n + (c.toNat - '0'.toNat)) 0)
  else none

/-- A number is read from digits. -/
lemma parseNumber_eq {text : String} (hne : text.toList ≠ [])
    (hdigits : ∀ c ∈ text.toList, c.isDigit = true) :
    parseNumber text = some (Nat.ofDigitChars 10 text.toList 0) := by
  unfold parseNumber
  generalize text.toList = l at hne hdigits
  dsimp only
  split
  · exact absurd (hdigits '+' List.mem_cons_self) (by decide)
  · rw [if_pos ⟨hne, List.all_eq_true.mpr hdigits⟩, Nat.ofDigitChars_eq_foldl]

lemma parseNumber_toString (n : ℕ) : parseNumber (toString n) = some n := by
  have hlist : (toString n).toList = Nat.toDigits 10 n := Nat.toList_repr
  rw [parseNumber_eq, hlist, Nat.ofDigitChars_ten_toDigits]
  · rw [hlist]
    exact Nat.toDigits_ne_nil
  · rw [hlist]
    exact fun c hc => Nat.isDigit_of_mem_toDigits (by decide) (by decide) hc

/-- The seconds of `HH:MM` or `HH:MM:SS`. -/
def parseTime (time : String) : Option ℕ := do
  let parts := split ':' (trimEnd (fun c => c == 'Z' || c == 'z') time)
  let (hours, minutes, secs) ← match parts with
    | [h, m] => some (h, m, "0")
    | [h, m, s] => some (h, m, s)
    | _ => none
  let hours ← parseNumber hours
  let minutes ← parseNumber minutes
  let secs ← parseNumber secs
  if hours > 23 ∨ minutes > 59 ∨ secs > 59 then none
  else some (hours * 3600 + minutes * 60 + secs)

/-- Reads `YYYY-MM-DD`, `YYYY-MM-DDTHH:MMZ` or `YYYY-MM-DDTHH:MM:SSZ` (UTC) as milliseconds
since the epoch.  A bare date means the end of that day. -/
def parseUntil (text : String) : Option ℕ := do
  let text := trim text
  let (date, time) := match splitOnceBy (fun c => c == 'T' || c == 't' || c == ' ') text with
    | some (date, time) => (date, some time)
    | none => (text, none)
  let (year, month, day) ← match split '-' date with
    | [y, m, d] => some (y, m, d)
    | _ => none
  let year ← parseNumber year
  let month ← parseNumber month
  let day ← parseNumber day
  if ¬ (1970 ≤ year ∧ year ≤ 9999) ∨ ¬ (1 ≤ month ∧ month ≤ 12) then none
  else if day = 0 ∨ day > daysInMonth year month then none
  else
    let seconds ← match time with
      | none => some (24 * 3600)
      | some time => parseTime time
    some ((daysFromCivil year month day * 86400 + seconds) * 1000)

/-! ## Owners -/

/-- A character an owner label keeps. -/
def isOwnerChar (c : Char) : Bool :=
  isAsciiAlphanumeric c || "@._+-/".toList.contains c

/-- The label built so far, followed by the safe form of the rest. -/
def sanitizeFrom (out : List Char) : List Char → List Char
  | [] => out
  | c :: rest =>
      let out :=
        if isOwnerChar c then out ++ [c]
        else if out.getLast? = some '-' then out
        else out ++ ['-']
      if out.length ≥ MAX_OWNER then out else sanitizeFrom out rest

/-- An owner label safe inside a comment. -/
def sanitizeOwner (owner : String) : String :=
  trimMatches (· == '-') (String.ofList (sanitizeFrom [] (trim owner).toList))

/-- A label shortened to fit a comment keeps at least this much. -/
def SHORTENED : ℕ := 24

/-- Whether two owner labels name the same person on the same machine. -/
def sameOwner (a b : String) : Bool :=
  let a := toAsciiLowercase (sanitizeOwner a)
  let b := toAsciiLowercase (sanitizeOwner b)
  let (short, long) := if a.utf8ByteSize ≤ b.utf8ByteSize then (a, b) else (b, a)
  short ≠ "" && (short = long ||
    (SHORTENED ≤ short.utf8ByteSize && decide (StartsWith short long)))

/-! ## Comments -/

/-- What a comment marks. -/
inductive Marker where
  /-- A route's record (its id). -/
  | route (id : String)
  /-- A reservation's placeholder. -/
  | lease
  /-- Something a newer version wrote. -/
  | other (head : String)
  deriving DecidableEq, Repr

/-- Whether a comment marks a route's record. -/
def Marker.isRoute : Marker → Bool
  | route _ => true
  | _ => false

/-- A parsed comment. -/
structure Ownership where
  marker : Marker
  /-- Who made it, when the writer said. -/
  owner : Option String
  /-- A route's record that also holds a reservation. -/
  lease : Bool
  /-- When the reservation ends; `none`: never. -/
  untilMs : Option ℕ
  deriving DecidableEq

namespace Ownership

/-- A route's record. -/
def ofRoute (routeId owner : String) : Ownership where
  marker := .route routeId
  owner := some owner
  lease := false
  untilMs := none

/-- A reservation's placeholder. -/
def ofLease (owner : String) (untilMs : Option ℕ) : Ownership where
  marker := .lease
  owner := some owner
  lease := true
  untilMs := untilMs

/-- What the first part of a comment marks. -/
def markerOf (head : String) : Marker :=
  match stripStart "route=" head with
  | some id => .route id
  | none => if head = "lease" then .lease else .other head

/-- The comment read so far, with one more part. -/
def addPart (o : Ownership) (part : String) : Ownership :=
  match splitOnce '=' part with
  | some (key, value) =>
      if key = "by" ∧ value ≠ "" then { o with owner := some value }
      else if key = "until" then { o with untilMs := parseUntil value }
      else o
  | none => if part = "lease" then { o with lease := true } else o

/-- What the parts of a comment say. -/
def ofParts : List String → Ownership
  | [] => ⟨.other "", none, false, none⟩
  | head :: parts =>
      parts.foldl addPart ⟨markerOf head, none, decide (markerOf head = .lease), none⟩

/-- Reads a comment; `none` if it is not one of these. -/
def parse (comment : String) : Option Ownership :=
  (stripStart COMMENT_PREFIX (trim comment)).map fun rest => ofParts (split ';' rest)

/-- The comment, within the longest allowed (the owner is shortened if needed). -/
def render (o : Ownership) : String :=
  let out := COMMENT_PREFIX ++ match o.marker with
    | .route id => "route=" ++ id
    | .lease => "lease"
    | .other head => head
  let tail := (if o.lease ∧ o.marker ≠ .lease then ";lease" else "") ++
    match o.untilMs with
    | some ends => ";until=" ++ formatUntil ends
    | none => ""
  let by_ := match o.owner with
    | some owner =>
        let room := MAX_COMMENT - (out.utf8ByteSize + tail.utf8ByteSize + 4)
        let owner := String.ofList ((sanitizeOwner owner).toList.take room)
        if owner ≠ "" then ";by=" ++ owner else ""
    | none => ""
  out ++ by_ ++ tail

/-- Whether it holds a reservation at `now`: a lease that has not ended. -/
def leasedAt (o : Ownership) (now : ℕ) : Bool :=
  o.lease && (match o.untilMs with
    | none => true
    | some ends => ends > now)

end Ownership

/-- The comment written on a route's record, keeping a reservation the record held. -/
def routeComment (routeId owner : String) (previous : Option String) (now : ℕ) : String :=
  let fresh := Ownership.ofRoute routeId owner
  match previous.bind Ownership.parse with
  | some held =>
      if held.leasedAt now && held.owner.any fun o => sameOwner o owner then
        ({ fresh with lease := true, untilMs := held.untilMs } : Ownership).render
      else fresh.render
  | none => fresh.render

/-! ## Holds -/

/-- How a name is held. -/
inductive HoldKind where
  | reservation
  | route
  deriving DecidableEq, Repr

/-- A hostname someone else holds. -/
structure Hold where
  hostname : String
  owner : Option String
  untilMs : Option ℕ
  kind : HoldKind
  deriving DecidableEq

/-- Who is asking, to tell their names from everyone else's. -/
structure Me where
  owner : String
  /-- This machine's tunnel ids in the account. -/
  tunnels : List String
  now : ℕ

/-- The tunnel a record's lower-case content points at. -/
def tunnelOf (target : String) : Option String :=
  let suffix := ".cfargotunnel.com"
  if EndsWith suffix target then
    some (String.ofList (target.toList.take (target.length - suffix.length)))
  else none

/-- Whether `record` holds its name for someone other than `me`. -/
def heldByOther (record : DnsRecord) (me : Me) : Option Hold := do
  let ownership ← record.comment.bind Ownership.parse
  let mine := ownership.owner.any fun o => sameOwner o me.owner
  let hold (kind : HoldKind) (ends : Option ℕ) : Hold :=
    { hostname := toAsciiLowercase record.name, owner := ownership.owner, untilMs := ends, kind }
  match ownership.marker, tunnelOf (toAsciiLowercase record.content) with
  | .route _, some tunnel =>
      -- through one of this machine's tunnels, or written by this same owner elsewhere
      if me.tunnels.contains tunnel || mine then none
      else some (if ownership.leasedAt me.now then hold .reservation ownership.untilMs
        else hold .route none)
  | _, _ =>
      if ownership.leasedAt me.now && !mine then some (hold .reservation ownership.untilMs)
      else none

end Teitunnel
