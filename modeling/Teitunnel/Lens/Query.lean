import Teitunnel.Lens.Inject
import Teitunnel.Lens.Store
import Teitunnel.Lib.Paging
import Teitunnel.Lib.Text

/-!
# Queries

Newest-first pages of the exchanges a filter lets through.  The order in which the rings come
out of the store's map is any, and so is the text of an exchange that a search looks at.
-/

namespace Teitunnel.Lens

open Text

/-- Largest page a query returns. -/
def MAX_PAGE : ℕ := 1000

/-- How secrets are handled. -/
structure Redaction where
  /-- Whether to mask at all. -/
  mask : Bool
  emails : Bool
  extraHeaders : List String

/-- Where the needle is in the haystack, ignoring the case of ASCII letters. -/
def findAsciiCi (haystack needle : List UInt8) : Option ℕ :=
  if needle = [] then some 0
  else
    (List.range (haystack.length + 1 - needle.length)).find? fun place =>
      decide (Search.OccursAt toAsciiLower needle haystack place)

namespace Exchange

def status (exchange : Exchange) : Option ℕ := exchange.response.map ResponseRecord.status

/-- Microseconds until complete, else until the first byte. -/
def duration (exchange : Exchange) : Option ℕ :=
  exchange.timings.completeUs.or exchange.timings.firstByteUs

def isFinished (exchange : Exchange) : Bool :=
  match exchange.state with
  | .complete | .failed => true
  | .pending | .streaming => false

end Exchange

/-- Criteria for listing exchanges; empty fields match everything. -/
structure Filter where
  tap : Option TapId := none
  methods : List String := []
  /-- `2` for 2xx. -/
  statusClasses : List ℕ := []
  statuses : List ℕ := []
  /-- Part of the path. -/
  path : Option String := none
  /-- Part of the host. -/
  host : Option String := none
  /-- Text anywhere in the URL, header values or bodies. -/
  text : Option String := none
  minDurationMs : Option ℕ := none
  sinceMs : Option ℕ := none
  untilMs : Option ℕ := none
  kinds : List ExchangeKind := []
  errorsOnly : Bool := false
  finishedOnly : Bool := false

namespace Filter

/-- The part of the filter that doesn't search texts. -/
def matchesCheap (filter : Filter) (exchange : Exchange) : Bool :=
  filter.tap.all (· = exchange.tap) &&
  (filter.methods.isEmpty || filter.methods.any fun m =>
    toAsciiLowercase m = toAsciiLowercase exchange.request.method) &&
  (filter.statusClasses.isEmpty || exchange.status.any fun s =>
    filter.statusClasses.any (· = s / 100)) &&
  (filter.statuses.isEmpty || exchange.status.any fun s => filter.statuses.contains s) &&
  (filter.path.all fun path =>
    (findAsciiCi (utf8 exchange.request.uri.path) (utf8 path)).isSome) &&
  (filter.host.all fun host =>
    (findAsciiCi (utf8 exchange.request.host) (utf8 host)).isSome) &&
  (filter.minDurationMs.all fun min => min ≤ (exchange.duration.map (· / 1000)).getD 0) &&
  (filter.sinceMs.all (· ≤ exchange.startedAtMs)) &&
  (filter.untilMs.all (exchange.startedAtMs < ·)) &&
  (filter.kinds.isEmpty || filter.kinds.contains exchange.kind) &&
  (!filter.errorsOnly || exchange.error.isSome) &&
  (!filter.finishedOnly || exchange.isFinished)

variable (searchableParts : Exchange → Redaction → List String)

def matchesText (filter : Filter) (exchange : Exchange) (redaction : Redaction) : Bool :=
  match filter.text with
  | none => true
  | some needle =>
      needle.isEmpty || (searchableParts exchange redaction).any fun part =>
        (findAsciiCi (utf8 part) (utf8 needle)).isSome

/-- Whether an exchange matches, texts searched in the view the redaction produces. -/
def matchesExchange (filter : Filter) (exchange : Exchange) (redaction : Redaction) : Bool :=
  filter.matchesCheap exchange && filter.matchesText searchableParts exchange redaction

end Filter

/-- A page request. -/
structure Query where
  filter : Filter := {}
  /-- Page size: 100 unless given, at most `MAX_PAGE`. -/
  limit : Option ℕ := none
  /-- Only exchanges older than this one. -/
  before : Option ExchangeId := none

/-- One page of results, newest first, and the cursor for the next when there may be more. -/
abbrev Page := Paging.Page Exchange ExchangeId

/-- The loop over the candidates: those that pass, until the page is full and one more comes. -/
def scan (pass : Exchange → Bool) (limit : ℕ) :
    List Exchange → List Exchange → List Exchange × Bool
  | items, [] => (items, false)
  | items, exchange :: rest =>
      if ¬ pass exchange then scan pass limit items rest
      else if items.length = limit then (items, true)
      else scan pass limit (items ++ [exchange]) rest

section

variable (searchableParts : Exchange → Redaction → List String)

/-- Runs a query over candidates in any order. -/
def runQuery (candidates : List Exchange) (query : Query) (redaction : Redaction) : Page :=
  let limit := min (max (query.limit.getD 100) 1) MAX_PAGE
  let candidates := candidates.insertionSort fun a b => b.id ≤ a.id
  let pass := fun exchange =>
    query.before.all (exchange.id < ·) &&
      query.filter.matchesExchange searchableParts exchange redaction
  let (items, more) := scan pass limit [] candidates
  { items, next := if more then items.getLast?.map Exchange.id else none }

/-- The page a store answers with; `taps` is the order in which its map gives them. -/
def MemoryStore.list (store : MemoryStore) (taps : List TapId) (query : Query)
    (redaction : Redaction) : Page :=
  let candidates :=
    match query.filter.tap with
    | some tap => ((store.rings tap).map Ring.items).getD []
    | none => (taps.filterMap store.rings).flatMap Ring.items
  runQuery searchableParts candidates query redaction

/-- The oldest match: page after page to the last, at most `fuel` of them. -/
def oldestMatch (list : Query → Redaction → Page) (filter : Filter) (redaction : Redaction) :
    ℕ → Option ExchangeId → Option Exchange → Option (Option Exchange)
  | 0, _, _ => none
  | fuel + 1, before, oldest =>
      let page := list { filter, limit := some MAX_PAGE, before } redaction
      let oldest := page.items.getLast?.or oldest
      match page.next with
      | some next => oldestMatch list filter redaction fuel (some next) oldest
      | none => some oldest

end

end Teitunnel.Lens
