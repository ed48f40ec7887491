import Teitunnel.Lens.Folder

/-!
# Served folders

What is sent is a file of the folder, or the range of it that was asked for; who asks for a folder
without its slash is sent to where it has one.
-/

namespace Teitunnel.Lens

open Text

namespace HeaderMap

lemma getText?_insertText_self {headers : HeaderMap} {name value : String}
    (h : AllChars isVisible value) : (headers.insertText name value).getText? name = some value := by
  obtain ⟨v, hv, htext⟩ := HeaderValue.fromStr_eq_some h
  rw [insertText, hv]
  dsimp only
  rw [getText?, get?, insert, getAll_append_self, getAll_remove_self, List.nil_append,
    List.head?_cons, Option.bind_some, htext]

lemma getText?_insertText_of_ne {headers : HeaderMap} {name other : String} (h : other ≠ name)
    (value : String) : (headers.insertText name value).getText? other = headers.getText? other := by
  rw [insertText]
  cases HeaderValue.fromStr value with
  | none => rfl
  | some v =>
      dsimp only
      rw [getText?, get?, getAll_insert_of_ne _ h, getText?, get?]

lemma getText?_empty (name : String) : getText? ⟨[]⟩ name = none := rfl

end HeaderMap

namespace Upstream

open Files
open Snapshots (FileName)

/-! ## What is asked of an answer -/

/-- A text of digits and the number it writes. -/
def Digits (s : String) (n : ℕ) : Prop :=
  s ≠ "" ∧ (∀ c ∈ s.toList, c.isDigit = true) ∧ n = Nat.ofDigitChars 10 s.toList 0

/-- The bytes, first and last, that one byte range selects of so many. -/
inductive Selects (len : ℕ) : String → ℕ → ℕ → Prop
  | onward {unit start : String} {first : ℕ} (hunit : SameText unit "bytes")
      (hstart : Digits start first) (hlen : first < len) :
      Selects len (unit ++ "=" ++ start ++ "-") first (len - 1)
  | between {unit start stop : String} {first last : ℕ} (hunit : SameText unit "bytes")
      (hstart : Digits start first) (hstop : Digits stop last) (hle : first ≤ last)
      (hlen : first < len) :
      Selects len (unit ++ "=" ++ start ++ "-" ++ stop) first (min last (len - 1))
  | suffix {unit stop : String} {n : ℕ} (hunit : SameText unit "bytes") (hstop : Digits stop n)
      (hn : 0 < n) (hlen : 0 < len) :
      Selects len (unit ++ "=" ++ "-" ++ stop) (len - n) (len - 1)

/-- `If-Range` is missing, or names what is there. -/
def IfRangeHolds (foreign : Foreign) (validators : Validators) (headers : HeaderMap) : Prop :=
  headers.get? IF_RANGE = none ∨ ∃ value, headers.getText? IF_RANGE = some value ∧
    (value = validators.etag ∨ ∃ date, foreign.parseHttpDate value = some date ∧
      validators.modified.map truncateSecs = some date)

/-- The bytes that a poll gives. -/
def Polled.bytes : Polled → List UInt8
  | .data bytes => bytes
  | _ => []

/-- What reads of a file give, one after the other. -/
def FileBody.run : FileBody → List Read → List UInt8 × FileBody
  | self, [] => ([], self)
  | self, read :: reads =>
      let (polled, next) := self.pollFrame read
      let (given, rest) := next.run reads
      (polled.bytes ++ given, rest)

/-- However the file is read, what was sent and what remains are the content. -/
def FileBody.Carries (body : FileBody) (content : List UInt8) : Prop :=
  ∀ reads, (body.run reads).1 ++ (body.run reads).2.file.take (body.run reads).2.remaining = content ∧
    (body.run reads).2.remaining ≤ (body.run reads).2.file.length

/-- All bytes are sent. -/
def SentWhole (bytes : List UInt8) (response : Response) (body : FileBody) : Prop :=
  response.status = 200 ∧ body.Carries bytes ∧
    response.headers.getText? CONTENT_LENGTH = some (toString bytes.length) ∧
    response.headers.getText? CONTENT_RANGE = none

/-- The bytes are sent that the request's range selects. -/
def SentRange (foreign : Foreign) (fs : FileSystem) (request : Request) (path : List FileName)
    (bytes : List UInt8) (response : Response) (body : FileBody) : Prop :=
  response.status = 206 ∧ ∃ value first last, request.headers.getText? RANGE = some value ∧
    Selects bytes.length (trim value) first last ∧
    IfRangeHolds foreign (.of bytes.length (fs.modified path)) request.headers ∧
    body.Carries ((bytes.drop first).take (last + 1 - first)) ∧
    response.headers.getText? CONTENT_LENGTH = some (toString (last + 1 - first)) ∧
    response.headers.getText? CONTENT_RANGE = some
      ("bytes " ++ toString first ++ "-" ++ toString last ++ "/" ++ toString bytes.length)

namespace Folder

/-- A regular file in the folder, no link on the way, with only names that may be served. -/
def Holds (folder : Folder) (foreign : Foreign) (fs : FileSystem) (path : List FileName)
    (bytes : List UInt8) : Prop :=
  fs.root.get path = some (.file bytes) ∧ folder.root <+: path ∧
    ∀ index name, (path.drop folder.root.length)[index]? = some name →
      folder.nameAllowed (lossyName foreign name)
        (index + 1 < (path.drop folder.root.length).length) = true

/-- A piece of a path as a step in the tree. -/
def component (piece : String) : Option (Component FileName) :=
  if piece = "" ∨ piece = "." then none
  else if piece = ".." then some .up
  else some (.name (.text piece))

/-- Where the path of a URL leads from the folder, links followed. -/
def leads (folder : Folder) (fs : FileSystem) (path : String) : Option (List FileName) :=
  (Uris.names component path).bind fun steps =>
    fs.root.canonicalize fs.limit [] (folder.root.map .name ++ steps)

/-- From whatever host, a redirect leads to the same host and the same folder, with a slash. -/
def LeadsHome (folder : Folder) (fs : FileSystem) (request : Request) (location : String) : Prop :=
  ∀ authority, ∃ target, Uris.resolve authority location = some target ∧
    target.authority = authority ∧ EndsWith "/" target.path ∧
    ∃ dir, fs.root.IsDirAt dir ∧ folder.leads fs request.uri.path = some dir ∧
      folder.leads fs target.path = some dir

/-- Nothing but the folder's files is sent, and nobody is sent elsewhere. -/
structure Safe (folder : Folder) (foreign : Foreign) (fs : FileSystem) (request : Request)
    (response : Response) : Prop where
  content : ∀ body, response.body = .file body → ∃ path bytes, folder.Holds foreign fs path bytes ∧
    (SentWhole bytes response body ∨ SentRange foreign fs request path bytes response body)
  redirect : ∀ location, response.status = 301 →
    response.headers.getText? LOCATION = some location → folder.LeadsHome fs request location

/-! ## When it holds -/

/-- The path leads to a folder, without its slash. -/
def LacksSlash (folder : Folder) (foreign : Foreign) (fs : FileSystem) (request : Request) : Prop :=
  ∃ location, folder.find foreign fs request = .redirect location ∧ AllChars isVisible location

/-- A range of a file is asked for, and honoured. -/
def AsksRange (folder : Folder) (foreign : Foreign) (fs : FileSystem) (request : Request)
    (value : String) : Prop :=
  request.method = "GET" ∧ ∃ path bytes first last, folder.find foreign fs request = .file path bytes ∧
    let validators := Validators.of bytes.length (fs.modified path)
    validators.notModified foreign request.headers = false ∧
    validators.rangeAllowed foreign request.headers = true ∧
    request.headers.getText? RANGE = some value ∧
    parseRange value bytes.length = some (.satisfiable first last)

/-- No folder is asked for under a path with two slashes, and no range with signs, blanks or an
`If-Range` that is no text. -/
structure Careful (folder : Folder) (foreign : Foreign) (fs : FileSystem) (request : Request) :
    Prop where
  slashes : folder.LacksSlash foreign fs request → ¬ StartsWith "//" request.uri.path
  range : ∀ value, folder.AsksRange foreign fs request value →
    (∀ c ∈ (trim value).toList, c ≠ '+' ∧ isWhitespace c = false) ∧
    (request.headers.get? IF_RANGE = none ∨ (request.headers.getText? IF_RANGE).isSome = true)

end Folder

/-- The path of a URL begins with a slash and ends before the query, which ends before the
fragment. -/
structure Parsed (uri : Uri) : Prop where
  slash : StartsWith "/" uri.path
  path : '#' ∉ uri.path.toList ∧ '?' ∉ uri.path.toList
  query : ∀ query ∈ uri.query, '#' ∉ query.toList

/-! ## Sending -/

lemma FileBody.pollFrame_bytes {body : FileBody} (h : body.remaining ≤ body.file.length)
    (hmore : body.remaining ≠ 0) (n : ℕ) :
    ∃ k, k ≤ body.remaining ∧ body.pollFrame (.bytes n) =
      (.data (body.file.take k), { file := body.file.drop k, remaining := body.remaining - k }) := by
  have hchunk : 0 < CHUNK := by decide
  refine ⟨min (n + 1) (min body.remaining CHUNK), by omega, ?_⟩
  have hlength : (body.file.take (min (n + 1) (min body.remaining CHUNK))).length =
      min (n + 1) (min body.remaining CHUNK) := List.length_take_of_le (by omega)
  have hne : body.file.take (min (n + 1) (min body.remaining CHUNK)) ≠ [] := by
    intro hnil
    rw [hnil, List.length_nil] at hlength
    omega
  rw [pollFrame, if_neg hmore]
  dsimp only
  rw [if_neg hne, hlength]

lemma FileBody.run_cons (body : FileBody) (read : Read) (reads : List Read) :
    body.run (read :: reads) =
      ((body.pollFrame read).1.bytes ++ ((body.pollFrame read).2.run reads).1,
        ((body.pollFrame read).2.run reads).2) := rfl

/-- A file that has the bytes is sent as it is. -/
lemma FileBody.carries {body : FileBody} (h : body.remaining ≤ body.file.length) :
    body.Carries (body.file.take body.remaining) := by
  intro reads
  induction reads generalizing body with
  | nil => exact ⟨rfl, h⟩
  | cons read reads ih =>
      have hsame : ∀ polled : Polled, polled.bytes = [] → body.pollFrame read = (polled, body) →
          (body.run (read :: reads)) = body.run reads := by
        intro polled hpolled hpoll
        rw [FileBody.run_cons, hpoll, hpolled]
        rfl
      by_cases hdone : body.remaining = 0
      · rw [hsame .done rfl (if_pos hdone)]
        exact ih h
      · cases read with
        | pending =>
            rw [hsame .pending rfl (if_neg hdone)]
            exact ih h
        | failed =>
            rw [hsame .failed rfl (if_neg hdone)]
            exact ih h
        | bytes n =>
            obtain ⟨k, hk, hpoll⟩ := FileBody.pollFrame_bytes h hdone n
            rw [FileBody.run_cons, hpoll]
            dsimp only
            have hroom : body.remaining - k ≤ (body.file.drop k).length := by
              rw [List.length_drop]
              exact Nat.sub_le_sub_right h k
            obtain ⟨hgiven, hrest⟩ :=
              @ih { file := body.file.drop k, remaining := body.remaining - k } hroom
            refine ⟨?_, hrest⟩
            rw [List.append_assoc, hgiven]
            dsimp only [Polled.bytes]
            rw [← List.take_add, Nat.add_sub_cancel' hk]

/-! ## Ranges -/

lemma rangeAtEnd_cases (n : Option ℕ) (len : ℕ) :
    (∃ range, rangeAtEnd n len = some range ∧ ∀ first last, range ≠ .satisfiable first last) ∨
    ∃ k, n = some k ∧ 0 < k ∧ 0 < len ∧
      rangeAtEnd n len = some (.satisfiable (len - k) (len - 1)) := by
  rcases n with _ | _ | k
  · exact .inl ⟨.ignore, rfl, by rintro _ _ ⟨⟩⟩
  · exact .inl ⟨.unsatisfiable, rfl, by rintro _ _ ⟨⟩⟩
  · by_cases hlen : len = 0
    · exact .inl ⟨.unsatisfiable, if_pos hlen, by rintro _ _ ⟨⟩⟩
    · refine .inr ⟨k + 1, rfl, Nat.succ_pos k, Nat.pos_of_ne_zero hlen, ?_⟩
      refine (if_neg hlen).trans ?_
      rw [checkedSub, if_pos (by omega)]
      rfl

lemma rangeBetween_cases (first : ℕ) (last : Option ℕ) (len : ℕ) :
    (∃ range, rangeBetween first last len = some range ∧
      ∀ first last, range ≠ .satisfiable first last) ∨
    ∃ k, last = some k ∧ first ≤ k ∧ first < len ∧
      rangeBetween first last len = some (.satisfiable first (min k (len - 1))) := by
  cases last with
  | none => exact .inl ⟨.ignore, rfl, by rintro _ _ ⟨⟩⟩
  | some k =>
      by_cases hpast : first ≥ len
      · exact .inl ⟨.unsatisfiable, if_pos hpast, by rintro _ _ ⟨⟩⟩
      · by_cases hlast : k < first
        · exact .inl ⟨.ignore, (if_neg hpast).trans (if_pos hlast), by rintro _ _ ⟨⟩⟩
        · refine .inr ⟨k, rfl, by omega, by omega, ?_⟩
          refine ((if_neg hpast).trans (if_neg hlast)).trans ?_
          rw [checkedSub, if_pos (by omega)]
          rfl

/-- What two texts write that are honoured as a range. -/
def Writes (start stop : String) (len first last : ℕ) : Prop :=
  (start = "" ∧ ∃ n, parseU64 stop = some n ∧ 0 < n ∧ 0 < len ∧ first = len - n ∧ last = len - 1) ∨
  (parseU64 start = some first ∧ first < len ∧
    (stop = "" ∧ last = len - 1 ∨
      ∃ n, parseU64 stop = some n ∧ first ≤ n ∧ last = min n (len - 1)))

lemma rangeOf_cases (start stop : String) (len : ℕ) :
    ∃ range, rangeOf start stop len = some range ∧
      ∀ first last, range = .satisfiable first last → Writes start stop len first last := by
  rw [rangeOf]
  by_cases hstart : start = ""
  · rw [if_pos hstart]
    by_cases hstop : stop = ""
    · exact ⟨.ignore, if_pos hstop, by rintro _ _ ⟨⟩⟩
    · rw [if_neg hstop]
      rcases rangeAtEnd_cases (parseU64 stop) len with
        ⟨range, hrange, hnot⟩ | ⟨k, hk, hpos, hlen, hrange⟩
      · exact ⟨range, hrange, fun first last h => absurd h (hnot first last)⟩
      · refine ⟨_, hrange, ?_⟩
        rintro first last ⟨⟩
        exact .inl ⟨hstart, k, hk, hpos, hlen, rfl, rfl⟩
  · rw [if_neg hstart]
    cases hfirst : parseU64 start with
    | none => exact ⟨.ignore, rfl, by rintro _ _ ⟨⟩⟩
    | some first =>
        dsimp only
        rcases rangeBetween_cases first (if stop = "" then some (len - 1) else parseU64 stop) len with
          ⟨range, hrange, hnot⟩ | ⟨k, hk, hle, hlt, hrange⟩
        · exact ⟨range, hrange, fun first last h => absurd h (hnot first last)⟩
        · refine ⟨_, hrange, ?_⟩
          rintro _ _ ⟨⟩
          refine .inr ⟨hfirst, hlt, ?_⟩
          by_cases hstop : stop = ""
          · rw [if_pos hstop] at hk
            obtain rfl := Option.some.inj hk
            exact .inl ⟨hstop, min_self _⟩
          · rw [if_neg hstop] at hk
            exact .inr ⟨k, hk, hle, rfl⟩

lemma Writes.bounds {start stop : String} {len first last : ℕ}
    (h : Writes start stop len first last) : first ≤ last ∧ last < len := by
  rcases h with ⟨-, n, -, hn, hlen, rfl, rfl⟩ | ⟨-, hlt, ⟨-, rfl⟩ | ⟨n, -, hle, rfl⟩⟩
  · omega
  · omega
  · omega

/-- What a text writes that is honoured as a range. -/
lemma parseRange_cases (value : String) (len : ℕ) :
    ∃ range, parseRange value len = some range ∧ ∀ first last, range = .satisfiable first last →
      ∃ spec start stop, trim value = BYTES ++ spec ∧
        trim spec = start ++ String.singleton '-' ++ stop ∧
        Writes (trim start) (trim stop) len first last := by
  rw [parseRange]
  cases hstrip : stripStart BYTES (trim value) with
  | none => exact ⟨.ignore, rfl, by rintro _ _ ⟨⟩⟩
  | some spec =>
      dsimp only
      by_cases hcomma : ',' ∈ spec.toList
      · exact ⟨.ignore, if_pos hcomma, by rintro _ _ ⟨⟩⟩
      · rw [if_neg hcomma]
        cases hcut : splitOnce '-' (trim spec) with
        | none => exact ⟨.ignore, rfl, by rintro _ _ ⟨⟩⟩
        | some cut =>
            obtain ⟨range, hrange, hwrites⟩ := rangeOf_cases (trim cut.1) (trim cut.2) len
            refine ⟨range, hrange, fun first last h => ?_⟩
            refine ⟨spec, cut.1, cut.2, stripStart_eq_some.mp hstrip, ?_, hwrites first last h⟩
            exact (splitOnce_eq_some.mp hcut).1

lemma parseNumber_digits {s : String} {n : ℕ} (hplus : '+' ∉ s.toList)
    (h : parseNumber s = some n) : Digits s n := by
  have hdigits : s.toList ≠ [] ∧ ∀ c ∈ s.toList, c.isDigit = true := by
    unfold parseNumber at h
    split at h
    · rename_i rest heq
      exact absurd (heq ▸ List.mem_cons_self) hplus
    · dsimp only at h
      split_ifs at h with hall
      exact ⟨hall.1, List.all_eq_true.mp hall.2⟩
  refine ⟨?_, hdigits.2, ?_⟩
  · rintro rfl
    exact hdigits.1 rfl
  · rw [parseNumber_eq hdigits.1 hdigits.2] at h
    exact (Option.some.inj h).symm

lemma parseU64_digits {s : String} {n : ℕ} (hplus : '+' ∉ s.toList) (h : parseU64 s = some n) :
    Digits s n :=
  parseNumber_digits hplus (Option.filter_eq_some_iff.mp h).1

lemma trim_of_plain {s : String} (h : ∀ c ∈ s.toList, c ≠ '+' ∧ isWhitespace c = false) : trim s = s :=
  trim_eq_self fun c hc => (h c hc).2

/-- A text with neither signs nor blanks that is honoured is a range. -/
lemma selects_of_plain {value : String} {len first last : ℕ}
    (h : parseRange value len = some (.satisfiable first last))
    (hplain : ∀ c ∈ (trim value).toList, c ≠ '+' ∧ isWhitespace c = false) :
    Selects len (trim value) first last := by
  obtain ⟨range, hrange, hwrites⟩ := parseRange_cases value len
  obtain rfl := Option.some.inj (hrange.symm.trans h)
  obtain ⟨spec, start, stop, hvalue, hspec, hwrites⟩ := hwrites first last rfl
  have hspecPlain : ∀ c ∈ spec.toList, c ≠ '+' ∧ isWhitespace c = false := by
    intro c hc
    refine hplain c ?_
    rw [hvalue, String.toList_append]
    exact List.mem_append_right _ hc
  rw [trim_of_plain hspecPlain] at hspec
  have hstartPlain : ∀ c ∈ start.toList, c ≠ '+' ∧ isWhitespace c = false := by
    intro c hc
    refine hspecPlain c ?_
    rw [hspec, String.toList_append, String.toList_append]
    exact List.mem_append_left _ (List.mem_append_left _ hc)
  have hstopPlain : ∀ c ∈ stop.toList, c ≠ '+' ∧ isWhitespace c = false := by
    intro c hc
    refine hspecPlain c ?_
    rw [hspec, String.toList_append]
    exact List.mem_append_right _ hc
  rw [trim_of_plain hstartPlain, trim_of_plain hstopPlain] at hwrites
  have hnoPlus : ∀ {s : String}, (∀ c ∈ s.toList, c ≠ '+' ∧ isWhitespace c = false) →
      '+' ∉ s.toList := fun hs hc => (hs '+' hc).1 rfl
  have hbytes : BYTES = "bytes" ++ "=" := by decide
  have hdash : String.singleton '-' = "-" := rfl
  rw [hvalue, hspec, hbytes, hdash]
  rcases hwrites with ⟨rfl, n, hn, hpos, hlen, rfl, rfl⟩ | ⟨hfirst, hlt, ⟨rfl, rfl⟩ | ⟨n, hn, hle, rfl⟩⟩
  · rw [String.empty_append, ← String.append_assoc]
    exact .suffix rfl (parseU64_digits (hnoPlus hstopPlain) hn) hpos hlen
  · rw [String.append_empty, ← String.append_assoc]
    exact .onward rfl (parseU64_digits (hnoPlus hstartPlain) hfirst) hlt
  · rw [← String.append_assoc, ← String.append_assoc]
    exact .between rfl (parseU64_digits (hnoPlus hstartPlain) hfirst)
      (parseU64_digits (hnoPlus hstopPlain) hn) hle hlt

/-- A range has neither signs nor blanks. -/
lemma plain_of_selects {s : String} {len first last : ℕ} (h : Selects len s first last) :
    ∀ c ∈ s.toList, c ≠ '+' ∧ isWhitespace c = false := by
  have hdigit : ∀ c : Char, c.isDigit = true → c ≠ '+' ∧ isWhitespace c = false := by
    intro c hc
    have hzero : '0'.toNat = 48 := rfl
    have hnine : '9'.toNat = 57 := rfl
    rw [Char.isDigit_iff_toNat, hzero, hnine] at hc
    refine ⟨?_, not_isWhitespace (by omega)⟩
    rintro rfl
    exact absurd hc.1 (by decide)
  have hunit : ∀ {unit : String}, SameText unit "bytes" → ∀ c ∈ unit.toList,
      c ≠ '+' ∧ isWhitespace c = false := by
    intro unit hunit c hc
    have hlower : c.toLower ∈ "bytes".toList := by
      have hsame : (toAsciiLowercase unit).toList = (toAsciiLowercase "bytes").toList :=
        congrArg String.toList hunit
      rw [toList_toAsciiLowercase, toList_toAsciiLowercase] at hsame
      have hmem : c.toLower ∈ unit.toList.map Char.toLower := List.mem_map_of_mem hc
      rw [hsame] at hmem
      exact hmem
    have hletters : ∀ d ∈ "bytes".toList, d ≠ '+' ∧ 33 ≤ d.toNat ∧ d.toNat ≤ 126 := by
      simp
    obtain ⟨hplus, hrange⟩ := hletters _ hlower
    have hblank := not_isWhitespace hrange
    rw [isWhitespace_toLower] at hblank
    refine ⟨?_, hblank⟩
    rintro rfl
    exact hplus (by decide)
  have hequals : ∀ c ∈ "=".toList, c ≠ '+' ∧ isWhitespace c = false := by
    intro c hc
    obtain rfl := List.mem_singleton.mp hc
    exact ⟨by decide, not_isWhitespace (by decide)⟩
  have hdash : ∀ c ∈ "-".toList, c ≠ '+' ∧ isWhitespace c = false := by
    intro c hc
    obtain rfl := List.mem_singleton.mp hc
    exact ⟨by decide, not_isWhitespace (by decide)⟩
  intro c hc
  cases h with
  | onward hu hstart hlen =>
      simp only [String.toList_append, List.mem_append] at hc
      rcases hc with ((hc | hc) | hc) | hc
      · exact hunit hu c hc
      · exact hequals c hc
      · exact hdigit c (hstart.2.1 c hc)
      · exact hdash c hc
  | between hu hstart hstop hle hlen =>
      simp only [String.toList_append, List.mem_append] at hc
      rcases hc with (((hc | hc) | hc) | hc) | hc
      · exact hunit hu c hc
      · exact hequals c hc
      · exact hdigit c (hstart.2.1 c hc)
      · exact hdash c hc
      · exact hdigit c (hstop.2.1 c hc)
  | suffix hu hstop hn hlen =>
      simp only [String.toList_append, List.mem_append] at hc
      rcases hc with ((hc | hc) | hc) | hc
      · exact hunit hu c hc
      · exact hequals c hc
      · exact hdash c hc
      · exact hdigit c (hstop.2.1 c hc)

/-! ## Answers with a file -/

lemma ifRangeHolds_of_allowed {foreign : Foreign} {validators : Validators} {headers : HeaderMap}
    (h : validators.rangeAllowed foreign headers = true)
    (hread : headers.get? IF_RANGE = none ∨ (headers.getText? IF_RANGE).isSome = true) :
    IfRangeHolds foreign validators headers := by
  rcases hread with hnone | hsome
  · exact .inl hnone
  · obtain ⟨value, hvalue⟩ := Option.isSome_iff_exists.mp hsome
    refine .inr ⟨value, hvalue, ?_⟩
    rw [Validators.rangeAllowed, hvalue] at h
    dsimp only at h
    split_ifs at h with hquoted
    · exact .inl (of_decide_eq_true h)
    · refine .inr ?_
      cases hdate : foreign.parseHttpDate value with
      | none =>
          rw [hdate] at h
          cases h
      | some date =>
          rw [hdate] at h
          cases hmodified : validators.modified with
          | none =>
              rw [hmodified] at h
              cases h
          | some modified =>
              rw [hmodified] at h
              exact ⟨date, rfl, congrArg some (of_decide_eq_true h)⟩

lemma readable_of_ifRangeHolds {foreign : Foreign} {validators : Validators} {headers : HeaderMap}
    (h : IfRangeHolds foreign validators headers) :
    headers.get? IF_RANGE = none ∨ (headers.getText? IF_RANGE).isSome = true := by
  rcases h with hnone | ⟨value, hvalue, -⟩
  · exact .inl hnone
  · exact .inr (Option.isSome_iff_exists.mpr ⟨value, hvalue⟩)

lemma visible_toString (n : ℕ) : AllChars isVisible (toString n) := by
  rw [allChars_iff]
  have hlist : (toString n).toList = Nat.toDigits 10 n := Nat.toList_repr
  intro c hc
  rw [hlist] at hc
  have hdigit := Nat.isDigit_of_mem_toDigits (by decide) (by decide) hc
  have hzero : '0'.toNat = 48 := rfl
  have hnine : '9'.toNat = 57 := rfl
  rw [Char.isDigit_iff_toNat, hzero, hnine] at hdigit
  rw [isVisible, Bool.or_eq_true, Bool.and_eq_true, decide_eq_true_iff, decide_eq_true_iff]
  exact .inl (by omega)

lemma visible_contentRange (first last len : ℕ) :
    AllChars isVisible ("bytes " ++ toString first ++ "-" ++ toString last ++ "/" ++ toString len) := by
  have hbytes : AllChars isVisible "bytes " := by decide
  have hdash : AllChars isVisible "-" := by decide
  have hslash : AllChars isVisible "/" := by decide
  exact ((((hbytes.append (visible_toString first)).append hdash).append
    (visible_toString last)).append hslash).append (visible_toString len)

/-- Nothing of a range stands in the headers before. -/
lemma fileHeaders_range (foreign : Foreign) (validators : Validators) :
    (fileHeaders foreign validators).getText? CONTENT_RANGE = none := by
  rw [fileHeaders]
  rw [HeaderMap.getText?_insertText_of_ne (by decide), HeaderMap.getText?_insertText_of_ne (by decide),
    HeaderMap.getText?_insertText_of_ne (by decide)]
  cases validators.modified with
  | none =>
      dsimp only
      rw [HeaderMap.getText?_insertText_of_ne (by decide), HeaderMap.getText?_empty]
  | some modified =>
      dsimp only
      rw [HeaderMap.getText?_insertText_of_ne (by decide),
        HeaderMap.getText?_insertText_of_ne (by decide), HeaderMap.getText?_empty]

lemma sendFile_carries {bytes : List UInt8} {out : HeaderMap} {status start count : ℕ}
    (h : start + count ≤ bytes.length) {body : FileBody}
    (hbody : (sendFile bytes false out status start count).body = .file body) :
    body.Carries ((bytes.drop start).take count) := by
  rw [sendFile, if_neg Bool.false_ne_true] at hbody
  obtain rfl := Content.file.inj hbody
  have hcount : count ≤ (bytes.drop start).length := by
    rw [List.length_drop]
    omega
  exact FileBody.carries hcount

/-- The range that is honoured. -/
lemma range_cases (validators : Validators) (foreign : Foreign) (headers : HeaderMap) (len : ℕ) :
    ∃ range, validators.range foreign headers len = some range ∧ ∀ first last,
      range = .satisfiable first last → ∃ value, headers.getText? RANGE = some value ∧
        validators.rangeAllowed foreign headers = true ∧
        parseRange value len = some (.satisfiable first last) ∧ first ≤ last ∧ last < len := by
  rw [Validators.range]
  cases hvalue : (headers.getText? RANGE).filter fun _ => validators.rangeAllowed foreign headers with
  | none => exact ⟨.ignore, rfl, by rintro _ _ ⟨⟩⟩
  | some value =>
      obtain ⟨htext, hallowed⟩ := Option.filter_eq_some_iff.mp hvalue
      obtain ⟨range, hrange, hwrites⟩ := parseRange_cases value len
      refine ⟨range, hrange, ?_⟩
      rintro first last rfl
      obtain ⟨_, _, _, _, _, hthis⟩ := hwrites first last rfl
      exact ⟨value, htext, hallowed, hrange, hthis.bounds⟩

section serveFile

variable {foreign : Foreign} {fs : FileSystem} {path : List FileName} {bytes : List UInt8}
  {headers : HeaderMap}

/-- What an answer with a file is, by what the client has and asks for. -/
lemma serveFile_cases (foreign : Foreign) (fs : FileSystem) (path : List FileName)
    (bytes : List UInt8) (headers : HeaderMap) (head : Bool) :
    ∃ response, serveFile foreign fs path bytes headers head = some response ∧
      response.status ≠ 301 ∧ ∀ body, response.body = .file body →
        SentWhole bytes response body ∨
        ∃ value first last, response.status = 206 ∧ headers.getText? RANGE = some value ∧
          (Validators.of bytes.length (fs.modified path)).rangeAllowed foreign headers = true ∧
          head = false ∧
          (Validators.of bytes.length (fs.modified path)).notModified foreign headers = false ∧
          parseRange value bytes.length = some (.satisfiable first last) ∧
          body.Carries ((bytes.drop first).take (last + 1 - first)) ∧
          response.headers.getText? CONTENT_LENGTH = some (toString (last + 1 - first)) ∧
          response.headers.getText? CONTENT_RANGE = some
            ("bytes " ++ toString first ++ "-" ++ toString last ++ "/" ++ toString bytes.length) := by
  have hlength : CONTENT_RANGE ≠ CONTENT_LENGTH := by decide
  rw [serveFile]
  dsimp only
  generalize Validators.of bytes.length (fs.modified path) = validators
  cases hmodified : validators.notModified foreign headers with
  | true =>
      rw [if_pos rfl]
      exact ⟨_, rfl, show 304 ≠ 301 by decide, by rintro _ ⟨⟩⟩
  | false =>
      rw [if_neg Bool.false_ne_true]
      obtain ⟨range, hrange, hhonoured⟩ := range_cases validators foreign headers bytes.length
      rw [hrange, Option.bind_some]
      generalize hout : (fileHeaders foreign validators).insertText CONTENT_TYPE
        (contentTypeOf (foreign.mime path)) = out
      cases range with
      | unsatisfiable => exact ⟨_, rfl, show 416 ≠ 301 by decide, by rintro _ ⟨⟩⟩
      | ignore =>
          refine ⟨_, rfl, show 200 ≠ 301 by decide, ?_⟩
          intro body hbody
          cases head with
          | true =>
              rw [sendFile, if_pos rfl] at hbody
              cases hbody
          | false =>
              refine .inl ⟨rfl, ?_, HeaderMap.getText?_insertText_self (visible_toString _), ?_⟩
              · have hcarries := sendFile_carries (by omega) hbody
                rwa [List.drop_zero, List.take_length] at hcarries
              · rw [sendFile]
                dsimp only
                rw [HeaderMap.getText?_insertText_of_ne hlength, ← hout,
                  HeaderMap.getText?_insertText_of_ne (by decide), fileHeaders_range]
      | satisfiable first last =>
          obtain ⟨value, hvalue, hallowed, hparse, hle, hlt⟩ := hhonoured first last rfl
          have hcount : last - first + 1 = last + 1 - first := by omega
          have hsub : checkedSub last first = some (last - first) := if_pos hle
          dsimp only
          rw [hsub, Option.map_some, hcount]
          refine ⟨_, rfl, show 206 ≠ 301 by decide, ?_⟩
          intro body hbody
          cases head with
          | true =>
              rw [sendFile, if_pos rfl] at hbody
              cases hbody
          | false =>
              refine .inr ⟨value, first, last, rfl, hvalue, hallowed, rfl, rfl, hparse,
                sendFile_carries (by omega) hbody,
                HeaderMap.getText?_insertText_self (visible_toString _), ?_⟩
              rw [sendFile]
              dsimp only
              rw [HeaderMap.getText?_insertText_of_ne hlength]
              exact HeaderMap.getText?_insertText_self (visible_contentRange _ _ _)

/-- A range that is honoured is sent. -/
lemma serveFile_range {value : String} {first last : ℕ}
    (hmodified : (Validators.of bytes.length (fs.modified path)).notModified foreign headers = false)
    (hallowed : (Validators.of bytes.length (fs.modified path)).rangeAllowed foreign headers = true)
    (hvalue : headers.getText? RANGE = some value)
    (hparse : parseRange value bytes.length = some (.satisfiable first last)) :
    ∃ response body, serveFile foreign fs path bytes headers false = some response ∧
      response.status = 206 ∧ response.body = .file body := by
  have hrange : (Validators.of bytes.length (fs.modified path)).range foreign headers bytes.length =
      some (.satisfiable first last) := by
    have hfilter : (headers.getText? RANGE).filter (fun _ =>
        (Validators.of bytes.length (fs.modified path)).rangeAllowed foreign headers) = some value :=
      Option.filter_eq_some_iff.mpr ⟨hvalue, hallowed⟩
    rw [Validators.range, hfilter]
    exact hparse
  obtain ⟨range, hrange', hhonoured⟩ := range_cases (.of bytes.length (fs.modified path)) foreign
    headers bytes.length
  obtain rfl := Option.some.inj (hrange'.symm.trans hrange)
  obtain ⟨-, -, -, -, hle, -⟩ := hhonoured first last rfl
  have hsub : checkedSub last first = some (last - first) := if_pos hle
  rw [serveFile]
  dsimp only
  rw [hmodified, if_neg Bool.false_ne_true, hrange, Option.bind_some]
  dsimp only
  rw [hsub, Option.map_some]
  exact ⟨_, _, rfl, rfl, rfl⟩

end serveFile

/-! ## Where requests lead -/

namespace Folder

variable {folder : Folder} {foreign : Foreign} {fs : FileSystem} {config : FolderConfig}

lemma isDirAt_new (h : Folder.new fs config = some folder) : fs.root.IsDirAt folder.root := by
  obtain ⟨root, hroot, h⟩ := Option.bind_eq_some_iff.mp h
  obtain ⟨node, hnode, h⟩ := Option.bind_eq_some_iff.mp h
  split_ifs at h with hdir
  obtain rfl := Option.some.inj h
  exact ⟨node, hnode, hdir⟩

/-- What is found lies in the folder, is no link, and may be served. -/
structure Finds (folder : Folder) (foreign : Foreign) (fs : FileSystem) (path : List FileName)
    (canonical : List FileName) (node : Files.Node FileName) : Prop where
  leads : fs.root.canonicalize fs.limit [] (path.map .name) = some canonical
  get : fs.root.get canonical = some node
  inside : folder.root <+: canonical
  isLink : node.isLink = false
  allowed : ∀ index name, (canonical.drop folder.root.length)[index]? = some name →
    folder.nameAllowed (lossyName foreign name)
      (index + 1 < (canonical.drop folder.root.length).length || node.isDir) = true

lemma finds_of_resolve {path canonical : List FileName} {node : Files.Node FileName}
    (hroot : fs.root.IsDirAt folder.root)
    (h : folder.resolve foreign fs path = some (canonical, node)) :
    folder.Finds foreign fs path canonical node := by
  rw [resolve, Option.bind_eq_bind, Option.bind_eq_some_iff] at h
  obtain ⟨canonical', hcanonical, h⟩ := h
  split_ifs at h with hinside
  rw [Option.bind_eq_bind, Option.bind_eq_some_iff] at h
  obtain ⟨node', hnode, h⟩ := h
  obtain ⟨hallowed, h⟩ := Option.ite_none_right_eq_some.mp h
  obtain ⟨rfl, rfl⟩ := Prod.mk.inj (Option.some.inj h)
  obtain ⟨node'', hget, hlink⟩ := Files.Node.leads_canonicalize fs.limit _ _ _
    (Files.Node.isDirAt_nil hroot) hcanonical
  obtain rfl := Option.some.inj (hget.symm.trans hnode)
  refine ⟨hcanonical, hnode, hinside, hlink, ?_⟩
  intro index name hname
  have hmem := List.mk_mem_zipIdx_iff_getElem?.mpr hname
  have hname := List.all_eq_true.mp hallowed _ hmem
  dsimp only at hname
  exact hname

/-- What is no folder, no link and nothing special is a file. -/
lemma holds_of_finds {path canonical : List FileName} {node : Files.Node FileName}
    (hplain : ∀ path, fs.root.get path ≠ some .special)
    (h : folder.Finds foreign fs path canonical node) (hdir : node.isDir = false) :
    folder.Holds foreign fs canonical (bytesOf node) := by
  have hallowed := h.allowed
  rw [hdir] at hallowed
  simp only [Bool.or_false] at hallowed
  refine ⟨?_, h.inside, hallowed⟩
  have hget := h.get
  cases node with
  | file bytes => exact hget
  | dir entries => cases hdir
  | link absolute target => cases h.isLink
  | special => exact absurd hget (hplain canonical)

lemma holds_of_indexOf {dir file : List FileName} {node : Files.Node FileName}
    (hroot : fs.root.IsDirAt folder.root) (hplain : ∀ path, fs.root.get path ≠ some .special)
    (h : folder.indexOf foreign fs dir = some (file, node)) :
    folder.Holds foreign fs file (bytesOf node) := by
  obtain ⟨hresolve, hfile⟩ := Option.filter_eq_some_iff.mp h
  refine holds_of_finds hplain (finds_of_resolve hroot hresolve) ?_
  cases node with
  | file bytes => rfl
  | dir entries => cases hfile
  | link absolute target => rfl
  | special => rfl

variable {request : Request}

lemma Found.fileOr_eq_file {otherwise : Found} {found : Option (List FileName × Files.Node FileName)}
    {path : List FileName} {bytes : List UInt8} (h : otherwise.fileOr found = .file path bytes) :
    (∃ node, found = some (path, node) ∧ bytes = bytesOf node) ∨ otherwise = .file path bytes := by
  cases found with
  | none => exact .inr h
  | some found =>
      obtain ⟨rfl, rfl⟩ := Found.file.inj h
      exact .inl ⟨found.2, rfl, rfl⟩

lemma Found.fileOr_eq_redirect {otherwise : Found}
    {found : Option (List FileName × Files.Node FileName)} {location : String}
    (h : otherwise.fileOr found = .redirect location) : otherwise = .redirect location := by
  cases found with
  | none => exact h
  | some found => cases h

/-- The file that a request is for. -/
lemma holds_of_find {path : List FileName} {bytes : List UInt8}
    (hroot : fs.root.IsDirAt folder.root) (hplain : ∀ path, fs.root.get path ≠ some .special)
    (h : folder.find foreign fs request = .file path bytes) :
    folder.Holds foreign fs path bytes := by
  have hindex : ∀ (use : Bool) (dir : List FileName) (otherwise : Found),
      (∀ path bytes, otherwise ≠ .file path bytes) →
      otherwise.fileOr (if use then folder.indexOf foreign fs dir else none) = .file path bytes →
      folder.Holds foreign fs path bytes := by
    intro use dir otherwise hother hfile
    rcases Found.fileOr_eq_file hfile with ⟨node, hfound, rfl⟩ | hfile
    · cases use with
      | true => exact holds_of_indexOf hroot hplain ((if_pos rfl).symm.trans hfound)
      | false => cases (if_neg Bool.false_ne_true).symm.trans hfound
    · exact absurd hfile (hother _ _)
  rw [find] at h
  cases hsegments : folder.segments request.uri.path with
  | none =>
      rw [hsegments] at h
      cases h
  | some segments =>
      rw [hsegments] at h
      dsimp only at h
      cases hresolve : folder.resolve foreign fs (folder.root ++ segments.map .text) with
      | none =>
          rw [hresolve] at h
          exact hindex _ _ _ (by rintro _ _ ⟨⟩) h
      | some found =>
          rw [hresolve] at h
          dsimp only at h
          rw [findAt] at h
          by_cases hdir : found.2.isDir = true
          · rw [if_pos hdir] at h
            by_cases hslash : EndsWith "/" request.uri.path
            · rw [if_neg (not_not.mpr hslash)] at h
              refine hindex _ _ _ ?_ h
              cases folder.config.listing with
              | true => rintro _ _ ⟨⟩
              | false => rintro _ _ ⟨⟩
            · rw [if_pos hslash] at h
              cases h
          · rw [if_neg hdir] at h
            obtain ⟨rfl, rfl⟩ := Found.file.inj h
            exact holds_of_finds hplain (finds_of_resolve hroot hresolve) (by simpa using hdir)

/-- The folder that a request is sent to the slash of. -/
lemma redirect_of_find {location : String} (hroot : fs.root.IsDirAt folder.root)
    (h : folder.find foreign fs request = .redirect location) :
    ∃ segments canonical node, folder.segments request.uri.path = some segments ∧
      folder.Finds foreign fs (folder.root ++ segments.map .text) canonical node ∧
      node.isDir = true ∧ ¬ EndsWith "/" request.uri.path ∧
      ((∃ query, request.uri.query = some query ∧
          location = request.uri.path ++ "/?" ++ query) ∨
        request.uri.query = none ∧ location = request.uri.path ++ "/") := by
  rw [find] at h
  cases hsegments : folder.segments request.uri.path with
  | none =>
      rw [hsegments] at h
      cases h
  | some segments =>
      rw [hsegments] at h
      dsimp only at h
      cases hresolve : folder.resolve foreign fs (folder.root ++ segments.map .text) with
      | none =>
          rw [hresolve] at h
          cases Found.fileOr_eq_redirect h
      | some found =>
          rw [hresolve] at h
          dsimp only at h
          rw [findAt] at h
          by_cases hdir : found.2.isDir = true
          · rw [if_pos hdir] at h
            by_cases hslash : EndsWith "/" request.uri.path
            · rw [if_neg (not_not.mpr hslash)] at h
              have hother := Found.fileOr_eq_redirect h
              cases hlisting : folder.config.listing with
              | true =>
                  rw [hlisting] at hother
                  cases hother
              | false =>
                  rw [hlisting] at hother
                  cases hother
            · rw [if_pos hslash] at h
              refine ⟨segments, found.1, found.2, rfl, finds_of_resolve hroot hresolve, hdir, hslash,
                ?_⟩
              cases hquery : request.uri.query with
              | none =>
                  rw [hquery] at h
                  exact .inr ⟨rfl, (Found.redirect.inj h).symm⟩
              | some query =>
                  rw [hquery] at h
                  exact .inl ⟨query, rfl, (Found.redirect.inj h).symm⟩
          · rw [if_neg hdir] at h
            cases h

end Folder

/-! ## The folder under its slash -/

namespace Folder

variable {folder : Folder} {foreign : Foreign} {fs : FileSystem} {request : Request}

lemma kept_eq_some {last : ℕ} {pieces : List (String × ℕ)} {names : List String}
    (h : folder.kept last pieces = some names) : ".." ∉ pieces.map Prod.fst ∧
      names.map (fun s => Component.name (FileName.text s)) =
        (pieces.map Prod.fst).filterMap component := by
  induction pieces generalizing names with
  | nil =>
      obtain rfl := Option.some.inj h
      exact ⟨List.not_mem_nil, rfl⟩
  | cons piece rest ih =>
      obtain ⟨s, index⟩ := piece
      rw [kept] at h
      rw [List.map_cons, List.mem_cons, not_or]
      by_cases hempty : s = "" ∨ s = "."
      · rw [if_pos hempty] at h
        obtain ⟨hdots, hnames⟩ := ih h
        have hnone : component s = none := if_pos hempty
        rw [List.filterMap_cons_none hnone]
        refine ⟨⟨?_, hdots⟩, hnames⟩
        rintro rfl
        exact absurd hempty (by decide)
      · rw [if_neg hempty] at h
        by_cases hdots : s = ".."
        · rw [if_pos hdots] at h
          cases h
        · have hsome : component s = some (.name (.text s)) := (if_neg hempty).trans (if_neg hdots)
          rw [if_neg hdots] at h
          split_ifs at h
          obtain ⟨others, hothers, rfl⟩ := Option.map_eq_some_iff.mp h
          obtain ⟨hrest, hnames⟩ := ih hothers
          rw [List.filterMap_cons_some hsome, List.map_cons, hnames]
          exact ⟨⟨Ne.symm hdots, hrest⟩, rfl⟩

/-- Segments are what the path names. -/
lemma segments_eq_some {path : String} {names : List String}
    (h : folder.segments path = some names) :
    ∃ decoded, Uris.decode path = some decoded ∧ ".." ∉ split '/' decoded ∧
      Uris.names component path = some (names.map fun s => .name (.text s)) := by
  rw [segments, Option.bind_eq_bind, Option.bind_eq_some_iff] at h
  obtain ⟨decoded, hdecoded, h⟩ := h
  split_ifs at h
  obtain ⟨hdots, hnames⟩ := kept_eq_some h
  have hpieces : (split '/' decoded).zipIdx.map Prod.fst = split '/' decoded := List.zipIdx_map_fst _ _
  rw [hpieces] at hdots hnames
  refine ⟨decoded, hdecoded, hdots, ?_⟩
  rw [Uris.names, hdecoded, hnames]
  rfl

/-- Where a path leads is what is found under its segments. -/
lemma leads_of_finds {path : String} {names : List String} {canonical : List FileName}
    {node : Files.Node FileName} (hsegments : folder.segments path = some names)
    (h : folder.Finds foreign fs (folder.root ++ names.map .text) canonical node) :
    folder.leads fs path = some canonical := by
  obtain ⟨decoded, -, -, hnames⟩ := segments_eq_some hsegments
  rw [leads, hnames, Option.bind_some, ← h.leads, List.map_append, List.map_map]
  rfl

/-- A slash behind a path that begins with one, and doesn't end in it, makes no two. -/
lemma not_slashes_append {rest location : String} (hslashes : ¬ StartsWith "//" ("/" ++ rest))
    (hend : ¬ EndsWith "/" ("/" ++ rest)) (hlocation : location = "/" ++ (rest ++ "/")) :
    ¬ StartsWith "//" location := by
  intro h
  obtain ⟨r, hr⟩ := startsWith_iff.mp h
  have hlist : '/' :: (rest.toList ++ ['/']) = '/' :: '/' :: r.toList := by
    have hlists := congrArg String.toList (hlocation.symm.trans hr)
    simpa using hlists
  rcases hrest : rest.toList with _ | ⟨c, l⟩
  · refine hend ?_
    have hempty : rest = "" := String.toList_injective hrest
    rw [hempty, String.append_empty]
    exact List.suffix_rfl
  · rw [hrest, List.cons_append, List.cons.injEq, List.cons.injEq] at hlist
    obtain ⟨-, rfl, -⟩ := hlist
    refine hslashes (startsWith_iff.mpr ⟨String.ofList l, String.toList_injective ?_⟩)
    rw [String.toList_append, hrest]
    simp

lemma startsWith_slash {path : String} (h : StartsWith "/" path) : ∃ rest, path = "/" ++ rest :=
  startsWith_iff.mp h

/-- A redirect from a path with one slash leads home. -/
lemma leadsHome_of_slash {location : String} (hroot : fs.root.IsDirAt folder.root)
    (huri : Parsed request.uri) (hslashes : ¬ StartsWith "//" request.uri.path)
    (h : folder.find foreign fs request = .redirect location) :
    folder.LeadsHome fs request location := by
  obtain ⟨names, canonical, node, hsegments, hfinds, hdir, hend, hlocation⟩ := redirect_of_find hroot h
  obtain ⟨decoded, hdecoded, hdots, -⟩ := segments_eq_some hsegments
  have hleads := leads_of_finds hsegments hfinds
  obtain ⟨rest, hpath⟩ := startsWith_slash huri.slash
  -- The path with its slash still begins with one slash.
  have hfolder : request.uri.path ++ "/" = "/" ++ (rest ++ "/") := by
    rw [hpath, String.append_assoc]
  have hone : ¬ StartsWith "//" (request.uri.path ++ "/") :=
    not_slashes_append (hpath ▸ hslashes) (hpath ▸ hend) hfolder
  have hstart : StartsWith "/" (request.uri.path ++ "/") := startsWith_iff.mpr ⟨_, hfolder⟩
  have hmark : '?' ∉ (request.uri.path ++ "/").toList := by
    rw [String.toList_append, List.mem_append, not_or]
    exact ⟨huri.path.2, by decide⟩
  have hhash : '#' ∉ (request.uri.path ++ "/").toList := by
    rw [String.toList_append, List.mem_append, not_or]
    exact ⟨huri.path.1, by decide⟩
  have hraw : ".." ∉ split '/' rest := by
    intro hmem
    have hmem : ".." ∈ split '/' request.uri.path := by
      have hsplit := Uris.split_slash "" rest
      rw [String.empty_append, ← hpath] at hsplit
      rw [hsplit]
      exact List.mem_append_right _ hmem
    have hdecode : Uris.decode ".." = some ".." := by decide +kernel
    obtain ⟨text, htext, hpieces⟩ := Uris.mem_split_decode hdecoded hmem
    obtain rfl := Option.some.inj (hdecode.symm.trans htext)
    exact hdots (hpieces ".." (by decide))
  have hsame : folder.leads fs (Uris.normalize (request.uri.path ++ "/")) = some canonical := by
    rw [hfolder, leads, Uris.names_normalize (if_pos (.inl rfl)) (if_pos (.inr rfl)) hraw, ← hpath]
    exact hleads
  have hslash : EndsWith "/" (Uris.normalize (request.uri.path ++ "/")) := by
    rw [hfolder, Uris.normalize_folder hraw]
    obtain ⟨front, hfront⟩ := Uris.intercalate_endsWith ((split '/' rest).filter (· ≠ "."))
    rw [hfront, EndsWith, String.toList_append]
    exact List.suffix_append _ _
  intro authority
  rcases hlocation with ⟨query, hquery, rfl⟩ | ⟨-, rfl⟩
  · refine ⟨{ authority, path := Uris.normalize (request.uri.path ++ "/"), query := some query }, ?_,
      rfl, hslash, canonical, ⟨node, hfinds.get, hdir⟩, hleads, hsame⟩
    have hjoined : request.uri.path ++ "/?" ++ query =
        request.uri.path ++ "/" ++ String.singleton '?' ++ query := by
      have hsep : "/?" = "/" ++ String.singleton '?' := by decide
      rw [hsep, ← String.append_assoc]
    rw [hjoined]
    exact Uris.resolve_query hstart hone hhash hmark (huri.query query hquery) authority
  · exact ⟨{ authority, path := Uris.normalize (request.uri.path ++ "/"), query := none },
      Uris.resolve_path hstart hone hhash hmark authority, rfl, hslash, canonical,
      ⟨node, hfinds.get, hdir⟩, hleads, hsame⟩

end Folder

lemma redirect_location {location found : String}
    (h : (redirect location).headers.getText? LOCATION = some found) :
    found = location ∧ AllChars isVisible location := by
  rw [redirect] at h
  by_cases hvisible : AllChars isVisible location
  · rw [HeaderMap.getText?_insertText_self hvisible] at h
    exact ⟨(Option.some.inj h).symm, hvisible⟩
  · have hnone : HeaderValue.fromStr location = none := dif_neg hvisible
    rw [HeaderMap.insertText, hnone] at h
    cases h

namespace Folder

variable {folder : Folder} {foreign : Foreign} {fs : FileSystem} {request : Request}

/-- What is neither a file nor a redirect is safe, and asks for nothing. -/
lemma safe_iff_of_neither {response : Response} (hstatus : response.status ≠ 301)
    (hbody : ∀ body, response.body ≠ .file body)
    (hredirect : ∀ location, folder.find foreign fs request ≠ .redirect location)
    (hfile : ∀ path bytes, folder.find foreign fs request ≠ .file path bytes) :
    folder.Safe foreign fs request response ↔ folder.Careful foreign fs request := by
  constructor
  · intro _
    refine ⟨?_, ?_⟩
    · rintro ⟨location, hfind, -⟩
      exact absurd hfind (hredirect location)
    · rintro value ⟨-, path, bytes, first, last, hfind, -⟩
      exact absurd hfind (hfile path bytes)
  · intro _
    exact ⟨fun body h => absurd h (hbody body), fun location h => absurd h hstatus⟩

lemma safe_iff_of_redirect {location : String} (hroot : fs.root.IsDirAt folder.root)
    (huri : Parsed request.uri) (hfind : folder.find foreign fs request = .redirect location) :
    folder.Safe foreign fs request (redirect location) ↔ folder.Careful foreign fs request := by
  constructor
  · intro hsafe
    refine ⟨?_, ?_⟩
    · rintro ⟨location', hfind', hvisible⟩ hslashes
      obtain rfl := Found.redirect.inj (hfind'.symm.trans hfind)
      obtain ⟨rest, hrest⟩ := startsWith_iff.mp hslashes
      have hlocation : StartsWith "//" location' := by
        obtain ⟨-, -, -, -, -, -, -, ⟨query, -, rfl⟩ | ⟨-, rfl⟩⟩ := redirect_of_find hroot hfind
        · exact startsWith_iff.mpr ⟨rest ++ "/?" ++ query, by
            rw [hrest, String.append_assoc, String.append_assoc, String.append_assoc]⟩
        · exact startsWith_iff.mpr ⟨rest ++ "/", by rw [hrest, String.append_assoc]⟩
      -- Whatever host the request is for, it leads to one and the same.
      obtain ⟨target, htarget⟩ := Uris.resolve_slashes hlocation
      have hhome := hsafe.redirect location' rfl (HeaderMap.getText?_insertText_self hvisible)
      obtain ⟨target', htarget', hauthority, -⟩ := hhome (target.authority ++ "x")
      obtain rfl := Option.some.inj ((htarget _).symm.trans htarget')
      have hlength := congrArg (fun s => s.toList.length) hauthority
      simp only [String.toList_append, List.length_append] at hlength
      have hx : "x".toList.length = 1 := rfl
      omega
    · rintro value ⟨-, path, bytes, first, last, hfind', -⟩
      cases hfind'.symm.trans hfind
  · intro hcareful
    refine ⟨by rintro _ ⟨⟩, ?_⟩
    intro found _ hfound
    obtain ⟨rfl, hvisible⟩ := redirect_location hfound
    exact leadsHome_of_slash hroot huri (hcareful.slashes ⟨found, hfind, hvisible⟩) hfind

lemma safe_iff_of_file {path : List FileName} {bytes : List UInt8} {response : Response}
    (hroot : fs.root.IsDirAt folder.root) (hplain : ∀ path, fs.root.get path ≠ some .special)
    (hmethod : request.method = "GET" ∨ request.method = "HEAD")
    (hfind : folder.find foreign fs request = .file path bytes)
    (hserve : serveFile foreign fs path bytes request.headers (request.method = "HEAD") =
      some response) :
    folder.Safe foreign fs request response ↔ folder.Careful foreign fs request := by
  obtain ⟨response', hserve', hstatus, hsent⟩ := serveFile_cases foreign fs path bytes request.headers
    (request.method = "HEAD")
  obtain rfl := Option.some.inj (hserve'.symm.trans hserve)
  have hholds := holds_of_find hroot hplain hfind
  constructor
  · intro hsafe
    refine ⟨?_, ?_⟩
    · rintro ⟨location, hfind', -⟩
      cases hfind'.symm.trans hfind
    · rintro value ⟨hget, path', bytes', first, last, hfind', hmodified, hallowed, hvalue, hparse⟩
      obtain ⟨rfl, rfl⟩ := Found.file.inj (hfind'.symm.trans hfind)
      have hhead : decide (request.method = "HEAD") = false := by
        rw [hget]
        decide
      rw [hhead] at hserve
      obtain ⟨sent, body, hsent', hpart, hbody⟩ := serveFile_range hmodified hallowed hvalue hparse
      obtain rfl := Option.some.inj (hsent'.symm.trans hserve)
      obtain ⟨_, _, -, ⟨hwhole, -⟩ | ⟨-, value', _, _, hvalue', hselects, hifRange, -⟩⟩ :=
        hsafe.content body hbody
      · rw [hpart] at hwhole
        exact absurd hwhole (by decide)
      · obtain rfl := Option.some.inj (hvalue'.symm.trans hvalue)
        exact ⟨plain_of_selects hselects, readable_of_ifRangeHolds hifRange⟩
  · intro hcareful
    refine ⟨?_, fun location h => absurd h hstatus⟩
    intro body hbody
    refine ⟨path, bytes, hholds, ?_⟩
    rcases hsent body hbody with hwhole | ⟨value, first, last, hpart, hvalue, hallowed, hhead,
      hmodified, hparse, hcarries, hlength, hrange⟩
    · exact .inl hwhole
    · have hget : request.method = "GET" := by
        rcases hmethod with hget | hhead'
        · exact hget
        · exact absurd (decide_eq_true hhead') (by rw [hhead]; exact Bool.false_ne_true)
      obtain ⟨hplainValue, hreadable⟩ := hcareful.range value
        ⟨hget, path, bytes, first, last, hfind, hmodified, hallowed, hvalue, hparse⟩
      exact .inr ⟨hpart, value, first, last, hvalue, selects_of_plain hparse hplainValue,
        ifRangeHolds_of_allowed hallowed hreadable, hcarries, hlength, hrange⟩

end Folder

/-- What is sent is the folder's, and redirects lead home, just when no folder is asked for under
two slashes and no range in a form that is none. -/
theorem serve_safe_iff (foreign : Foreign) (fs : FileSystem) (config : FolderConfig)
    (folder : Folder) (request : Request) (hnew : Folder.new fs config = some folder)
    (hplain : ∀ path, fs.root.get path ≠ some .special)
    (hmethod : request.method = "GET" ∨ request.method = "HEAD") (huri : Parsed request.uri) :
    ∃ response, folder.serve foreign fs request = some response ∧
      (folder.Safe foreign fs request response ↔ folder.Careful foreign fs request) := by
  have hroot := Folder.isDirAt_new hnew
  have hserved : ¬ (request.method ≠ "GET" ∧ request.method ≠ "HEAD") := by
    rintro ⟨hget, hhead⟩
    exact hmethod.elim hget hhead
  rw [Folder.serve, if_neg hserved]
  cases hfind : folder.find foreign fs request with
  | nothing =>
      refine ⟨notFound, rfl, Folder.safe_iff_of_neither (show 404 ≠ 301 by decide) (by rintro _ ⟨⟩) ?_ ?_⟩
      · rw [hfind]
        rintro _ ⟨⟩
      · rw [hfind]
        rintro _ _ ⟨⟩
  | listing dir =>
      refine ⟨_, rfl, Folder.safe_iff_of_neither (show 200 ≠ 301 by decide) ?_ ?_ ?_⟩
      · intro body hbody
        rw [Folder.listingOf] at hbody
        dsimp only at hbody
        split_ifs at hbody
      · rw [hfind]
        rintro _ ⟨⟩
      · rw [hfind]
        rintro _ _ ⟨⟩
  | redirect location =>
      exact ⟨redirect location, rfl, Folder.safe_iff_of_redirect hroot huri hfind⟩
  | file path bytes =>
      obtain ⟨response, hresponse, -⟩ := serveFile_cases foreign fs path bytes request.headers
        (request.method = "HEAD")
      exact ⟨response, hresponse, Folder.safe_iff_of_file hroot hplain hmethod hfind hresponse⟩

/-! ## A request that is sent elsewhere -/

/-- No dates, and one media type. -/
def undated : Foreign where
  parseHttpDate _ := none
  fmtHttpDate _ := ""
  mime _ := ("application", "application/octet-stream")
  lossy _ := ""

/-- A site with the folder `docs`. -/
def site : FileSystem where
  root := .dir [(.text "site", .dir [(.text "docs", .dir [])])]
  limit := 40
  modified _ := none

def siteConfig : FolderConfig where
  root := [.name (.text "site")]
  index := true
  listing := false
  spaFallback := false
  hidden := false
  allow := none

def siteFolder : Folder where
  config := siteConfig
  root := [.text "site"]

def getOf (path : String) : Request where
  method := "GET"
  uri := { path, query := none }
  headers := ⟨[]⟩

lemma plain_site (path : List FileName) : site.root.get path ≠ some .special := by
  intro h
  rcases path with _ | ⟨a, path⟩
  · cases h
  · obtain ⟨folder, hfolder, h⟩ := Option.bind_eq_some_iff.mp h
    obtain ⟨⟨name, node⟩, hfound, rfl⟩ := Option.map_eq_some_iff.mp hfolder
    cases List.mem_singleton.mp (List.mem_of_find?_eq_some hfound)
    rcases path with _ | ⟨b, path⟩
    · cases h
    · obtain ⟨docs, hdocs, h⟩ := Option.bind_eq_some_iff.mp h
      obtain ⟨⟨name, node⟩, hfound, rfl⟩ := Option.map_eq_some_iff.mp hdocs
      cases List.mem_singleton.mp (List.mem_of_find?_eq_some hfound)
      rcases path with _ | ⟨c, path⟩
      · cases h
      · cases h

theorem serve_safe_docs : ∃ response, siteFolder.serve undated site (getOf "/docs") = some response ∧
    (siteFolder.Safe undated site (getOf "/docs") response ↔
      siteFolder.Careful undated site (getOf "/docs")) :=
  serve_safe_iff undated site siteConfig siteFolder (getOf "/docs") rfl plain_site (.inl rfl)
    ⟨by decide, ⟨by decide, by decide⟩, by rintro _ ⟨⟩⟩

/-- Two slashes before `docs` lead to a host of that name. -/
theorem serve_astray : ∃ response, siteFolder.serve undated site (getOf "//docs") = some response ∧
    ¬ siteFolder.Safe undated site (getOf "//docs") response := by
  have hserve : siteFolder.serve undated site (getOf "//docs") = some (redirect "//docs/") := by
    decide +kernel
  refine ⟨redirect "//docs/", hserve, fun hsafe => ?_⟩
  have hlocation : (redirect "//docs/").headers.getText? LOCATION = some "//docs/" := by
    decide +kernel
  obtain ⟨target, htarget, hauthority, -⟩ := hsafe.redirect "//docs/" rfl hlocation "localhost"
  have hresolve : Uris.resolve "localhost" "//docs/" =
      some { authority := "docs", path := "/", query := none } := by decide +kernel
  obtain rfl := Option.some.inj (hresolve.symm.trans htarget)
  exact absurd hauthority (by decide)

end Upstream

end Teitunnel.Lens
