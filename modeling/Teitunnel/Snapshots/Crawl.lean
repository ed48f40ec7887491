import Teitunnel.Snapshots.Content

/-!
# Capturing a site

A running site as files: a crawl from one path that follows the links of what it saves, within
limits.
-/

namespace Teitunnel.Snapshots

open Text

/-- How far a crawl may go. -/
structure Limits where
  pages : ℕ
  files : ℕ
  bytes : ℕ

/-- What a crawl captured. -/
structure CrawlReport where
  pages : ℕ := 0
  files : ℕ := 0
  bytes : ℕ := 0
  /-- Paths that answered with an error, the first 50. -/
  failed : List String := []
  /-- A limit was reached. -/
  truncated : Bool := false
  singlePage : Bool := false
  deriving DecidableEq

inductive Kind where
  | html
  | css
  | script
  | other
  deriving DecidableEq

@[irreducible] def kindOf (contentType path : String) : Kind :=
  let contentType := toAsciiLowercase contentType
  if StartsWith "text/html" contentType || StartsWith "application/xhtml" contentType then .html
  else if StartsWith "text/css" contentType || EndsWith ".css" path then .css
  else if HasText "javascript" contentType || EndsWith ".js" path || EndsWith ".mjs" path then
    .script
  else .other

/-- What a path answers with success. -/
structure Page where
  contentType : String
  bytes : List UInt8
  /-- The links to paths of the site, each with whether it is one for sure. -/
  links : Kind → List (String × Bool)
  /-- The paths of the site that it lists as a sitemap. -/
  locs : List String

def Page.kind (page : Page) (path : String) : Kind := kindOf page.contentType path

inductive Answer where
  | error
  /-- To another path of the site. -/
  | redirect (path : String)
  | body (page : Page)

/-- A site, by its paths. -/
abbrev Site := String → Answer

/-- Redirects that are followed at most. -/
def REDIRECTS : ℕ := 4

def follow (site : Site) : ℕ → String → Option Page
  | n, path =>
      match site path, n with
      | .body page, _ => some page
      | .redirect path', n + 1 => follow site n path'
      | _, _ => none

/-- What a path of the site answers, redirects followed. -/
def Site.get (site : Site) (path : String) : Option Page := follow site REDIRECTS path

/-! ## Where a path is saved -/

/-- The byte that two characters write in hexadecimal; a digit may have a sign. -/
def hexPair (c d : Char) : Option UInt8 :=
  let value (c : Char) : Option ℕ :=
    if c.isDigit then some (c.toNat - 48)
    else if 'a' ≤ c.toLower ∧ c.toLower ≤ 'f' then some (c.toLower.toNat - 87)
    else none
  if c = '+' then (value d).map .ofNat
  else (value c).bind fun high => (value d).map fun low => .ofNat (high * 16 + low)

def percentBytes : List Char → Option (List UInt8)
  | [] => some []
  | '%' :: c :: d :: rest => (hexPair c d).bind fun b => (percentBytes rest).map (b :: ·)
  | c :: rest => if c = '%' then none else (percentBytes rest).map (utf8 (String.singleton c) ++ ·)

def percentDecode (segment : String) : Option String :=
  (percentBytes segment.toList).bind fun bytes => String.fromUTF8? ⟨bytes.toArray⟩

/-- A name that isn't saved. -/
def isUnsafe (segment : String) : Bool :=
  segment = "." || segment = ".." || (StartsWith "." segment && segment ≠ ".well-known") ||
    segment.toList.any fun c =>
      isControl c || c ∈ ['/', '\\', ':', '*', '?', '"', '<', '>', '|']

/-- The names of a path, when all are safe. -/
def segmentsOf (path : String) : Option (List String) :=
  ((split '/' (trimStart (· == '/') path)).filter (· ≠ "")).mapM fun raw =>
    (percentDecode raw).filter fun segment => !isUnsafe segment

/-- Where a path is saved under the folder of the capture. -/
def fileFor (path : String) (html : Bool) : Option (List String) :=
  (segmentsOf path).bind fun segments =>
    let directory := EndsWith "/" path || segments.isEmpty
    match html, directory with
    | true, true => some (segments ++ ["index.html"])
    | true, false => segments.getLast?.map fun last =>
        segments.dropLast ++
          [if extension last ∈ [some "html", some "htm"] then last else last ++ ".html"]
    | false, true => none
    | false, false => some segments

/-! ## The crawl -/

/-- A saved file: its names under the folder of the capture, and its bytes. -/
abbrev Saved := List String × List UInt8

/-- One of them would be a folder that the other is in. -/
def Conflict (file other : List String) : Prop := file ≠ other ∧ (file <+: other ∨ other <+: file)

instance (file other : List String) : Decidable (Conflict file other) :=
  inferInstanceAs (Decidable (_ ∧ _))

/-- Writes a file, and the folders it is in. -/
def write (disk : List Saved) (file : List String) (bytes : List UInt8) : Option (List Saved) :=
  if disk.any fun saved => Conflict saved.1 file then none
  else some (disk.filter (fun saved => saved.1 ≠ file) ++ [(file, bytes)])

inductive CrawlError where
  | unreachable (path : String)
  | io
  deriving DecidableEq

/-- A path that answered with success: whether it is a page, and the body. -/
structure Answered where
  path : String
  html : Bool
  bytes : List UInt8
  deriving DecidableEq

/-- A page as an answer of a path. -/
def Page.answered (page : Page) (path : String) : Answered where
  path
  html := page.kind path = .html
  bytes := page.bytes

structure Crawl where
  queue : List (String × Bool)
  seen : List String := []
  saved : List (List String) := []
  disk : List Saved := []
  report : CrawlReport := {}
  scripts : ℕ := 0
  /-- Nothing has answered yet. -/
  first : Bool := true
  answered : List Answered := []
  deriving DecidableEq

/-- The crawl goes on, or stops. -/
inductive Next where
  | more (s : Crawl)
  | done (s : Crawl)
  | failed (error : CrawlError)
  deriving DecidableEq

namespace Crawl

/-- A path that didn't answer with success. -/
def miss (s : Crawl) (path : String) (sure : Bool) : Crawl :=
  if sure && s.report.failed.length < 50 then
    { s with report := { s.report with failed := s.report.failed ++ [path] } }
  else s

def truncate (s : Crawl) : Crawl := { s with report := { s.report with truncated := true } }

/-- A file that was written is counted, and its links are queued. -/
def save (s : Crawl) (kind : Kind) (page : Page) (file : List String) (disk : List Saved) : Crawl :=
  { s with
    queue := s.queue ++ if kind = .other then [] else page.links kind
    saved := file :: s.saved
    disk
    report := { s.report with
      files := s.report.files + 1
      bytes := s.report.bytes + page.bytes.length
      pages := if kind = .html then s.report.pages + 1 else s.report.pages }
    scripts := if kind = .script then s.scripts + 1 else s.scripts }

/-- The crawl once a path has answered. -/
def answer (s : Crawl) (path : String) (page : Page) : Crawl :=
  { s with
    first := false
    answered := s.answered ++ [page.answered path] }

/-- What a path answered with success. -/
def take (limits : Limits) (s : Crawl) (path : String) (page : Page) : Next :=
  let kind := page.kind path
  let s := s.answer path page
  if kind = .html ∧ limits.pages ≤ s.report.pages then .more s.truncate
  else if MAX_FILE_SIZE < page.bytes.length then .more s
  else match fileFor path (kind = .html) with
    | none => .more s
    | some file =>
        if file ∈ s.saved then .more s
        else match write s.disk file page.bytes with
          | none => .failed .io
          | some disk => .more (s.save kind page file disk)

/-- The next path of the queue. -/
def step (site : Site) (limits : Limits) (s : Crawl) : Next :=
  match s.queue with
  | [] => .done s
  | (path, sure) :: queue =>
      let s := { s with queue }
      if path ∈ s.seen then .more s
      else
        let s := { s with seen := path :: s.seen }
        if limits.files ≤ s.report.files ∨ limits.bytes ≤ s.report.bytes then .done s.truncate
        else match site.get path with
          | none => if s.first then .failed (.unreachable path) else .more (s.miss path sure)
          | some page => s.take limits path page

variable {site : Site} {limits : Limits} {s t : Crawl}

/-- What becomes of a page: it is beyond the limit, it isn't saved, it can't be, or it is. -/
lemma take_cases (limits : Limits) (s : Crawl) (path : String) (page : Page) :
    (page.kind path = .html ∧ limits.pages ≤ s.report.pages ∧
      s.take limits path page = .more (s.answer path page).truncate) ∨
    ¬ (page.kind path = .html ∧ limits.pages ≤ s.report.pages) ∧
      ((∀ file, fileFor path (page.kind path = .html) = some file →
          MAX_FILE_SIZE < page.bytes.length ∨ file ∈ s.saved) ∧
        s.take limits path page = .more (s.answer path page) ∨
      ∃ file, fileFor path (page.kind path = .html) = some file ∧ file ∉ s.saved ∧
        ((write s.disk file page.bytes = none ∧ s.take limits path page = .failed .io) ∨
          ∃ disk, write s.disk file page.bytes = some disk ∧
            s.take limits path page =
              .more ((s.answer path page).save (page.kind path) page file disk))) := by
  rw [take]
  split_ifs with hlimit hsize
  · exact .inl ⟨hlimit.1, hlimit.2, rfl⟩
  · exact .inr ⟨hlimit, .inl ⟨fun _ _ => .inl hsize, rfl⟩⟩
  · refine .inr ⟨hlimit, ?_⟩
    cases hfile : fileFor path (page.kind path = .html) with
    | none => exact .inl ⟨(fun _ h => nomatch h), rfl⟩
    | some file =>
        dsimp only
        split_ifs with hsaved
        · refine .inl ⟨fun other hother => .inr ?_, rfl⟩
          rw [← Option.some.inj hother]
          exact hsaved
        · refine .inr ⟨file, rfl, hsaved, ?_⟩
          cases hwrite : write s.disk file page.bytes with
          | none => exact .inl ⟨rfl, by simp only [answer, hwrite]⟩
          | some disk => exact .inr ⟨disk, rfl, by simp only [answer, hwrite]⟩

/-- The crawl once a path is taken off the queue. -/
def pop (s : Crawl) (path : String) (queue : List (String × Bool)) : Crawl :=
  { s with queue, seen := path :: s.seen }

lemma step_nil (h : s.queue = []) : s.step site limits = .done s := by
  rw [step, h]

/-- What a step does with the path that it takes off the queue. -/
lemma step_cons {path : String} {sure : Bool} {queue : List (String × Bool)}
    (h : s.queue = (path, sure) :: queue) :
    (path ∈ s.seen ∧ s.step site limits = .more { s with queue }) ∨
    (path ∉ s.seen ∧ s.step site limits = .done (s.pop path queue).truncate) ∨
    (path ∉ s.seen ∧ s.report.files < limits.files ∧ s.report.bytes < limits.bytes ∧
      ((site.get path = none ∧ s.step site limits = .failed (.unreachable path)) ∨
        (site.get path = none ∧ s.step site limits = .more ((s.pop path queue).miss path sure)) ∨
        ∃ page, site.get path = some page ∧
          s.step site limits = (s.pop path queue).take limits path page)) := by
  rw [step, h]
  dsimp only
  by_cases hseen : path ∈ s.seen
  · rw [if_pos hseen]
    exact .inl ⟨hseen, rfl⟩
  · rw [if_neg hseen]
    by_cases hlimit : limits.files ≤ s.report.files ∨ limits.bytes ≤ s.report.bytes
    · rw [if_pos hlimit]
      exact .inr (.inl ⟨hseen, rfl⟩)
    · rw [if_neg hlimit]
      refine .inr (.inr ⟨hseen, by omega, by omega, ?_⟩)
      cases hget : site.get path with
      | none =>
          dsimp only
          split_ifs
          · exact .inl ⟨rfl, rfl⟩
          · exact .inr (.inl ⟨rfl, rfl⟩)
      | some page => exact .inr (.inr ⟨page, rfl, rfl⟩)

/-- What a step that goes on does. -/
lemma step_more (h : s.step site limits = .more t) :
    ∃ path sure queue, s.queue = (path, sure) :: queue ∧
      ((path ∈ s.seen ∧ t = { s with queue }) ∨
        (path ∉ s.seen ∧ s.report.files < limits.files ∧ s.report.bytes < limits.bytes ∧
          ((site.get path = none ∧ t = (s.pop path queue).miss path sure) ∨
            ∃ page, site.get path = some page ∧
              (s.pop path queue).take limits path page = .more t))) := by
  cases hqueue : s.queue with
  | nil =>
      rw [step_nil hqueue] at h
      cases h
  | cons next queue =>
      obtain ⟨path, sure⟩ := next
      refine ⟨path, sure, queue, rfl, ?_⟩
      rcases @step_cons site limits s path sure queue hqueue with
        ⟨hseen, hstep⟩ | ⟨-, hstep⟩ | ⟨hseen, hfiles, hbytes, hcases⟩
      · exact .inl ⟨hseen, (Next.more.inj (hstep.symm.trans h)).symm⟩
      · cases hstep.symm.trans h
      · refine .inr ⟨hseen, hfiles, hbytes, ?_⟩
        rcases hcases with ⟨-, hstep⟩ | ⟨hget, hstep⟩ | ⟨page, hget, hstep⟩
        · cases hstep.symm.trans h
        · exact .inl ⟨hget, (Next.more.inj (hstep.symm.trans h)).symm⟩
        · exact .inr ⟨page, hget, hstep.symm.trans h⟩

/-- A step takes a path off the queue, or saves a file within the limit. -/
lemma step_decreases (h : s.step site limits = .more t) :
    (t.report.files = s.report.files ∧ t.queue.length < s.queue.length) ∨
      (s.report.files < limits.files ∧ t.report.files = s.report.files + 1) := by
  obtain ⟨path, sure, queue, hqueue, hstep⟩ := step_more h
  have hlength : queue.length < s.queue.length := by
    rw [hqueue]
    exact Nat.lt_succ_self _
  rcases hstep with ⟨-, rfl⟩ | ⟨-, hlimit, -, ⟨-, rfl⟩ | ⟨page, -, htake⟩⟩
  · exact .inl ⟨rfl, hlength⟩
  · rw [miss]
    split_ifs
    · exact .inl ⟨rfl, hlength⟩
    · exact .inl ⟨rfl, hlength⟩
  · rcases take_cases limits (s.pop path queue) path page with
      ⟨-, -, hmore⟩ | ⟨-, ⟨-, hmore⟩ | ⟨file, -, -, ⟨-, hmore⟩ | ⟨disk, -, hmore⟩⟩⟩
    · rw [← Next.more.inj (hmore.symm.trans htake)]
      exact .inl ⟨rfl, hlength⟩
    · rw [← Next.more.inj (hmore.symm.trans htake)]
      exact .inl ⟨rfl, hlength⟩
    · cases hmore.symm.trans htake
    · rw [← Next.more.inj (hmore.symm.trans htake)]
      exact .inr ⟨hlimit, rfl⟩

/-- The crawl to its end. -/
def run (site : Site) (limits : Limits) (s : Crawl) : Except CrawlError Crawl :=
  match _ : s.step site limits with
  | .done t => .ok t
  | .failed error => .error error
  | .more t => run site limits t
termination_by (limits.files - s.report.files, s.queue.length)
decreasing_by
  rename_i h
  rcases step_decreases h with ⟨hfiles, hqueue⟩ | ⟨hlimit, hfiles⟩
  · rw [hfiles]
    exact Prod.Lex.right _ hqueue
  · exact Prod.Lex.left _ _ (by omega)

/-- The sitemap lists pages that nothing links to. -/
def start (site : Site) (path : String) : Crawl where
  queue := (path, true) :: (if path ≠ "/" then [("/", true)] else []) ++
    (site.get "/sitemap.xml").elim [] fun page => page.locs.map (·, true)

end Crawl

/-- What a crawl leaves. -/
structure Captured where
  report : CrawlReport
  disk : List Saved
  /-- The paths that answered with success, each time they were asked for. -/
  answered : List Answered

/-- One page with scripts is probably an app of a single page. -/
def CrawlReport.finish (report : CrawlReport) (scripts : ℕ) : CrawlReport :=
  { report with singlePage := report.pages = 1 ∧ 0 < scripts }

/-- The favicon is asked for without a link. -/
def favicon (site : Site) (s : Crawl) : Except CrawlError Captured :=
  if ["favicon.ico"] ∈ s.saved then
    .ok { report := s.report.finish s.scripts, disk := s.disk, answered := s.answered }
  else match site.get "/favicon.ico" with
    | none => .ok { report := s.report.finish s.scripts, disk := s.disk, answered := s.answered }
    | some page =>
        let answered := s.answered ++ [page.answered "/favicon.ico"]
        if MAX_FILE_SIZE < page.bytes.length then
          .ok { report := s.report.finish s.scripts, disk := s.disk, answered }
        else match write s.disk ["favicon.ico"] page.bytes with
          | none => .error .io
          | some disk =>
              let report := { s.report with
                files := s.report.files + 1
                bytes := s.report.bytes + page.bytes.length }
              .ok { report := report.finish s.scripts, disk, answered }

end Teitunnel.Snapshots
