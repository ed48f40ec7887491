import Teitunnel.Lib.Lists
import Teitunnel.Snapshots.Crawl
import Mathlib.Logic.Relation

/-!
# What a capture serves

A capture is the site when each path that answered is served with the body it answered with.
Files are served by their names: a folder's page at the folder, another page without its
extension, and what is no page at its own path.
-/

namespace Teitunnel.Snapshots

open Text

/-! ## Files inside the folder -/

/-- A name that leads nowhere else. -/
def IsInner (name : String) : Prop :=
  name ≠ "." ∧ name ≠ ".." ∧ '/' ∉ name.toList ∧ '\\' ∉ name.toList

def Inside (file : List String) : Prop := file ≠ [] ∧ ∀ name ∈ file, IsInner name

lemma isInner_of_safe {segment : String} (h : isUnsafe segment = false) : IsInner segment := by
  simp only [isUnsafe, Bool.or_eq_false_iff, decide_eq_false_iff_not, List.any_eq_false] at h
  obtain ⟨⟨⟨hdot, hdots⟩, -⟩, hchars⟩ := h
  exact ⟨hdot, hdots, fun hc => hchars _ hc (by decide), fun hc => hchars _ hc (by decide)⟩

lemma isInner_page {name : String} (h : IsInner name) : IsInner (name ++ ".html") := by
  have hlength : 5 ≤ (name ++ ".html").toList.length := by
    rw [String.toList_append, List.length_append]
    exact Nat.le_add_left 5 _
  have hchar {c : Char} (hc : c ∈ (name ++ ".html").toList) :
      c ∈ name.toList ∨ c ∈ ".html".toList := by
    rwa [String.toList_append, List.mem_append] at hc
  refine ⟨fun h => ?_, fun h => ?_, fun hc => ?_, fun hc => ?_⟩
  · rw [h] at hlength
    revert hlength
    decide
  · rw [h] at hlength
    revert hlength
    decide
  · rcases hchar hc with hc | hc
    · exact h.2.2.1 hc
    · revert hc
      decide
  · rcases hchar hc with hc | hc
    · exact h.2.2.2 hc
    · revert hc
      decide

lemma isInner_segmentsOf {path : String} {segments : List String}
    (h : segmentsOf path = some segments) {segment : String} (hs : segment ∈ segments) :
    IsInner segment := by
  obtain ⟨raw, -, hraw⟩ := List.mem_of_mapM h hs
  have hsafe := (Option.filter_eq_some_iff.mp hraw).2
  rw [Bool.not_eq_true'] at hsafe
  exact isInner_of_safe hsafe

/-- Where a path is saved is inside the folder. -/
lemma inside_fileFor {path : String} {html : Bool} {file : List String}
    (h : fileFor path html = some file) : Inside file := by
  rw [fileFor] at h
  obtain ⟨segments, hsegments, h⟩ := Option.bind_eq_some_iff.mp h
  have hinner := fun segment => @isInner_segmentsOf path segments hsegments segment
  cases html with
  | false =>
      cases hdirectory : EndsWith "/" path || segments.isEmpty with
      | true =>
          rw [hdirectory] at h
          cases h
      | false =>
          rw [hdirectory] at h
          obtain rfl := Option.some.inj h
          refine ⟨?_, hinner⟩
          rintro rfl
          rw [List.isEmpty_nil, Bool.or_true] at hdirectory
          cases hdirectory
  | true =>
      cases hdirectory : EndsWith "/" path || segments.isEmpty with
      | true =>
          rw [hdirectory] at h
          obtain rfl := Option.some.inj h
          refine ⟨List.append_ne_nil_of_right_ne_nil _ (List.cons_ne_nil _ _), fun name hname => ?_⟩
          rcases List.mem_append.mp hname with hname | hname
          · exact hinner name hname
          · rw [List.mem_singleton.mp hname]
            exact ⟨by decide, by decide, by decide, by decide⟩
      | false =>
          rw [hdirectory] at h
          obtain ⟨last, hlast, rfl⟩ := Option.map_eq_some_iff.mp h
          have hinnerLast := hinner last (List.mem_of_getLast? hlast)
          refine ⟨List.append_ne_nil_of_right_ne_nil _ (List.cons_ne_nil _ _), fun name hname => ?_⟩
          rcases List.mem_append.mp hname with hname | hname
          · exact hinner name (List.mem_of_mem_dropLast hname)
          · rw [List.mem_singleton.mp hname]
            split_ifs
            · exact hinnerLast
            · exact isInner_page hinnerLast

/-! ## How files are served -/

/-- The path that a file is served at, by its parts. -/
def url (file : List String) : List String :=
  "" :: file.dropLast ++ file.getLast?.toList.map fun last =>
    if last = "index.html" then ""
    else if EndsWith ".html" last then String.ofList (last.toList.rdrop 5)
    else last

/-- A path as it is asked for, by its parts. -/
def asked (path : String) : Option (List String) := (split '/' path).mapM percentDecode

/-- A path is served, and with no other bytes. -/
structure Serves (disk : List Saved) (path : String) (bytes : List UInt8) : Prop where
  found : ∃ saved ∈ disk, asked path = some (url saved.1)
  same : ∀ saved ∈ disk, asked path = some (url saved.1) → saved.2 = bytes

/-! ## Writing -/

section

variable {disk disk' : List Saved} {file : List String} {bytes : List UInt8}

/-- A file that is new stands behind the others. -/
lemma write_eq_some (h : write disk file bytes = some disk') (hnew : ∀ b, (file, b) ∉ disk) :
    disk' = disk ++ [(file, bytes)] := by
  rw [write] at h
  split_ifs at h
  have hkeep : disk.filter (fun saved => saved.1 ≠ file) = disk := by
    refine List.filter_eq_self.mpr fun saved hsaved => decide_eq_true ?_
    rintro rfl
    exact hnew saved.2 hsaved
  rw [← Option.some.inj h, hkeep]

end

/-! ## Runs of a crawl -/

namespace Crawl

variable {site : Site} {limits : Limits} {path : String} {s t : Crawl}

/-- The states that a crawl goes through. -/
def Reached (site : Site) (limits : Limits) (path : String) : Crawl → Prop :=
  Relation.ReflTransGen (fun s t => s.step site limits = .more t) (start site path)

/-- A state that a crawl stops with. -/
def Ends (site : Site) (limits : Limits) (path : String) (t : Crawl) : Prop :=
  ∃ s, Reached site limits path s ∧ s.step site limits = .done t

/-- What a crawl stops with is what it had found, unless it was told to stop. -/
lemma step_done (h : s.step site limits = .done t) :
    t = s ∨ ∃ path queue, t = (s.pop path queue).truncate := by
  cases hqueue : s.queue with
  | nil =>
      rw [step_nil hqueue] at h
      exact .inl (Next.done.inj h).symm
  | cons next queue =>
      obtain ⟨path, sure⟩ := next
      rcases @step_cons site limits s path sure queue hqueue with
        ⟨-, hstep⟩ | ⟨-, hstep⟩ | ⟨-, -, -, ⟨-, hstep⟩ | ⟨-, hstep⟩ | ⟨page, -, hstep⟩⟩
      · cases hstep.symm.trans h
      · exact .inr ⟨path, queue, (Next.done.inj (hstep.symm.trans h)).symm⟩
      · cases hstep.symm.trans h
      · cases hstep.symm.trans h
      · rw [h] at hstep
        rcases take_cases limits (s.pop path queue) path page with
          ⟨-, -, htake⟩ | ⟨-, ⟨-, htake⟩ | ⟨file, -, -, ⟨-, htake⟩ | ⟨disk, -, htake⟩⟩⟩
        all_goals cases hstep.trans htake

/-- The next path answers with a page that is saved as a file. -/
def Takes (site : Site) (limits : Limits) (s : Crawl) (path : String) (page : Page)
    (file : List String) : Prop :=
  (∃ sure queue, s.queue = (path, sure) :: queue) ∧ path ∉ s.seen ∧
    s.report.files < limits.files ∧ s.report.bytes < limits.bytes ∧
      site.get path = some page ∧ ¬ (page.kind path = .html ∧ limits.pages ≤ s.report.pages) ∧
        fileFor path (page.kind path = .html) = some file

/-- What is saved is on the disk, counted and within the limits. -/
structure Sound (limits : Limits) (s : Crawl) : Prop where
  saved : ∀ file, file ∈ s.saved ↔ ∃ bytes, (file, bytes) ∈ s.disk
  files : s.report.files = s.disk.length
  room : s.report.files ≤ limits.files
  pages : s.report.pages ≤ limits.pages
  inside : ∀ saved ∈ s.disk, Inside saved.1

lemma sound_start : Sound limits (start site path) where
  saved file := by
    refine iff_of_false (List.not_mem_nil) ?_
    rintro ⟨bytes, hbytes⟩
    cases hbytes
  files := rfl
  room := Nat.zero_le _
  pages := Nat.zero_le _
  inside saved hsaved := by cases hsaved

/-- A step that saves nothing keeps the crawl sound. -/
lemma Sound.of_eq (h : Sound limits s) (hsaved : t.saved = s.saved) (hdisk : t.disk = s.disk)
    (hfiles : t.report.files = s.report.files) (hpages : t.report.pages = s.report.pages) :
    Sound limits t where
  saved file := by
    rw [hsaved, hdisk]
    exact h.saved file
  files := by rw [hfiles, hdisk, h.files]
  room := hfiles ▸ h.room
  pages := hpages ▸ h.pages
  inside := hdisk ▸ h.inside

lemma miss_eq (s : Crawl) (path : String) (sure : Bool) :
    ∃ failed, s.miss path sure = { s with report := { s.report with failed } } := by
  rw [miss]
  split_ifs
  · exact ⟨_, rfl⟩
  · exact ⟨_, rfl⟩

/-- A file that is saved stands behind those saved before. -/
lemma Sound.disk_eq (h : Sound limits s) {file : List String} {bytes : List UInt8}
    {disk : List Saved} (hnew : file ∉ s.saved) (hwrite : write s.disk file bytes = some disk) :
    disk = s.disk ++ [(file, bytes)] :=
  write_eq_some hwrite fun b hb => hnew ((h.saved file).mpr ⟨b, hb⟩)

lemma Sound.step (h : Sound limits s) (hstep : s.step site limits = .more t) : Sound limits t := by
  obtain ⟨path, sure, queue, hqueue, hcases⟩ := step_more hstep
  rcases hcases with ⟨-, rfl⟩ | ⟨-, hfiles, -, ⟨-, rfl⟩ | ⟨page, -, htake⟩⟩
  · exact h.of_eq rfl rfl rfl rfl
  · obtain ⟨failed, heq⟩ := miss_eq (s.pop path queue) path sure
    rw [heq]
    exact h.of_eq rfl rfl rfl rfl
  · rcases take_cases limits (s.pop path queue) path page with
      ⟨-, -, hmore⟩ | ⟨hlimit, ⟨-, hmore⟩ | ⟨file, hfile, hnew, ⟨-, hmore⟩ | ⟨disk, hwrite, hmore⟩⟩⟩
    · rw [← Next.more.inj (hmore.symm.trans htake)]
      exact h.of_eq rfl rfl rfl rfl
    · rw [← Next.more.inj (hmore.symm.trans htake)]
      exact h.of_eq rfl rfl rfl rfl
    · cases hmore.symm.trans htake
    · rw [← Next.more.inj (hmore.symm.trans htake)]
      obtain rfl := h.disk_eq hnew hwrite
      exact {
        saved := fun other => by
          have hmem : other ∈ file :: s.saved ↔
              ∃ bytes, (other, bytes) ∈ s.disk ++ [(file, page.bytes)] := by
            rw [List.mem_cons, h.saved]
            constructor
            · rintro (rfl | ⟨bytes, hbytes⟩)
              · exact ⟨_, List.mem_append_right _ (List.mem_singleton_self _)⟩
              · exact ⟨bytes, List.mem_append_left _ hbytes⟩
            · rintro ⟨bytes, hbytes⟩
              rcases List.mem_append.mp hbytes with hbytes | hbytes
              · exact .inr ⟨bytes, hbytes⟩
              · exact .inl (Prod.mk.inj (List.mem_singleton.mp hbytes)).1
          exact hmem
        files := by
          have hlength : s.report.files + 1 = (s.disk ++ [(file, page.bytes)]).length := by
            rw [List.length_append, h.files]
            rfl
          exact hlength
        room := hfiles
        pages := by
          have hpages : (if page.kind path = .html then s.report.pages + 1 else s.report.pages) ≤
              limits.pages := by
            split_ifs with hkind
            · by_contra hfull
              have := h.pages
              exact hlimit ⟨hkind, by
                have : (s.pop path queue).report.pages = s.report.pages := rfl
                omega⟩
            · exact h.pages
          exact hpages
        inside := fun saved hsaved => by
          rcases List.mem_append.mp hsaved with hsaved | hsaved
          · exact h.inside saved hsaved
          · rw [List.mem_singleton.mp hsaved]
            exact inside_fileFor hfile }

lemma sound (h : Reached site limits path s) : Sound limits s := by
  induction h with
  | refl => exact sound_start
  | tail _ hstep ih => exact ih.step hstep

/-! ## Crawls that capture a site -/

end Crawl

/-- The body of a path can be saved as a file that is served there. -/
structure Fits (disk : List Saved) (path : String) (file : List String) (page : Page) : Prop where
  size : page.bytes.length ≤ MAX_FILE_SIZE
  place : asked path = some (url file)
  /-- No file would be a folder of another. -/
  apart : ∀ saved ∈ disk, ¬ Conflict saved.1 file
  /-- What is served there already is the same. -/
  same : ∀ saved ∈ disk, url saved.1 = url file → saved.2 = page.bytes

/-- Each body that the crawl asks for can be saved. -/
structure Clear (site : Site) (limits : Limits) (path : String) : Prop where
  steps : ∀ s p page file, Crawl.Reached site limits path s → s.Takes site limits p page file →
    Fits s.disk p file page
  favicon : ∀ s page, Crawl.Ends site limits path s → ["favicon.ico"] ∉ s.saved →
    site.get "/favicon.ico" = some page →
      s.report.files < limits.files ∧ Fits s.disk "/favicon.ico" ["favicon.ico"] page
  sitemap : ∀ s page, Crawl.Ends site limits path s → site.get "/sitemap.xml" = some page →
    "/sitemap.xml" ∈ s.seen

/-- What was answered is on the disk, and served with nothing else. -/
structure Whole (disk : List Saved) (answered : List Answered) : Prop where
  same : ∀ saved ∈ disk, ∀ other ∈ disk, url saved.1 = url other.1 → saved.2 = other.2
  saved : ∀ a ∈ answered, fileFor a.path a.html ≠ none →
    ∃ file, asked a.path = some (url file) ∧ (file, a.bytes) ∈ disk

variable {site : Site} {limits : Limits} {path : String} {disk : List Saved}
  {answered : List Answered} {s t : Crawl} {page : Page} {file : List String}

lemma Whole.serves (h : Whole disk answered) {a : Answered} (ha : a ∈ answered)
    (hfile : fileFor a.path a.html ≠ none) : Serves disk a.path a.bytes := by
  obtain ⟨file, hasked, hsaved⟩ := h.saved a ha hfile
  refine ⟨⟨_, hsaved, hasked⟩, fun other hother hserved => ?_⟩
  rw [hasked, Option.some_inj] at hserved
  exact h.same other hother _ hsaved hserved.symm

/-- A file is added that is served with what was served there. -/
lemma Whole.snoc (h : Whole disk answered) (hfits : Fits disk path file page) :
    Whole (disk ++ [(file, page.bytes)]) answered where
  same saved hsaved other hother hurl := by
    rcases List.mem_append.mp hsaved with hold | hnew
    · rcases List.mem_append.mp hother with hold' | hnew'
      · exact h.same saved hold other hold' hurl
      · obtain rfl := List.mem_singleton.mp hnew'
        exact hfits.same saved hold hurl
    · obtain rfl := List.mem_singleton.mp hnew
      rcases List.mem_append.mp hother with hold' | hnew'
      · exact (hfits.same other hold' hurl.symm).symm
      · rw [List.mem_singleton.mp hnew']
  saved a ha hfile := by
    obtain ⟨file, hasked, hsaved⟩ := h.saved a ha hfile
    exact ⟨file, hasked, List.mem_append_left _ hsaved⟩

/-- An answer is added that is on the disk, when it can be. -/
lemma Whole.answer (h : Whole disk answered) {p : String}
    (hpage : fileFor p (page.kind p = .html) ≠ none →
      ∃ file, asked p = some (url file) ∧ (file, page.bytes) ∈ disk) :
    Whole disk (answered ++ [page.answered p]) where
  same := h.same
  saved b hb hfile := by
    rcases List.mem_append.mp hb with hb | hb
    · exact h.saved b hb hfile
    · rw [List.mem_singleton.mp hb] at hfile ⊢
      exact hpage hfile

namespace Crawl

/-- What has been asked for was answered, and what was answered is on the disk. -/
structure Good (site : Site) (s : Crawl) : Prop where
  seen : ∀ p ∈ s.seen, ∀ page, site.get p = some page → page.answered p ∈ s.answered
  whole : s.report.truncated = false → Whole s.disk s.answered

lemma good_start : Good site (start site path) where
  seen p hp := by cases hp
  whole _ :=
    { same := fun saved hsaved => by cases hsaved
      saved := fun a ha => by cases ha }

/-- What a crawl asks for next is answered. -/
lemma Good.asked (h : Good site s) {p : String} (hget : site.get p = some page) :
    ∀ q ∈ p :: s.seen, ∀ other, site.get q = some other →
      other.answered q ∈ s.answered ++ [page.answered p] := by
  intro q hq other hother
  rcases List.mem_cons.mp hq with rfl | hq
  · rw [hget] at hother
    rw [Option.some.inj hother]
    exact List.mem_append_right _ (List.mem_singleton_self _)
  · exact List.mem_append_left _ (h.seen q hq other hother)

/-- A file that was saved before has the bytes that fit. -/
lemma Sound.mem_of_fits (h : Sound limits s) {p : String} (hfits : Fits s.disk p file page)
    (hsaved : MAX_FILE_SIZE < page.bytes.length ∨ file ∈ s.saved) :
    (file, page.bytes) ∈ s.disk := by
  rcases hsaved with hbig | hold
  · exact absurd hfits.size (Nat.not_le_of_lt hbig)
  · obtain ⟨bytes, hbytes⟩ := (h.saved file).mp hold
    have heq := hfits.same _ hbytes rfl
    exact heq ▸ hbytes

lemma Good.take (h : Good site s) (hsound : Sound limits s) {p : String}
    {queue : List (String × Bool)} (hget : site.get p = some page)
    (hfits : ¬ (page.kind p = .html ∧ limits.pages ≤ s.report.pages) →
      ∀ file, fileFor p (page.kind p = .html) = some file → Fits s.disk p file page)
    (htake : (s.pop p queue).take limits p page = .more t) : Good site t := by
  rcases take_cases limits (s.pop p queue) p page with
    ⟨-, -, hmore⟩ | ⟨hlimit, ⟨hkept, hmore⟩ |
      ⟨file, hfile, hnew, ⟨-, hmore⟩ | ⟨disk, hwrite, hmore⟩⟩⟩
  · rw [← Next.more.inj (hmore.symm.trans htake)]
    exact ⟨h.asked hget, fun htruncated => by cases htruncated⟩
  · rw [← Next.more.inj (hmore.symm.trans htake)]
    refine ⟨h.asked hget, fun htruncated => (h.whole htruncated).answer fun hne => ?_⟩
    obtain ⟨file, hfile⟩ := Option.ne_none_iff_exists'.mp hne
    have hfit := hfits hlimit file hfile
    exact ⟨file, hfit.place, hsound.mem_of_fits hfit (hkept file hfile)⟩
  · cases hmore.symm.trans htake
  · rw [← Next.more.inj (hmore.symm.trans htake)]
    obtain rfl := hsound.disk_eq hnew hwrite
    have hfit := hfits hlimit file hfile
    exact ⟨h.asked hget, fun htruncated => ((h.whole htruncated).snoc hfit).answer fun _ =>
      ⟨file, hfit.place, List.mem_append_right _ (List.mem_singleton_self _)⟩⟩

lemma Good.step (h : Good site s) (hsound : Sound limits s)
    (hfits : ∀ p page file, s.Takes site limits p page file → Fits s.disk p file page)
    (hstep : s.step site limits = .more t) : Good site t := by
  obtain ⟨p, sure, queue, hqueue, hcases⟩ := step_more hstep
  rcases hcases with ⟨-, rfl⟩ | ⟨hseen, hfiles, hbytes, ⟨hget, rfl⟩ | ⟨page, hget, htake⟩⟩
  · exact ⟨h.seen, h.whole⟩
  · obtain ⟨failed, heq⟩ := miss_eq (s.pop p queue) p sure
    rw [heq]
    refine ⟨fun q hq page hpage => ?_, h.whole⟩
    rcases List.mem_cons.mp hq with rfl | hq
    · rw [hget] at hpage
      cases hpage
    · exact h.seen q hq page hpage
  · exact h.take hsound hget (fun hlimit file hfile =>
      hfits p page file ⟨⟨sure, queue, hqueue⟩, hseen, hfiles, hbytes, hget, hlimit, hfile⟩) htake

lemma good (hclear : Clear site limits path) (h : Reached site limits path s) : Good site s := by
  induction h with
  | refl => exact good_start
  | tail hreach hstep ih =>
      exact ih.step (sound hreach) (fun p page file => hclear.steps _ p page file hreach) hstep

/-- What a crawl stops with is sound, and good unless it was told to stop. -/
lemma Ends.sound (h : Ends site limits path t) : Sound limits t := by
  obtain ⟨s, hreach, hdone⟩ := h
  rcases step_done hdone with rfl | ⟨p, queue, rfl⟩
  · exact Crawl.sound hreach
  · exact (Crawl.sound hreach).of_eq rfl rfl rfl rfl

lemma Ends.good (hclear : Clear site limits path) (h : Ends site limits path t)
    (hwhole : t.report.truncated = false) : Good site t := by
  obtain ⟨s, hreach, hdone⟩ := h
  rcases step_done hdone with rfl | ⟨p, queue, rfl⟩
  · exact Crawl.good hclear hreach
  · cases hwhole

end Crawl

/-! ## The favicon -/

/-- What is left when each body fits. -/
structure Kept (limits : Limits) (c : Captured) : Prop where
  files : c.report.files = c.disk.length ∧ c.disk.length ≤ limits.files
  pages : c.report.pages ≤ limits.pages
  inside : ∀ saved ∈ c.disk, Inside saved.1

/-- The sitemap is on the disk when the crawl asked for it as well. -/
lemma Whole.sitemap (h : Whole disk answered)
    (hseen : ∀ page, site.get "/sitemap.xml" = some page →
      page.answered "/sitemap.xml" ∈ answered) :
    Whole disk
      (((site.get "/sitemap.xml").map (·.answered "/sitemap.xml")).toList ++ answered) where
  same := h.same
  saved a ha hfile := by
    rcases List.mem_append.mp ha with ha | ha
    · obtain ⟨page, hpage, rfl⟩ := Option.map_eq_some_iff.mp (Option.mem_toList.mp ha)
      exact h.saved _ (hseen page hpage) hfile
    · exact h.saved a ha hfile

end Teitunnel.Snapshots
