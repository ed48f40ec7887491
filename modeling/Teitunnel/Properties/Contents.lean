import Teitunnel.Lib.Fallible
import Teitunnel.Snapshots.Content

/-!
# What a folder publishes

The walk goes by names on the way down, and by its target where it meets a link.  A link with a
harmless name publishes whatever file of the folder it leads to.
-/

namespace Teitunnel.Snapshots

open Text Files

/-- Every name on the path may be published: those of folders, and that of the file at the end. -/
def ServablePath : List FileName → Prop
  | [] => True
  | name :: rest => (∃ s, name = .text s ∧ servable s !rest.isEmpty) ∧ ServablePath rest

/-- The walk goes along the path from a folder. -/
def Entered (dir : List FileName) (path : List FileName) : Prop :=
  ServablePath path ∧ (dir = [] → ∀ s ∈ CONFIG, path.head? ≠ some (.text s))

/-- The bytes that are published of what is at a path: no folder. -/
def leafBytes (place : Place) (path : List FileName) : Node → Option (List UInt8)
  | .file bytes => some bytes
  | .link _ _ => linked place path
  | _ => none

/-- What the walk publishes of a node, and the path below it that it is at. -/
def Published (place : Place) (path : List FileName) (node : Node) (below : List FileName)
    (bytes : List UInt8) : Prop :=
  ∃ leaf, node.get below = some leaf ∧ leafBytes place (path ++ below) leaf = some bytes

lemma child_eq_some {entries : List (FileName × Node)} (h : (entries.map Prod.fst).Nodup)
    {n : FileName} {node : Node} :
    (Files.Node.dir entries).child n = some node ↔ (n, node) ∈ entries := by
  rw [Files.Node.child, Option.map_eq_some_iff]
  constructor
  · rintro ⟨entry, hfind, rfl⟩
    have hname : entry.1 = n := by simpa using List.find?_some hfind
    rw [← hname]
    exact List.mem_of_find?_eq_some hfind
  · intro hmem
    cases hfind : entries.find? fun entry => entry.1 = n with
    | none =>
        have hnot := List.find?_eq_none.mp hfind _ hmem
        simp at hnot
    | some entry =>
        have hname : entry.1 = n := by simpa using List.find?_some hfind
        have hentry := List.mem_of_find?_eq_some hfind
        rw [List.inj_on_of_nodup_map h hentry hmem hname]
        exact ⟨_, rfl, rfl⟩

lemma Proper.nodup {entries : List (FileName × Node)} (h : Proper (.dir entries)) :
    (entries.map Prod.fst).Nodup := (h [] entries rfl).1

lemma Proper.entry {entries : List (FileName × Node)} (h : Proper (.dir entries))
    {entry : FileName × Node} (hmem : entry ∈ entries) : Proper entry.2 := by
  intro path entries' hget
  refine h (entry.1 :: path) entries' ?_
  rw [Files.Node.get_cons, (child_eq_some h.nodup).mpr hmem]
  exact hget

lemma proper_leaf {node : Node} (h : node.isDir = false) : Proper node := by
  intro path entries hget
  cases path with
  | nil =>
      rw [Option.some.inj hget] at h
      cases h
  | cons n rest =>
      rw [Files.Node.isDir_of_get hget] at h
      cases h

lemma proper_dir {entries : List (FileName × Node)} (hnodup : (entries.map Prod.fst).Nodup)
    (hslash : ∀ s node, (FileName.text s, node) ∈ entries → '/' ∉ s.toList)
    (hentries : ∀ entry ∈ entries, Proper entry.2) : Proper (.dir entries) := by
  intro path entries' hget
  cases path with
  | nil =>
      obtain rfl := Files.Node.dir.inj (Option.some.inj hget)
      exact ⟨hnodup, hslash⟩
  | cons n rest =>
      rw [Files.Node.get_cons, Option.bind_eq_some_iff] at hget
      obtain ⟨node, hchild, hget⟩ := hget
      exact hentries _ ((child_eq_some hnodup).mp hchild) rest entries' hget

/-! ## What is added -/

/-- The URL path of a file. -/
def urlOf (path : List FileName) : String := "/" ++ (relative path).getD ""

/-- The walk adds the files of `S`, each once. -/
def Adds (S : List FileName → List UInt8 → Prop) (w w' : Walk) : Prop :=
  ∃ added : List (List FileName × List UInt8),
    w'.files = w.files ++ added.map (fun f => siteFile (urlOf f.1) f.2) ∧
      (∀ path bytes, (path, bytes) ∈ added ↔ S path bytes) ∧ (added.map Prod.fst).Nodup

variable {S T : List FileName → List UInt8 → Prop} {w w' w'' : Walk}

lemma Adds.nothing (h : w'.files = w.files) (hS : ∀ path bytes, ¬ S path bytes) : Adds S w w' :=
  ⟨[], by rw [List.map_nil, List.append_nil, h],
    fun path bytes => iff_of_false List.not_mem_nil (hS path bytes), List.nodup_nil⟩

lemma Adds.one {path : List FileName} {bytes : List UInt8}
    (h : w'.files = w.files ++ [siteFile (urlOf path) bytes])
    (hS : ∀ path' bytes', S path' bytes' ↔ path' = path ∧ bytes' = bytes) : Adds S w w' := by
  refine ⟨[(path, bytes)], h, fun path' bytes' => ?_, List.nodup_singleton _⟩
  rw [List.mem_singleton, Prod.mk.injEq, hS]

lemma Adds.congr (h : Adds S w w') (hST : ∀ path bytes, S path bytes ↔ T path bytes) :
    Adds T w w' := by
  obtain ⟨added, hfiles, hmem, hnodup⟩ := h
  exact ⟨added, hfiles, fun path bytes => (hmem path bytes).trans (hST path bytes), hnodup⟩

lemma Adds.trans (h : Adds S w w') (h' : Adds T w' w'')
    (hdisjoint : ∀ path bytes bytes', S path bytes → ¬ T path bytes') :
    Adds (fun path bytes => S path bytes ∨ T path bytes) w w'' := by
  obtain ⟨added, hfiles, hmem, hnodup⟩ := h
  obtain ⟨added', hfiles', hmem', hnodup'⟩ := h'
  refine ⟨added ++ added', ?_, fun path bytes => ?_, ?_⟩
  · rw [hfiles', hfiles, List.map_append, List.append_assoc]
  · rw [List.mem_append, hmem, hmem']
  · rw [List.map_append, List.nodup_append]
    refine ⟨hnodup, hnodup', ?_⟩
    rintro path hold _ hnew rfl
    obtain ⟨⟨_, bytes⟩, hin, rfl⟩ := List.mem_map.mp hold
    obtain ⟨⟨_, bytes'⟩, hin', hpath⟩ := List.mem_map.mp hnew
    dsimp only at hpath
    subst hpath
    exact hdisjoint _ _ _ ((hmem _ _).mp hin) ((hmem' _ _).mp hin')

/-! ## The walk -/

/-- Every name on the path is text. -/
def IsText (path : List FileName) : Prop := ∀ n ∈ path, ∃ s, n = .text s

lemma relative_of_isText {path : List FileName} (h : IsText path) :
    ∃ names : List String, path = names.map .text ∧ relative path = some ("/".intercalate names) := by
  have hnames : ∃ names : List String, path = names.map .text ∧
      path.mapM FileName.toStr = some names := by
    induction path with
    | nil => exact ⟨[], rfl, rfl⟩
    | cons n rest ih =>
        obtain ⟨s, rfl⟩ := h n List.mem_cons_self
        obtain ⟨names, rfl, hmap⟩ := ih fun m hm => h m (List.mem_cons_of_mem _ hm)
        refine ⟨s :: names, rfl, ?_⟩
        rw [List.mapM_cons, hmap]
        rfl
  obtain ⟨names, hpath, hmap⟩ := hnames
  exact ⟨names, hpath, by rw [relative, hmap, Option.map_some]⟩

lemma push_adds {path : List FileName} {bytes : List UInt8} (htext : IsText path)
    (h : w.push path bytes = .ok w') : w'.files = w.files ++ [siteFile (urlOf path) bytes] := by
  obtain ⟨names, -, hrelative⟩ := relative_of_isText htext
  rw [Walk.push, hrelative] at h
  dsimp only at h
  split_ifs at h
  rw [← Except.ok.inj h, urlOf, hrelative, Option.getD_some]

variable {place : Place}

/-- What a node adds: itself, or what the walk enters below it. -/
def Below (place : Place) (path : List FileName) (node : Node) (path' : List FileName)
    (bytes : List UInt8) : Prop :=
  ∃ below, path' = path ++ below ∧ Entered path below ∧ Published place path node below bytes

lemma published_leaf {path below : List FileName} {node : Node} {bytes : List UInt8}
    (hdir : node.isDir = false) :
    Published place path node below bytes ↔ below = [] ∧ leafBytes place path node = some bytes := by
  constructor
  · rintro ⟨leaf, hget, hleaf⟩
    cases below with
    | nil =>
        obtain rfl := Option.some.inj hget
        rw [List.append_nil] at hleaf
        exact ⟨rfl, hleaf⟩
    | cons n rest =>
        rw [Files.Node.isDir_of_get hget] at hdir
        cases hdir
  · rintro ⟨rfl, hleaf⟩
    exact ⟨node, rfl, by rw [List.append_nil]; exact hleaf⟩

lemma below_leaf {path path' : List FileName} {node : Node} {bytes : List UInt8}
    (hdir : node.isDir = false) :
    Below place path node path' bytes ↔ path' = path ∧ leafBytes place path node = some bytes := by
  constructor
  · rintro ⟨below, rfl, -, hpublished⟩
    obtain ⟨rfl, hleaf⟩ := (published_leaf hdir).mp hpublished
    exact ⟨List.append_nil path, hleaf⟩
  · rintro ⟨rfl, hleaf⟩
    refine ⟨[], (List.append_nil _).symm, ⟨trivial, fun _ _ _ h => nomatch h⟩, ?_⟩
    exact (published_leaf hdir).mpr ⟨rfl, hleaf⟩

lemma isConfig_iff {dir : List FileName} {name : String} :
    isConfig dir name = true ↔ dir = [] ∧ name ∈ CONFIG := by
  rw [isConfig, Bool.and_eq_true, List.isEmpty_iff, List.contains_iff_mem]

/-- What an entry of a folder adds. -/
def BelowEntry (place : Place) (dir : List FileName) (entry : FileName × Node)
    (path : List FileName) (bytes : List UInt8) : Prop :=
  ∃ below, path = dir ++ entry.1 :: below ∧ Entered dir (entry.1 :: below) ∧
    Published place (dir ++ [entry.1]) entry.2 below bytes

/-- Files are below folders only. -/
lemma Published.isDir {path below : List FileName} {node : Node} {bytes : List UInt8}
    (h : Published place path node below bytes) : node.isDir = !below.isEmpty := by
  obtain ⟨leaf, hget, hleaf⟩ := h
  cases below with
  | nil =>
      obtain rfl := Option.some.inj hget
      cases node with
      | dir => cases hleaf
      | file => rfl
      | link => rfl
      | special => rfl
  | cons n rest => exact Files.Node.isDir_of_get hget

lemma belowEntry_text {dir path : List FileName} {name : String} {node : Node}
    {bytes : List UInt8} (hskip : skipReason name node.isDir = none)
    (hconfig : ¬ isConfig dir name = true) :
    Below place (dir ++ [.text name]) node path bytes ↔
      BelowEntry place dir (.text name, node) path bytes := by
  have hassoc : ∀ below, dir ++ [FileName.text name] ++ below = dir ++ .text name :: below := by
    intro below
    simp
  constructor
  · rintro ⟨below, rfl, ⟨hservable, -⟩, hpublished⟩
    refine ⟨below, hassoc below, ⟨⟨⟨name, rfl, ?_⟩, hservable⟩, ?_⟩, hpublished⟩
    · rw [servable, ← hpublished.isDir, hskip]
      rfl
    · rintro hdir s hs hhead
      obtain rfl := FileName.text.inj (Option.some.inj hhead)
      exact hconfig (isConfig_iff.mpr ⟨hdir, hs⟩)
  · rintro ⟨below, rfl, ⟨⟨-, hservable⟩, -⟩, hpublished⟩
    refine ⟨below, (hassoc below).symm, ⟨hservable, fun hnil => ?_⟩, hpublished⟩
    exact absurd hnil (List.append_ne_nil_of_right_ne_nil _ (List.cons_ne_nil _ _))

lemma visitEntry_adds {dir : List FileName} {entry : FileName × Node} (hdir : IsText dir)
    (hnode : ∀ path w w', IsText path → visit place path entry.2 w = .ok w' →
      Adds (Below place path entry.2) w w')
    (h : visitEntry place dir entry w = .ok w') : Adds (BelowEntry place dir entry) w w' := by
  obtain ⟨name, node⟩ := entry
  cases name with
  | bytes name =>
      refine Adds.nothing (by rw [← Except.ok.inj h]; rfl) ?_
      rintro path bytes ⟨below, -, ⟨⟨⟨s, hs, -⟩, -⟩, -⟩, -⟩
      cases hs
  | text name =>
      rw [visitEntry_text] at h
      split at h
      · rename_i reason hskip
        refine Adds.nothing (by rw [← Except.ok.inj h]; rfl) ?_
        rintro path bytes ⟨below, -, ⟨⟨⟨s, hs, hservable⟩, -⟩, -⟩, hpublished⟩
        obtain rfl := FileName.text.inj hs
        rw [← hpublished.isDir, servable, hskip] at hservable
        cases hservable
      · rename_i hskip
        split_ifs at h with hconfig
        · refine Adds.nothing (by rw [← Except.ok.inj h]) ?_
          rintro path bytes ⟨below, -, ⟨-, htop⟩, -⟩
          obtain ⟨hdir, hname⟩ := isConfig_iff.mp hconfig
          exact htop hdir name hname rfl
        · have htext : IsText (dir ++ [.text name]) := by
            intro n hn
            rcases List.mem_append.mp hn with hold | hnew
            · exact hdir n hold
            · exact ⟨name, List.mem_singleton.mp hnew⟩
          exact (hnode _ _ _ htext h).congr fun path bytes => belowEntry_text hskip hconfig

lemma visitAll_adds {dir : List FileName} {entries : List (FileName × Node)} (hdir : IsText dir)
    (hnodup : (entries.map Prod.fst).Nodup)
    (hnodes : ∀ entry ∈ entries, ∀ path w w', IsText path → visit place path entry.2 w = .ok w' →
      Adds (Below place path entry.2) w w')
    (h : visitAll place dir entries w = .ok w') :
    Adds (fun path bytes => ∃ entry ∈ entries, BelowEntry place dir entry path bytes) w w' := by
  induction entries generalizing w with
  | nil =>
      refine Adds.nothing (by rw [← Except.ok.inj h]) ?_
      rintro path bytes ⟨entry, hmem, -⟩
      exact absurd hmem List.not_mem_nil
  | cons entry rest ih =>
      rw [visitAll_cons] at h
      obtain ⟨w₁, hentry, h⟩ := Except.bind_eq_ok.mp h
      rw [List.map_cons, List.nodup_cons] at hnodup
      have hfirst := visitEntry_adds hdir (hnodes entry List.mem_cons_self) hentry
      have hrest := ih hnodup.2 (fun e he => hnodes e (List.mem_cons_of_mem entry he)) h
      refine (hfirst.trans hrest ?_).congr fun path bytes => ?_
      · rintro path bytes bytes' ⟨below, rfl, -⟩ ⟨other, hother, below', hpath, -⟩
        have hname : entry.1 = other.1 := (List.cons.inj (List.append_cancel_left hpath)).1
        exact hnodup.1 (hname ▸ List.mem_map_of_mem hother)
      · simp only [List.mem_cons, exists_eq_or_imp]

/-- The walk adds what is published below a node. -/
lemma visit_adds (node : Node) (hproper : Proper node) : ∀ path w w', IsText path →
    visit place path node w = .ok w' → Adds (Below place path node) w w' := by
  induction node using Files.Node.induction with
  | file bytes =>
      intro path w w' htext h
      rw [visit_file] at h
      refine Adds.one (push_adds htext h) fun path' bytes' => ?_
      rw [below_leaf rfl, leafBytes, Option.some_inj, eq_comm (a := bytes)]
  | link absolute target =>
      intro path w w' htext h
      rw [visit_link] at h
      split at h
      · rename_i bytes hlinked
        refine Adds.one (push_adds htext h) fun path' bytes' => ?_
        rw [below_leaf rfl, leafBytes, hlinked, Option.some_inj, eq_comm (a := bytes)]
      · rename_i hlinked
        refine Adds.nothing (by rw [← Except.ok.inj h]; rfl) fun path' bytes' => ?_
        rw [below_leaf rfl, leafBytes, hlinked]
        rintro ⟨-, hnone⟩
        cases hnone
  | special =>
      intro path w w' htext h
      rw [visit_special] at h
      refine Adds.nothing (by rw [← Except.ok.inj h]; rfl) fun path' bytes' => ?_
      rw [below_leaf rfl]
      rintro ⟨-, hnone⟩
      cases hnone
  | dir entries ih =>
      intro path w w' htext h
      rw [visit_dir] at h
      have hall := visitAll_adds htext hproper.nodup
        (fun entry hentry => ih entry hentry (hproper.entry hentry)) h
      refine hall.congr fun path' bytes => ?_
      constructor
      · rintro ⟨entry, hentry, below, rfl, hentered, leaf, hget, hleaf⟩
        refine ⟨entry.1 :: below, rfl, hentered, leaf, ?_, ?_⟩
        · rw [Files.Node.get_cons, (child_eq_some hproper.nodup).mpr hentry]
          exact hget
        · simpa using hleaf
      · rintro ⟨below, rfl, hentered, leaf, hget, hleaf⟩
        cases below with
        | nil =>
            obtain rfl := Option.some.inj hget
            cases hleaf
        | cons n below =>
            rw [Files.Node.get_cons, Option.bind_eq_some_iff] at hget
            obtain ⟨node, hchild, hget⟩ := hget
            have hentry := (child_eq_some hproper.nodup).mp hchild
            exact ⟨(n, node), hentry, below, rfl, hentered, leaf, hget, by simpa using hleaf⟩

/-! ## The result -/

lemma not_mem_of_get {node leaf : Node} (hproper : Proper node) {path : List FileName} {s : String}
    (hget : node.get path = some leaf) (hs : .text s ∈ path) : '/' ∉ s.toList := by
  induction path generalizing node with
  | nil => exact absurd hs List.not_mem_nil
  | cons n rest ih =>
      rw [Files.Node.get_cons, Option.bind_eq_some_iff] at hget
      obtain ⟨child, hchild, hrest⟩ := hget
      cases node with
      | dir entries =>
          have hmem := (child_eq_some hproper.nodup).mp hchild
          rcases List.mem_cons.mp hs with rfl | hs
          · exact (hproper [] entries rfl).2 s child hmem
          · exact ih (hproper.entry hmem) hrest hs
      | file => cases hchild
      | link => cases hchild
      | special => cases hchild

lemma isText_of_servablePath {path : List FileName} (h : ServablePath path) : IsText path := by
  induction path with
  | nil => exact fun _ hn => absurd hn List.not_mem_nil
  | cons n rest ih =>
      obtain ⟨⟨s, rfl, -⟩, hrest⟩ := h
      intro m hm
      rcases List.mem_cons.mp hm with rfl | hm
      · exact ⟨s, rfl⟩
      · exact ih hrest m hm

/-- Two paths of the folder with one URL are one. -/
lemma urlOf_injective {node leaf leaf' : Node} (hproper : Proper node) {path path' : List FileName}
    (hget : node.get path = some leaf) (hget' : node.get path' = some leaf')
    (hne : path ≠ []) (hne' : path' ≠ []) (htext : IsText path) (htext' : IsText path')
    (h : urlOf path = urlOf path') : path = path' := by
  obtain ⟨names, rfl, hrelative⟩ := relative_of_isText htext
  obtain ⟨names', rfl, hrelative'⟩ := relative_of_isText htext'
  have hslash : ∀ name ∈ names, '/' ∉ name.toList := fun name hname =>
    not_mem_of_get hproper hget (List.mem_map_of_mem hname)
  have hslash' : ∀ name ∈ names', '/' ∉ name.toList := fun name hname =>
    not_mem_of_get hproper hget' (List.mem_map_of_mem hname)
  rw [urlOf, urlOf, hrelative, hrelative', Option.getD_some, Option.getD_some] at h
  have hjoined := (String.append_right_inj "/").mp h
  have hsplit := congrArg (split '/') hjoined
  have hnames : names ≠ [] := fun hnil => hne (by rw [hnil, List.map_nil])
  have hnames' : names' ≠ [] := fun hnil => hne' (by rw [hnil, List.map_nil])
  have hcut : split '/' ("/".intercalate names) = names := split_joined hnames hslash
  have hcut' : split '/' ("/".intercalate names') = names' := split_joined hnames' hslash'
  rw [hcut, hcut'] at hsplit
  rw [hsplit]

variable {disk : Disk} {limit : ℕ} {folder : List (Component FileName)} {base : List FileName}
  {c : Collected}

/-- What is published at a path of the folder. -/
def At (place : Place) (path : List FileName) (bytes : List UInt8) : Prop :=
  Entered [] path ∧ ∃ leaf, place.disk.root.get (place.folder ++ path) = some leaf ∧
    leafBytes place path leaf = some bytes

lemma Proper.below {node node' : Node} (h : Proper node) {path : List FileName}
    (hget : node.get path = some node') : Proper node' := by
  intro path' entries hentries
  refine h (path ++ path') entries ?_
  rw [Files.Node.get_append, hget, Option.bind_some, hentries]

lemma At.leaf {place : Place} {path : List FileName} {bytes : List UInt8} (h : At place path bytes) :
    ∃ leaf, place.disk.root.get (place.folder ++ path) = some leaf ∧ leaf.isDir = false ∧ ServablePath path := by
  obtain ⟨hentered, leaf, hleaf, hbytes⟩ := h
  refine ⟨leaf, hleaf, ?_, hentered.1⟩
  cases leaf with
  | dir => cases hbytes
  | file => rfl
  | link => rfl
  | special => rfl

/-- The folder and what is collected of it. -/
lemma collect_ok (hbase : disk.root.canonicalize limit [] folder = some base)
    (h : collect disk limit folder = .ok c) :
    ∃ entries w, disk.root.get base = some (.dir entries) ∧
      visitAll { disk, limit, folder := base } [] entries {} = .ok w ∧ c.files.Perm w.files := by
  rw [collect, hbase] at h
  obtain ⟨_, hfolder, h⟩ := Except.bind_eq_ok.mp h
  obtain rfl := Except.ok.inj hfolder
  split at h
  · rename_i entries hget
    obtain ⟨_, hentries, h⟩ := Except.bind_eq_ok.mp h
    obtain rfl := Except.ok.inj hentries
    obtain ⟨w, hw, h⟩ := Except.bind_eq_ok.mp h
    split_ifs at h with hempty
    obtain ⟨headers, -, h⟩ := Except.bind_eq_ok.mp h
    obtain ⟨redirects, -, h⟩ := Except.bind_eq_ok.mp h
    rw [← Except.pure_eq_ok.mp h]
    exact ⟨entries, w, hget, hw, List.perm_insertionSort _ _⟩
  · obtain ⟨_, hfolder, -⟩ := Except.bind_eq_ok.mp h
    cases hfolder

/-- The files collected are those published at the paths of the folder, each once. -/
lemma files_spec (hbase : disk.root.canonicalize limit [] folder = some base)
    (h : collect disk limit folder = .ok c) :
    ∃ entries, disk.root.get base = some (.dir entries) ∧
    ∃ added : List (List FileName × List UInt8),
      c.files.Perm (added.map fun f => siteFile (urlOf f.1) f.2) ∧
        (∀ path bytes, (path, bytes) ∈ added ↔ At { disk, limit, folder := base } path bytes) ∧
          (added.map Prod.fst).Nodup := by
  obtain ⟨entries, w, hget, hw, hperm⟩ := collect_ok hbase h
  have hproper := disk.proper.below hget
  have hget' : ∀ path, disk.root.get (base ++ path) = (Files.Node.dir entries).get path := by
    intro path
    rw [Files.Node.get_append, hget, Option.bind_some]
  have hvisit : visit { disk, limit, folder := base } [] (.dir entries) {} = .ok w := by
    rw [visit_dir]
    exact hw
  obtain ⟨added, hfiles, hmem, hnodup⟩ :=
    visit_adds _ hproper [] _ _ (fun _ hn => absurd hn List.not_mem_nil) hvisit
  refine ⟨entries, hget, added, ?_, fun path bytes => (hmem path bytes).trans ?_, hnodup⟩
  · rw [List.nil_append] at hfiles
    exact hfiles ▸ hperm
  · constructor
    · rintro ⟨below, rfl, hentered, leaf, hleaf, hbytes⟩
      exact ⟨hentered, leaf, (hget' _).trans hleaf, hbytes⟩
    · rintro ⟨hentered, leaf, hleaf, hbytes⟩
      exact ⟨path, rfl, hentered, leaf, (hget' path).symm.trans hleaf, hbytes⟩

/-- What a folder publishes is as it should be: no file has a refused name on the path it was found
at or on the path of the file it really is, and no other file is left out. -/
structure Publishes (disk : Disk) (limit : ℕ) (base : List FileName) (c : Collected) : Prop where
  clean : ∀ file ∈ c.files, ∃ path leaf real bytes, file = siteFile (urlOf path) bytes ∧
    disk.root.get (base ++ path) = some leaf ∧ leaf.isDir = false ∧ ServablePath path ∧
    disk.root.canonicalize limit [] ((base ++ path).map .name) = some (base ++ real) ∧
    disk.root.get (base ++ real) = some (.file bytes) ∧ ServablePath real
  complete : ∀ path bytes, disk.root.get (base ++ path) = some (.file bytes) → ServablePath path →
    (∀ s ∈ CONFIG, path ≠ [.text s]) → (c.files.filter fun file => file.path = urlOf path).length = 1

/-- Every link that the walk follows leads to a file with a path that may be published, and no
folder has the name of a configuration file. -/
structure Harmless (disk : Disk) (limit : ℕ) (base : List FileName) : Prop where
  links : ∀ path absolute target real bytes,
    disk.root.get (base ++ path) = some (.link absolute target) → Entered [] path →
    disk.root.canonicalize limit [] ((base ++ path).map .name) = some (base ++ real) →
    disk.root.get (base ++ real) = some (.file bytes) → ServablePath real
  config : ∀ s ∈ CONFIG, ∀ rest bytes,
    disk.root.get (base ++ .text s :: rest) = some (.file bytes) →
      ServablePath (.text s :: rest) → rest = []

lemma linked_eq_some {place : Place} {path : List FileName} {bytes : List UInt8} :
    linked place path = some bytes ↔ ∃ real,
      place.disk.root.canonicalize place.limit [] ((place.folder ++ path).map .name) =
        some (place.folder ++ real) ∧
      place.disk.root.get (place.folder ++ real) = some (.file bytes) := by
  rw [linked, Option.bind_eq_some_iff]
  constructor
  · rintro ⟨target, htarget, hfile⟩
    split at hfile
    · rename_i bytes' hget
      split_ifs at hfile with hinside
      obtain ⟨real, rfl⟩ := hinside
      exact ⟨real, htarget, hget.trans (congrArg (some ∘ Files.Node.file) (Option.some.inj hfile))⟩
    · cases hfile
  · rintro ⟨real, htarget, hget⟩
    refine ⟨_, htarget, ?_⟩
    rw [hget]
    exact if_pos ⟨real, rfl⟩

section result

variable (hbase : disk.root.canonicalize limit [] folder = some base)
  (hcollect : collect disk limit folder = .ok c)

include hbase hcollect

lemma mem_files {file : SiteFile} : file ∈ c.files ↔
    ∃ path bytes, At { disk, limit, folder := base } path bytes ∧
      file = siteFile (urlOf path) bytes := by
  obtain ⟨-, -, added, hperm, hmem, -⟩ := files_spec hbase hcollect
  rw [hperm.mem_iff, List.mem_map]
  constructor
  · rintro ⟨⟨path, bytes⟩, hin, rfl⟩
    exact ⟨path, bytes, (hmem path bytes).mp hin, rfl⟩
  · rintro ⟨path, bytes, hat, rfl⟩
    exact ⟨(path, bytes), (hmem path bytes).mpr hat, rfl⟩

/-- Paths of the folder with one URL are one. -/
lemma path_eq {path path' : List FileName} {leaf leaf' : Node}
    (hget : disk.root.get (base ++ path) = some leaf) (hleaf : leaf.isDir = false)
    (hget' : disk.root.get (base ++ path') = some leaf') (hleaf' : leaf'.isDir = false)
    (hservable : ServablePath path) (hservable' : ServablePath path')
    (h : urlOf path = urlOf path') : path = path' := by
  obtain ⟨entries, hentries, -⟩ := files_spec hbase hcollect
  rw [Files.Node.get_append, hentries, Option.bind_some] at hget hget'
  have hne : ∀ {path} {leaf : Node}, (Files.Node.dir entries).get path = some leaf →
      leaf.isDir = false → path ≠ [] := by
    rintro _ leaf hleaf hdir rfl
    rw [← Option.some.inj hleaf] at hdir
    cases hdir
  exact urlOf_injective (disk.proper.below hentries) hget hget' (hne hget hleaf) (hne hget' hleaf')
    (isText_of_servablePath hservable) (isText_of_servablePath hservable') h

/-- What is published at a path is published once. -/
lemma once {path : List FileName} {bytes : List UInt8}
    (h : At { disk, limit, folder := base } path bytes) :
    (c.files.filter fun file => file.path = urlOf path).length = 1 := by
  obtain ⟨-, -, added, hperm, hmem, hnodup⟩ := files_spec hbase hcollect
  obtain ⟨leaf, hleaf, hdir, hservable⟩ := h.leaf
  have hsame : ∀ f ∈ added, decide ((siteFile (urlOf f.1) f.2).path = urlOf path) = (f.1 == path) := by
    rintro ⟨path', bytes'⟩ hin
    obtain ⟨leaf', hleaf', hdir', hservable'⟩ := ((hmem path' bytes').mp hin).leaf
    rw [Bool.eq_iff_iff, decide_eq_true_iff, beq_iff_eq]
    constructor
    · exact fun heq => path_eq hbase hcollect hleaf' hdir' hleaf hdir hservable' hservable heq
    · rintro rfl
      rfl
  have hcount : (added.map Prod.fst).count path = 1 :=
    List.count_eq_one_of_mem hnodup (List.mem_map_of_mem ((hmem path bytes).mpr h))
  rw [(hperm.filter _).length_eq, List.filter_map, List.length_map]
  rw [List.count, List.countP_map, List.countP_eq_length_filter] at hcount
  rw [← hcount]
  exact congrArg List.length (List.filter_congr hsame)

lemma harmless_of_publishes (h : Publishes disk limit base c) : Harmless disk limit base where
  links path absolute target real bytes hlink hentered hreal hfile := by
    have hlinked : linked { disk, limit, folder := base } path = some bytes :=
      linked_eq_some.mpr ⟨real, hreal, hfile⟩
    have hat : At { disk, limit, folder := base } path bytes := ⟨hentered, _, hlink, hlinked⟩
    obtain ⟨path', leaf, real', bytes', heq, hleaf, hdir, hservable, hreal', -, hservable'⟩ :=
      h.clean _ ((mem_files hbase hcollect).mpr ⟨path, bytes, hat, rfl⟩)
    obtain rfl := path_eq hbase hcollect hlink rfl hleaf hdir hentered.1 hservable
      (congrArg SiteFile.path heq)
    rw [hreal, Option.some_inj] at hreal'
    rwa [List.append_cancel_left hreal']
  config s hs rest bytes hfile hservable := by
    by_contra hrest
    have hone := h.complete (.text s :: rest) bytes hfile hservable fun s' _ heq =>
      hrest (List.cons.inj heq).2
    obtain ⟨file, hmem⟩ := List.exists_mem_of_length_pos (by rw [hone]; exact Nat.one_pos)
    obtain ⟨hin, hpath⟩ := List.mem_filter.mp hmem
    obtain ⟨path', bytes', hat, rfl⟩ := (mem_files hbase hcollect).mp hin
    obtain ⟨leaf, hleaf, hdir, hservable'⟩ := hat.leaf
    obtain rfl := path_eq hbase hcollect hleaf hdir hfile rfl hservable' hservable
      (of_decide_eq_true hpath)
    exact hat.1.2 rfl s hs rfl

lemma publishes_of_harmless (h : Harmless disk limit base) : Publishes disk limit base c where
  clean file hfile := by
    obtain ⟨path, bytes, hat, rfl⟩ := (mem_files hbase hcollect).mp hfile
    obtain ⟨leaf, hleaf, hdir, hservable⟩ := hat.leaf
    obtain ⟨hentered, leaf', hleaf', hbytes⟩ := hat
    obtain rfl := Option.some.inj (hleaf.symm.trans hleaf')
    cases leaf with
    | dir => cases hdir
    | special => cases hbytes
    | file bytes' =>
        obtain rfl := Option.some.inj hbytes
        refine ⟨path, _, path, bytes', rfl, hleaf, rfl, hservable, ?_, hleaf, hservable⟩
        exact @Files.Node.canonicalize_names _ _ _ limit [] _ (.file bytes') hleaf rfl
    | link absolute target =>
        obtain ⟨real, hreal, hget⟩ := linked_eq_some.mp hbytes
        exact ⟨path, _, real, bytes, rfl, hleaf, rfl, hservable, hreal, hget,
          h.links path absolute target real bytes hleaf hentered hreal hget⟩
  complete path bytes hfile hservable htop := by
    refine once hbase hcollect ⟨⟨hservable, fun _ s hs hhead => ?_⟩, _, hfile, rfl⟩
    cases path with
    | nil => cases hhead
    | cons n rest =>
        obtain rfl := Option.some.inj hhead
        rw [h.config s hs rest bytes hfile hservable] at htop
        exact htop s hs rfl

end result

/-- A folder is published as it should be when its links and its configuration do no harm. -/
theorem publishes_iff (disk : Disk) (limit : ℕ) (folder : List (Component FileName))
    (base : List FileName) (c : Collected)
    (hbase : disk.root.canonicalize limit [] folder = some base)
    (hcollect : collect disk limit folder = .ok c) :
    Publishes disk limit base c ↔ Harmless disk limit base :=
  ⟨harmless_of_publishes hbase hcollect, publishes_of_harmless hbase hcollect⟩

/-- A page that is a link to a secret of the same folder. -/
def leakingRoot : Node :=
  .dir [(.text "site", .dir [(.text ".env", .file [83, 61, 49]),
    (.text "index.html", .link false [.name (.text ".env")])])]

lemma proper_leakingRoot : Proper leakingRoot := by
  refine proper_dir (List.nodup_singleton _) ?_ ?_
  · intro s node hmem
    rw [FileName.text.inj (Prod.mk.inj (List.mem_singleton.mp hmem)).1]
    decide
  · intro entry hentry
    rw [List.mem_singleton.mp hentry]
    refine proper_dir (by decide) ?_ ?_
    · intro s node hmem
      rcases List.mem_cons.mp hmem with heq | hmem
      · rw [FileName.text.inj (Prod.mk.inj heq).1]
        decide
      · rw [FileName.text.inj (Prod.mk.inj (List.mem_singleton.mp hmem)).1]
        decide
    · intro entry hentry
      rcases List.mem_cons.mp hentry with rfl | hentry
      · exact proper_leaf rfl
      · rw [List.mem_singleton.mp hentry]
        exact proper_leaf rfl

def leaking : Disk := { root := leakingRoot, proper := proper_leakingRoot }

theorem leaking_publishes_iff : ∃ c, collect leaking 40 [.name (.text "site")] = .ok c ∧
    (Publishes leaking 40 [.text "site"] c ↔ Harmless leaking 40 [.text "site"]) :=
  ⟨_, rfl, publishes_iff leaking 40 [.name (.text "site")] [.text "site"] _ rfl rfl⟩

/-- The secret is published under the name of the page. -/
theorem leaking_not_publishes : ∃ c, collect leaking 40 [.name (.text "site")] = .ok c ∧
    ¬ Publishes leaking 40 [.text "site"] c := by
  refine ⟨_, rfl, fun h => ?_⟩
  have hharmless := @harmless_of_publishes _ _ [.name (.text "site")] _ _ rfl rfl h
  have hservable := hharmless.links [.text "index.html"] false [.name (.text ".env")]
    [.text ".env"] [83, 61, 49] rfl
    ⟨⟨⟨"index.html", rfl, by decide +kernel⟩, trivial⟩, fun _ s hs hhead => ?_⟩ rfl rfl
  · obtain ⟨⟨s, hs, hok⟩, -⟩ := hservable
    obtain rfl := FileName.text.inj hs
    revert hok
    decide +kernel
  · obtain rfl := FileName.text.inj (Option.some.inj hhead)
    revert hs
    decide +kernel

end Teitunnel.Snapshots
