import Teitunnel.OpenApi.Paths

/-!
# Learned templates

Every observed path fits a template, the most specific one of those it fits; a template is literal
exactly where its path has neither an identifier nor one of a cluster of slugs.
-/

namespace Teitunnel.OpenApi

open Text

/-! ## The greatest of a list -/

lemma foldl_maxByKey {α : Type} (key : α → ℕ) (l : List α) (b : α) :
    ∃ a ∈ b :: l, l.foldl (fun best a => match best with
      | some b => if key b ≤ key a then some a else some b
      | none => some a) (some b) = some a ∧ ∀ c ∈ b :: l, key c ≤ key a := by
  induction l generalizing b with
  | nil => exact ⟨b, List.mem_cons_self, rfl, fun c hc => (List.mem_singleton.mp hc) ▸ le_rfl⟩
  | cons x rest ih =>
      rw [List.foldl_cons]
      dsimp only
      split_ifs with hle
      · obtain ⟨a, ha, hfold, hmax⟩ := ih x
        refine ⟨a, List.mem_cons_of_mem b ha, hfold, fun c hc => ?_⟩
        rcases List.mem_cons.mp hc with rfl | hc
        · exact hle.trans (hmax x List.mem_cons_self)
        · exact hmax c hc
      · obtain ⟨a, ha, hfold, hmax⟩ := ih b
        refine ⟨a, ?_, hfold, fun c hc => ?_⟩
        · rcases List.mem_cons.mp ha with rfl | ha
          · exact List.mem_cons_self
          · exact List.mem_cons_of_mem _ (List.mem_cons_of_mem _ ha)
        · rcases List.mem_cons.mp hc with rfl | hc
          · exact hmax _ List.mem_cons_self
          · rcases List.mem_cons.mp hc with rfl | hc
            · exact (not_le.mp hle).le.trans (hmax b List.mem_cons_self)
            · exact hmax c (List.mem_cons_of_mem _ hc)

lemma maxByKey_spec {α : Type} (key : α → ℕ) {l : List α} {b : α} (h : b ∈ l) :
    ∃ a ∈ l, maxByKey key l = some a ∧ ∀ c ∈ l, key c ≤ key a := by
  cases l with
  | nil => cases h
  | cons x rest => exact foldl_maxByKey key rest x

/-! ## Fitting -/

variable {paths : List (List String)} {generalized : List Template} {template path' : Template}
  {path : List String} {index : ℕ}

lemma fits_iff : fits template path = true ↔
    template.length = path.length ∧
      ∀ (i : ℕ) (segment : Segment) (s : String), template[i]? = some segment → path[i]? = some s →
        segment.fits s = true := by
  rw [fits, Bool.and_eq_true, decide_eq_true_iff]
  refine and_congr_right fun _ => ?_
  rw [List.all_eq_true]
  constructor
  · intro h i segment s hsegment hs
    refine h (segment, s) (List.mem_iff_getElem?.mpr ⟨i, ?_⟩)
    rw [List.getElem?_zip_eq_some]
    exact ⟨hsegment, hs⟩
  · rintro h ⟨segment, s⟩ hmem
    obtain ⟨i, hi⟩ := List.mem_iff_getElem?.mp hmem
    rw [List.getElem?_zip_eq_some] at hi
    exact h i segment s hi.1 hi.2

lemma getElem?_generalize {i : ℕ} : (generalize path)[i]? = path[i]?.map fun s =>
    if looksDynamic s then .param else .static s := List.getElem?_map

lemma fits_generalize (path : List String) : fits (generalize path) path = true := by
  rw [fits_iff]
  refine ⟨List.length_map _, fun i segment s hsegment hs => ?_⟩
  rw [getElem?_generalize, hs, Option.map_some] at hsegment
  rw [← Option.some.inj hsegment]
  split_ifs
  · rfl
  · exact decide_eq_true rfl

/-! ## Clusters -/

/-- A literal position that many different slugs share is made a parameter. -/
def Clustered (generalized : List Template) (path : Template) (index : ℕ) : Prop :=
  0 < index ∧ isSlugCluster (siblings generalized (path.set index .param) index) = true

/-- One position is made a parameter, or nothing changes. -/
lemma clusterAt_cases (generalized : List Template) (path : Template) (index : ℕ) :
    (∃ text, path[index]? = some (.static text) ∧ Clustered generalized path index ∧
      clusterAt generalized path index = path.set index .param) ∨
    ((∀ text, path[index]? = some (.static text) → ¬ Clustered generalized path index) ∧
      clusterAt generalized path index = path) := by
  rw [clusterAt]
  cases hindex : path[index]? with
  | none => exact .inr ⟨fun text h => absurd h (by simp), rfl⟩
  | some segment =>
      cases segment with
      | param => exact .inr ⟨fun text h => absurd h (by simp), rfl⟩
      | static text =>
          dsimp only
          by_cases hcluster : Clustered generalized path index
          · refine .inl ⟨text, rfl, hcluster, if_pos ?_⟩
            rw [decide_eq_true hcluster.1, hcluster.2]
            rfl
          · refine .inr ⟨fun _ _ => hcluster, if_neg ?_⟩
            intro h
            rw [Bool.and_eq_true, decide_eq_true_iff] at h
            exact hcluster h

/-- The template of a path when the positions before `index` are done. -/
def clusteredTo (generalized : List Template) (path : Template) (index : ℕ) : Template :=
  (List.range index).foldl (clusterAt generalized) path

lemma clusteredTo_succ : clusteredTo generalized path' (index + 1) =
    clusterAt generalized (clusteredTo generalized path' index) index := by
  rw [clusteredTo, List.range_succ, List.foldl_append]
  rfl

@[simp] lemma length_clusteredTo :
    (clusteredTo generalized path' index).length = path'.length := by
  induction index with
  | zero => rfl
  | succ index ih =>
      rw [clusteredTo_succ]
      rcases clusterAt_cases generalized (clusteredTo generalized path' index) index with
        ⟨-, -, -, hset⟩ | ⟨-, hsame⟩
      · rw [hset, List.length_set, ih]
      · rw [hsame, ih]

/-- A position is as it was until it is its turn, and stays what it became. -/
lemma getElem?_clusterAt_of_ne {i : ℕ} (h : i ≠ index) :
    (clusterAt generalized path' index)[i]? = path'[i]? := by
  rcases clusterAt_cases generalized path' index with ⟨-, -, -, hset⟩ | ⟨-, hsame⟩
  · rw [hset, List.getElem?_set_ne (Ne.symm h)]
  · rw [hsame]

lemma getElem?_clusteredTo_of_le {i : ℕ} (h : index ≤ i) :
    (clusteredTo generalized path' index)[i]? = path'[i]? := by
  induction index with
  | zero => rfl
  | succ index ih => rw [clusteredTo_succ, getElem?_clusterAt_of_ne (by omega), ih (by omega)]

lemma getElem?_clusteredTo_of_lt {i n : ℕ} (hi : i < index) (hn : index ≤ n) :
    (clusteredTo generalized path' n)[i]? = (clusteredTo generalized path' index)[i]? := by
  induction n with
  | zero => omega
  | succ n ih =>
      rcases hn.eq_or_lt with rfl | hlt
      · rfl
      · rw [clusteredTo_succ, getElem?_clusterAt_of_ne (by omega), ih (by omega)]

lemma cluster_eq : cluster generalized path' = clusteredTo generalized path' path'.length := rfl

/-- What the template of a path looks like around a position when it is its turn. -/
lemma clusteredTo_eq (h : index ≤ path'.length) : clusteredTo generalized path' index =
    (cluster generalized path').take index ++ path'.drop index := by
  refine List.ext_getElem? fun i => ?_
  have hlength : ((cluster generalized path').take index).length = index := by
    rw [List.length_take, cluster_eq, length_clusteredTo]
    omega
  by_cases hi : i < index
  · rw [List.getElem?_append_left (by omega), List.getElem?_take_of_lt hi, cluster_eq,
      getElem?_clusteredTo_of_lt hi h]
  · rw [List.getElem?_append_right (by omega), hlength, List.getElem?_drop,
      getElem?_clusteredTo_of_le (by omega)]
    congr 1
    omega

/-- A position of a template is literal exactly when it was and no cluster of slugs stands there. -/
lemma getElem?_cluster {i : ℕ} {text : String} :
    (cluster generalized path')[i]? = some (.static text) ↔
      path'[i]? = some (.static text) ∧
        ¬ (0 < i ∧ isSlugCluster (siblings generalized
          ((cluster generalized path').take i ++ .param :: path'.drop (i + 1)) i) = true) := by
  by_cases hi : i < path'.length
  · have hturn : (cluster generalized path')[i]? =
        (clusterAt generalized (clusteredTo generalized path' i) i)[i]? := by
      rw [cluster_eq, getElem?_clusteredTo_of_lt (Nat.lt_succ_self i) hi, clusteredTo_succ]
    have hbefore : (clusteredTo generalized path' i)[i]? = path'[i]? :=
      getElem?_clusteredTo_of_le le_rfl
    have htake : ((cluster generalized path').take i).length = i := by
      rw [List.length_take, cluster_eq, length_clusteredTo]
      omega
    have hshape : (clusteredTo generalized path' i).set i .param =
        (cluster generalized path').take i ++ .param :: path'.drop (i + 1) := by
      rw [clusteredTo_eq hi.le, List.set_append_right _ _ (by omega), htake, Nat.sub_self,
        List.drop_eq_getElem_cons hi, List.set_cons_zero]
    rw [hturn, ← hshape]
    rcases clusterAt_cases generalized (clusteredTo generalized path' i) i with
      ⟨text', htext, hcluster, hset⟩ | ⟨hnone, hsame⟩
    · have hparam : (clusterAt generalized (clusteredTo generalized path' i) i)[i]? = some .param := by
        rw [hset, List.getElem?_set_self (by rw [length_clusteredTo]; exact hi)]
      rw [hparam]
      constructor
      · intro h
        cases h
      · rintro ⟨-, h⟩
        exact absurd hcluster h
    · rw [hsame, hbefore]
      constructor
      · intro h
        exact ⟨h, hnone text (hbefore.trans h)⟩
      · rintro ⟨h, -⟩
        exact h
  · have hnone : path'[i]? = none := List.getElem?_eq_none (not_lt.mp hi)
    have hnone' : (cluster generalized path')[i]? = none := by
      rw [List.getElem?_eq_none_iff, cluster_eq, length_clusteredTo]
      exact not_lt.mp hi
    rw [hnone, hnone']
    simp

/-! ## Learning -/

/-- The template of a path among the others. -/
def templateOf (paths : List (List String)) (path : List String) : Template :=
  cluster (paths.map generalize) (generalize path)

lemma mem_learn {template : Template} :
    template ∈ learn paths ↔ ∃ path ∈ paths, templateOf paths path = template := by
  rw [learn, SortedSet.mem_ofList, List.map_map, List.mem_map]
  rfl

/-- A position is literal when the path has neither an identifier nor a clustered slug there. -/
lemma getElem?_templateOf {i : ℕ} {text : String} :
    (templateOf paths path)[i]? = some (.static text) ↔
      path[i]? = some text ∧ looksDynamic text = false ∧
        ¬ (0 < i ∧ isSlugCluster (siblings (paths.map generalize)
          ((templateOf paths path).take i ++ .param :: (generalize path).drop (i + 1)) i) = true) := by
  rw [templateOf, getElem?_cluster, getElem?_generalize, Option.map_eq_some_iff, ← and_assoc]
  refine and_congr_left fun _ => ?_
  constructor
  · rintro ⟨s, hs, hsegment⟩
    split_ifs at hsegment with hdynamic
    rw [Segment.static.inj hsegment] at hs hdynamic
    exact ⟨hs, Bool.eq_false_iff.mpr hdynamic⟩
  · rintro ⟨hs, hdynamic⟩
    refine ⟨text, hs, ?_⟩
    rw [hdynamic]
    rfl

lemma length_templateOf : (templateOf paths path).length = path.length := by
  rw [templateOf, cluster_eq, length_clusteredTo, generalize, List.length_map]

lemma fits_templateOf (paths : List (List String)) (path : List String) :
    fits (templateOf paths path) path = true := by
  rw [fits_iff]
  refine ⟨length_templateOf, fun i segment s hsegment hs => ?_⟩
  cases segment with
  | param => rfl
  | static text =>
      have hpath := (getElem?_templateOf.mp hsegment).1
      rw [hpath] at hs
      exact decide_eq_true (Option.some.inj hs)

/-- A path that templates were learned from has the most specific one that it fits. -/
lemma find_learn (h : path ∈ paths) : ∃ template ∈ learn paths,
    find (learn paths) path = some template ∧ fits template path = true ∧
      ∀ other ∈ learn paths, fits other path = true → statics other ≤ statics template := by
  have hown : templateOf paths path ∈ (learn paths).toList.filter (fits · path) :=
    List.mem_filter.mpr ⟨mem_learn.mpr ⟨path, h, rfl⟩, fits_templateOf paths path⟩
  obtain ⟨template, hmem, hfind, hmax⟩ := maxByKey_spec statics hown
  obtain ⟨hlearned, hfits⟩ := List.mem_filter.mp hmem
  exact ⟨template, hlearned, hfind, hfits, fun other hother hfit =>
    hmax other (List.mem_filter.mpr ⟨hother, hfit⟩)⟩

/-- Every path of those that templates were learned from has one: the path fits it, no other one that
it fits is more specific, and its identifiers are parameters.  The template is literal exactly where
the path it comes from has neither an identifier nor one of many different slugs. -/
theorem templates_fit (h : path ∈ paths) :
    ∃ template source, find (learn paths) path = some template ∧ fits template path = true ∧
      (∀ other ∈ learn paths, fits other path = true → statics other ≤ statics template) ∧
      (∀ (i : ℕ) (s : String), path[i]? = some s → looksDynamic s = true →
        template[i]? = some .param) ∧
      source ∈ paths ∧ source.length = path.length ∧
      ∀ (i : ℕ) (text : String), template[i]? = some (.static text) ↔
        source[i]? = some text ∧ looksDynamic text = false ∧
          ¬ (0 < i ∧ isSlugCluster (siblings (paths.map generalize)
            (template.take i ++ .param :: (generalize source).drop (i + 1)) i) = true) := by
  obtain ⟨template, hlearned, hfind, hfits, hmax⟩ := find_learn h
  obtain ⟨source, hsource, rfl⟩ := mem_learn.mp hlearned
  have hlength : source.length = path.length :=
    length_templateOf.symm.trans (fits_iff.mp hfits).1
  refine ⟨_, source, hfind, hfits, hmax, ?_, hsource, hlength, fun i text => getElem?_templateOf⟩
  · intro i s hs hdynamic
    have hi : i < (templateOf paths source).length := by
      rw [(fits_iff.mp hfits).1]
      exact (List.getElem?_eq_some_iff.mp hs).1
    have hsegment : (templateOf paths source)[i]? = some ((templateOf paths source)[i]) :=
      List.getElem?_eq_getElem hi
    cases hcase : (templateOf paths source)[i] with
    | param => rw [hsegment, hcase]
    | static text =>
        rw [hcase] at hsegment
        have htext := (fits_iff.mp hfits).2 i _ s hsegment hs
        rw [Segment.fits, decide_eq_true_iff] at htext
        rw [← htext, (getElem?_templateOf.mp hsegment).2.1] at hdynamic
        cases hdynamic

/-- Two paths of an API, one of them with an identifier. -/
def userPaths : List (List String) := [["users", "123"], ["users", "me"]]

theorem templates_fit_users :
    ∃ template source, find (learn userPaths) ["users", "123"] = some template ∧
      fits template ["users", "123"] = true ∧
      (∀ other ∈ learn userPaths, fits other ["users", "123"] = true →
        statics other ≤ statics template) ∧
      (∀ (i : ℕ) (s : String), ["users", "123"][i]? = some s → looksDynamic s = true →
        template[i]? = some .param) ∧
      source ∈ userPaths ∧ source.length = ["users", "123"].length ∧
      ∀ (i : ℕ) (text : String), template[i]? = some (.static text) ↔
        source[i]? = some text ∧ looksDynamic text = false ∧
          ¬ (0 < i ∧ isSlugCluster (siblings (userPaths.map generalize)
            (template.take i ++ .param :: (generalize source).drop (i + 1)) i) = true) :=
  templates_fit (by decide)

/-! ## Names -/

lemma append_toString_ne (base : String) (n : ℕ) : base ++ toString n ≠ base := by
  intro h
  have hlist := congrArg String.toList h
  rw [String.toList_append, List.append_right_eq_self] at hlist
  have hdigits : (toString n).toList = Nat.toDigits 10 n := Nat.toList_repr
  rw [hdigits] at hlist
  exact Nat.toDigits_ne_nil hlist

lemma append_toString_inj {base : String} {m n : ℕ} (h : base ++ toString m = base ++ toString n) :
    m = n := by
  have hlist := congrArg String.toList h
  rw [String.toList_append, String.toList_append, List.append_cancel_left_eq] at hlist
  exact Nat.repr_inj.mp (String.toList_injective hlist)

/-- The first number that makes a new name, if not all that are tried are taken. -/
lemma fresh_spec (names : List String) (base : String) (fuel count : ℕ) :
    fresh names base fuel count ∉ names ∨
      ∀ k ≤ fuel, base ++ toString (count + k) ∈ names := by
  induction fuel generalizing count with
  | zero =>
      rw [fresh]
      by_cases h : base ++ toString count ∈ names
      · refine .inr fun k hk => ?_
        rw [Nat.le_zero.mp hk]
        exact h
      · exact .inl h
  | succ fuel ih =>
      rw [fresh]
      split_ifs with htaken
      · rcases ih (count + 1) with h | h
        · exact .inl h
        · refine .inr fun k hk => ?_
          cases k with
          | zero => exact List.contains_iff_mem.mp htaken
          | succ k =>
              have hnext := h k (by omega)
              rwa [Nat.add_right_comm, Nat.add_assoc] at hnext
      · exact .inl fun h => htaken (List.contains_iff_mem.mpr h)

/-- There are more numbers to try than names. -/
lemma unique_not_mem (names : List String) (base : String) : unique names base ∉ names := by
  rw [unique]
  split_ifs with hbase
  · rcases fresh_spec names base names.length 2 with h | h
    · exact h
    · have hbase : base ∈ names := List.contains_iff_mem.mp hbase
      set tried := base :: (List.range (names.length + 1)).map fun k => base ++ toString (2 + k)
        with htried
      have hnodup : tried.Nodup := by
        rw [htried, List.nodup_cons]
        constructor
        · intro hmem
          obtain ⟨k, -, hk⟩ := List.mem_map.mp hmem
          exact append_toString_ne base _ hk
        · refine (List.nodup_map_iff_inj_on List.nodup_range).mpr fun k _ k' _ heq => ?_
          have hsame := append_toString_inj heq
          omega
      have hsubset : tried ⊆ names := by
        intro name hname
        rcases List.mem_cons.mp hname with rfl | hname
        · exact hbase
        · obtain ⟨k, hk, rfl⟩ := List.mem_map.mp hname
          exact h k (by have := List.mem_range.mp hk; omega)
      have hle := (hnodup.subperm hsubset).length_le
      rw [htried, List.length_cons, List.length_map, List.length_range] at hle
      omega
  · intro h
    exact hbase (List.contains_iff_mem.mpr h)

/-- The names of bases one after another. -/
def namesOf (bases : List String) : List String :=
  bases.foldl (fun names base => names ++ [unique names base]) []

lemma namesOf_snoc (bases : List String) (base : String) :
    namesOf (bases ++ [base]) = namesOf bases ++ [unique (namesOf bases) base] := by
  rw [namesOf, List.foldl_append]
  rfl

lemma length_namesOf (bases : List String) : (namesOf bases).length = bases.length := by
  induction bases using List.reverseRecOn with
  | nil => rfl
  | append_singleton bases base ih =>
      rw [namesOf_snoc, List.length_append, List.length_append, ih]
      rfl

lemma nodup_namesOf (bases : List String) : (namesOf bases).Nodup := by
  induction bases using List.reverseRecOn with
  | nil => exact List.nodup_nil
  | append_singleton bases base ih =>
      rw [namesOf_snoc, List.nodup_append]
      refine ⟨ih, List.nodup_singleton _, fun name hname other hother => ?_⟩
      rw [List.mem_singleton.mp hother]
      rintro rfl
      exact unique_not_mem _ _ hname

/-- A name is its base, or the base with a number behind it. -/
lemma unique_eq (names : List String) (base : String) :
    unique names base = base ∨ ∃ n : ℕ, unique names base = base ++ toString n := by
  have hfresh : ∀ fuel count, ∃ n : ℕ, fresh names base fuel count = base ++ toString n := by
    intro fuel
    induction fuel with
    | zero => exact fun count => ⟨count, rfl⟩
    | succ fuel ih =>
        intro count
        rw [fresh]
        split_ifs
        · exact ih (count + 1)
        · exact ⟨count, rfl⟩
  rw [unique]
  split_ifs
  · exact .inr (hfresh _ _)
  · exact .inl rfl

lemma mem_namesOf {bases : List String} {name : String} (h : name ∈ namesOf bases) :
    ∃ base ∈ bases, name = base ∨ ∃ n : ℕ, name = base ++ toString n := by
  induction bases using List.reverseRecOn with
  | nil => cases h
  | append_singleton bases base ih =>
      rw [namesOf_snoc, List.mem_append, List.mem_singleton] at h
      rcases h with h | rfl
      · obtain ⟨base', hbase', hname⟩ := ih h
        exact ⟨base', List.mem_append_left _ hbase', hname⟩
      · exact ⟨base, List.mem_append_right _ List.mem_cons_self, unique_eq _ _⟩

/-- Names that are called after what stands before them never are `id`. -/
lemma bases_spec (before : Option Segment) (template : Template) :
    (bases before template).length = template.countP (· = .param) ∧
      (bases before template = [] ∨ ∃ front, bases before template = front ++ ["id"] ∧
        ∀ base ∈ front, base = "param" ∨ ∃ word, base = word ++ "Id") := by
  induction template generalizing before with
  | nil => exact ⟨rfl, .inl rfl⟩
  | cons segment rest ih =>
      cases segment with
      | static text =>
          obtain ⟨hlength, hshape⟩ := ih (some (.static text))
          refine ⟨?_, hshape⟩
          rw [bases, hlength, List.countP_cons_of_neg (by simp)]
      | param =>
          obtain ⟨hlength, hshape⟩ := ih (some .param)
          refine ⟨?_, .inr ?_⟩
          · rw [bases, List.length_cons, hlength, List.countP_cons_of_pos (by decide)]
          · rw [bases]
            split_ifs with hmore
            · rcases hshape with hnil | ⟨front, hfront, hwords⟩
              · have hcount : 0 < rest.countP (· = .param) :=
                  List.countP_pos_iff.mpr ⟨.param, List.contains_iff_mem.mp hmore, by decide⟩
                rw [← hlength, hnil] at hcount
                exact absurd hcount (lt_irrefl 0)
              · refine ⟨_ :: front, by rw [hfront]; rfl, fun base hbase => ?_⟩
                rcases List.mem_cons.mp hbase with rfl | hbase
                · cases nameBefore before with
                  | none => exact .inl rfl
                  | some word => exact .inr ⟨word, rfl⟩
                · exact hwords base hbase
            · have hnone : bases (some .param) rest = [] := by
                rw [← List.length_eq_zero_iff, hlength, List.countP_eq_zero]
                intro segment hsegment hparam
                rw [of_decide_eq_true hparam] at hsegment
                exact hmore (List.contains_iff_mem.mpr hsegment)
              rw [hnone]
              exact ⟨[], rfl, fun base hbase => absurd hbase List.not_mem_nil⟩

/-- The parameters of a template have different names, and the last one is `id`. -/
lemma paramNames_spec (template : Template) :
    (paramNames template).Nodup ∧ (paramNames template).length = template.countP (· = .param) ∧
      (.param ∈ template → (paramNames template).getLast? = some "id") := by
  have hnames : paramNames template = namesOf (bases none template) := rfl
  obtain ⟨hlength, hshape⟩ := bases_spec none template
  refine ⟨hnames ▸ nodup_namesOf _, by rw [hnames, length_namesOf, hlength], fun hparam => ?_⟩
  rcases hshape with hnil | ⟨front, hfront, hwords⟩
  · have hcount : 0 < template.countP (· = .param) :=
      List.countP_pos_iff.mpr ⟨.param, hparam, by decide⟩
    rw [← hlength, hnil] at hcount
    exact absurd hcount (lt_irrefl 0)
  · have hnew : "id" ∉ namesOf front := by
      intro hmem
      have hletter : ∀ base ∈ front, 'p' ∈ base.toList ∨ 'I' ∈ base.toList := by
        intro base hbase
        rcases hwords base hbase with rfl | ⟨word, rfl⟩
        · exact .inl (by decide)
        · refine .inr ?_
          rw [String.toList_append]
          exact List.mem_append_right _ (by decide)
      obtain ⟨base, hbase, heq⟩ := mem_namesOf hmem
      have hin : ∀ c ∈ base.toList, c ∈ "id".toList := by
        intro c hc
        rcases heq with heq | ⟨n, heq⟩
        · rw [heq]
          exact hc
        · rw [heq, String.toList_append]
          exact List.mem_append_left _ hc
      rcases hletter base hbase with hc | hc
      · exact absurd (hin _ hc) (by decide)
      · exact absurd (hin _ hc) (by decide)
    have hunique : unique (namesOf front) "id" = "id" :=
      if_neg fun h => hnew (List.contains_iff_mem.mp h)
    rw [hnames, hfront, namesOf_snoc, hunique, List.getLast?_append]
    rfl

/-! ## Rendering -/

/-- A segment that is written as it is. -/
def Plain (s : String) : Prop :=
  s ≠ "" ∧ '/' ∉ s.toList ∧ '\x7b' ∉ s.toList ∧ '\x7d' ∉ s.toList

lemma filter_of_plain {s : String} (h : Plain s) :
    s.toList.filter (fun c => c ≠ '\x7b' && c ≠ '\x7d') = s.toList := by
  obtain ⟨-, -, hopen, hclose⟩ := h
  rw [List.filter_eq_self]
  intro c hc
  have hc1 : c ≠ '\x7b' := fun h => hopen (h ▸ hc)
  have hc2 : c ≠ '\x7d' := fun h => hclose (h ▸ hc)
  simp [hc1, hc2]

/-- What stands between the slashes of a template that is written. -/
def pieces : Template → List String → List (List Char)
  | [], _ => []
  | .static text :: rest, names =>
      text.toList.filter (fun c => c ≠ '\x7b' && c ≠ '\x7d') :: pieces rest names
  | .param :: rest, names => ('\x7b' :: (names.headD "id").toList ++ ['\x7d']) :: pieces rest names.tail

lemma toList_renderSegments (template : Template) (names : List String) :
    (renderSegments template names).toList = (pieces template names).flatMap ('/' :: ·) := by
  induction template generalizing names with
  | nil => rfl
  | cons segment rest ih =>
      cases segment with
      | static text =>
          rw [renderSegments, String.toList_append, String.toList_append, ih, pieces,
            List.flatMap_cons]
          simp
      | param =>
          rw [renderSegments, String.toList_append, String.toList_append, String.toList_append, ih,
            pieces, List.flatMap_cons]
          simp

lemma slash_not_mem_pieces {names : List String}
    (hplain : ∀ text, .static text ∈ template → Plain text)
    (hnames : ∀ name ∈ names, '/' ∉ name.toList) :
    ∀ piece ∈ pieces template names, '/' ∉ piece ∧ piece ≠ [] := by
  induction template generalizing names with
  | nil => exact fun piece h => absurd h List.not_mem_nil
  | cons segment rest ih =>
      have hrest : ∀ text, .static text ∈ rest → Plain text :=
        fun text h => hplain text (List.mem_cons_of_mem _ h)
      intro piece hpiece
      cases segment with
      | static text =>
          rw [pieces] at hpiece
          rcases List.mem_cons.mp hpiece with rfl | h
          · have htext := hplain text List.mem_cons_self
            rw [filter_of_plain htext]
            exact ⟨htext.2.1, fun h => htext.1 (String.toList_eq_nil_iff.mp h)⟩
          · exact ih hrest hnames piece h
      | param =>
          rw [pieces] at hpiece
          rcases List.mem_cons.mp hpiece with rfl | h
          · have hname : '/' ∉ (names.headD "id").toList := by
              cases names with
              | nil => decide
              | cons name names => exact hnames name List.mem_cons_self
            refine ⟨fun hmem => ?_, List.cons_ne_nil _ _⟩
            rcases List.mem_append.mp hmem with h | h
            · rcases List.mem_cons.mp h with h | h
              · exact absurd h (by decide)
              · exact hname h
            · exact absurd h (by decide)
          · exact ih hrest (fun name h => hnames name (List.mem_of_mem_tail h)) piece h

/-- What is between slashes can be read back. -/
lemma flatMap_slash_injective {l l' : List (List Char)} (hl : ∀ piece ∈ l, '/' ∉ piece)
    (hl' : ∀ piece ∈ l', '/' ∉ piece)
    (h : l.flatMap ('/' :: ·) = l'.flatMap ('/' :: ·)) : l = l' := by
  have hhead : ∀ (piece : List Char) (rest : List (List Char)), '/' ∉ piece →
      (piece ++ rest.flatMap ('/' :: ·)).takeWhile (· ≠ '/') = piece := by
    intro piece rest hpiece
    rw [List.takeWhile_append_of_pos]
    · cases rest with
      | nil => simp
      | cons next rest => simp
    · intro c hc
      have hne : c ≠ '/' := fun heq => hpiece (heq ▸ hc)
      exact decide_eq_true hne
  induction l generalizing l' with
  | nil =>
      cases l' with
      | nil => rfl
      | cons piece rest => simp at h
  | cons piece rest ih =>
      cases l' with
      | nil => simp at h
      | cons piece' rest' =>
          rw [List.flatMap_cons, List.flatMap_cons, List.cons_append, List.cons_append,
            List.cons.injEq] at h
          have hpiece : piece = piece' := by
            rw [← hhead piece rest (hl piece List.mem_cons_self), h.2,
              hhead piece' rest' (hl' piece' List.mem_cons_self)]
          subst hpiece
          rw [ih (fun p hp => hl p (List.mem_cons_of_mem _ hp))
            (fun p hp => hl' p (List.mem_cons_of_mem _ hp)) (List.append_cancel_left h.2)]

/-- The pieces tell the template. -/
lemma pieces_injective {template' : Template} {names names' : List String}
    (hplain : ∀ text, .static text ∈ template → Plain text)
    (hplain' : ∀ text, .static text ∈ template' → Plain text)
    (h : pieces template names = pieces template' names') : template = template' := by
  have hbrace : ∀ text, Plain text → ∀ rest : List Char,
      text.toList ≠ '\x7b' :: rest := by
    rintro text ⟨-, -, hopen, -⟩ rest heq
    exact hopen (heq ▸ List.mem_cons_self)
  induction template generalizing template' names names' with
  | nil =>
      cases template' with
      | nil => rfl
      | cons segment rest => cases segment <;> simp [pieces] at h
  | cons segment rest ih =>
      have hrest : ∀ text, .static text ∈ rest → Plain text :=
        fun text hmem => hplain text (List.mem_cons_of_mem _ hmem)
      cases template' with
      | nil => cases segment <;> simp [pieces] at h
      | cons segment' rest' =>
          have hrest' : ∀ text, .static text ∈ rest' → Plain text :=
            fun text hmem => hplain' text (List.mem_cons_of_mem _ hmem)
          cases segment with
          | static text =>
              have htext := hplain text List.mem_cons_self
              cases segment' with
              | static text' =>
                  rw [pieces, pieces, filter_of_plain htext, filter_of_plain (hplain' text' List.mem_cons_self),
                    List.cons.injEq] at h
                  rw [String.toList_injective h.1, ih hrest hrest' h.2]
              | param =>
                  rw [pieces, pieces, filter_of_plain htext, List.cons.injEq] at h
                  exact absurd h.1 (hbrace text htext _)
          | param =>
              cases segment' with
              | static text' =>
                  have htext' := hplain' text' List.mem_cons_self
                  rw [pieces, pieces, filter_of_plain htext', List.cons.injEq] at h
                  exact absurd h.1.symm (hbrace text' htext' _)
              | param =>
                  rw [pieces, pieces, List.cons.injEq] at h
                  rw [ih hrest hrest' h.2]

lemma slash_not_mem_singular (word : String) : '/' ∉ (singular word).toList := by
  set lower := toAsciiLowercase (String.ofList (word.toList.filter isAsciiAlphanumeric)) with hlower
  have hword : '/' ∉ lower.toList := by
    intro hmem
    rw [hlower, toList_toAsciiLowercase, String.toList_ofList] at hmem
    obtain ⟨c, hc, hslash⟩ := List.mem_map.mp hmem
    rw [toLower_eq hslash (by decide)] at hc
    exact absurd (List.mem_filter.mp hc).2 (by decide)
  have hstem : ∀ p stem, stripSuffix p lower = some stem → '/' ∉ stem.toList := by
    intro p stem hstem hmem
    obtain ⟨rest, hrest, rfl⟩ := Option.map_eq_some_iff.mp hstem
    rw [String.toList_ofList, List.mem_reverse] at hmem
    have hreverse := stripList_eq_some.mp hrest
    exact hword (List.mem_reverse.mp (hreverse ▸ List.mem_append_right _ hmem))
  rw [singular, ← hlower]
  cases hies : stripSuffix "ies" lower with
  | some stem =>
      dsimp only
      rw [String.toList_append, List.mem_append]
      rintro (h | h)
      · exact hstem _ _ hies h
      · exact absurd h (by decide)
  | none =>
      dsimp only
      split_ifs with hss
      · exact hword
      · cases hs : stripSuffix "s" lower with
        | some stem => exact hstem _ _ hs
        | none => exact hword

lemma slash_not_mem_nameBefore {before : Option Segment} {word : String}
    (h : nameBefore before = some word) : '/' ∉ word.toList := by
  cases before with
  | none => simp [nameBefore] at h
  | some segment =>
      cases segment with
      | static text =>
          rw [nameBefore, Option.filter_eq_some_iff] at h
          rw [← Option.some.inj h.1]
          exact slash_not_mem_singular text
      | param => simp [nameBefore] at h

lemma slash_not_mem_bases {before : Option Segment} {base : String}
    (h : base ∈ bases before template) : '/' ∉ base.toList := by
  induction template generalizing before with
  | nil => cases h
  | cons segment rest ih =>
      cases segment with
      | static text => exact ih h
      | param =>
          rw [bases] at h
          rcases List.mem_cons.mp h with rfl | h
          · split_ifs with hmore
            · cases hname : nameBefore before with
              | none => decide
              | some word =>
                  rw [Option.elim_some, String.toList_append, List.mem_append]
                  rintro (h | h)
                  · exact slash_not_mem_nameBefore hname h
                  · exact absurd h (by decide)
            · decide
          · exact ih h

/-- The names of parameters have no slashes. -/
lemma slash_not_mem_paramNames {name : String} (h : name ∈ paramNames template) :
    '/' ∉ name.toList := by
  obtain ⟨base, hbase, heq⟩ := mem_namesOf h
  have hslash := slash_not_mem_bases hbase
  rcases heq with rfl | ⟨n, rfl⟩
  · exact hslash
  · rw [String.toList_append, List.mem_append]
    rintro (hmem | hmem)
    · exact hslash hmem
    · have hdigits : (toString n).toList = Nat.toDigits 10 n := Nat.toList_repr
      rw [hdigits] at hmem
      exact absurd (Nat.isDigit_of_mem_toDigits (by decide) (by decide) hmem) (by decide)

/-- A template is written as its pieces, each after a slash. -/
lemma toList_render (template : Template) :
    (render template).toList = if template = [] then ['/']
      else (pieces template (paramNames template)).flatMap ('/' :: ·) := by
  have hlist := toList_renderSegments template (paramNames template)
  cases template with
  | nil => rfl
  | cons segment rest =>
      have hne : renderSegments (segment :: rest) (paramNames (segment :: rest)) ≠ "" := by
        intro h
        rw [h] at hlist
        cases segment <;> simp [pieces] at hlist
      rw [render, if_neg hne, hlist, if_neg (List.cons_ne_nil _ _)]

/-- Templates of plain segments are written in different ways. -/
lemma render_injective {template' : Template}
    (hplain : ∀ text, .static text ∈ template → Plain text)
    (hplain' : ∀ text, .static text ∈ template' → Plain text)
    (h : render template = render template') : template = template' := by
  have hpieces : ∀ template : Template, (∀ text, .static text ∈ template → Plain text) →
      ∀ piece ∈ pieces template (paramNames template), '/' ∉ piece ∧ piece ≠ [] :=
    fun template hplain => slash_not_mem_pieces hplain fun name => slash_not_mem_paramNames
  have hroot : ∀ template : Template, (∀ text, .static text ∈ template → Plain text) →
      template ≠ [] → (pieces template (paramNames template)).flatMap ('/' :: ·) ≠ ['/'] := by
    intro template hplain hne heq
    have hall := hpieces template hplain
    cases hcase : pieces template (paramNames template) with
    | nil =>
        rw [hcase] at heq
        cases heq
    | cons piece rest =>
        rw [hcase] at hall heq
        rw [List.flatMap_cons, List.cons_append, List.cons.injEq, List.append_eq_nil_iff] at heq
        exact (hall piece List.mem_cons_self).2 heq.2.1
  have hlists := congrArg String.toList h
  rw [toList_render, toList_render] at hlists
  by_cases hnil : template = []
  · by_cases hnil' : template' = []
    · rw [hnil, hnil']
    · rw [if_pos hnil, if_neg hnil'] at hlists
      exact absurd hlists.symm (hroot template' hplain' hnil')
  · by_cases hnil' : template' = []
    · rw [if_neg hnil, if_pos hnil'] at hlists
      exact absurd hlists (hroot template hplain hnil)
    · rw [if_neg hnil, if_neg hnil'] at hlists
      exact pieces_injective hplain hplain' (flatMap_slash_injective
        (fun piece hpiece => (hpieces template hplain piece hpiece).1)
        (fun piece hpiece => (hpieces template' hplain' piece hpiece).1) hlists)

end Teitunnel.OpenApi
