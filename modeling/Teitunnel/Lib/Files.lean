import Mathlib

/-!
# Files

A file system as a tree: folders, regular files, symbolic links and other things, under names of
any type.  A path is resolved by following the links on it, a limited number of them.
-/

namespace Files

/-- A step of a link's target. -/
inductive Component (ν : Type*) where
  | up
  | name (n : ν)
  deriving DecidableEq

inductive Node (ν : Type*) where
  | file (bytes : List UInt8)
  /-- A folder with its entries in order. -/
  | dir (entries : List (ν × Node ν))
  | link (absolute : Bool) (target : List (Component ν))
  /-- A socket or a device. -/
  | special

namespace Node

variable {ν : Type*}

def isDir : Node ν → Bool
  | dir _ => true
  | _ => false

def isLink : Node ν → Bool
  | link .. => true
  | _ => false

/-- What holds of a folder when it holds of its entries, and of everything else, holds. -/
@[elab_as_elim] theorem induction {P : Node ν → Prop} (file : ∀ bytes, P (file bytes))
    (dir : ∀ entries, (∀ entry ∈ entries, P entry.2) → P (dir entries))
    (link : ∀ absolute target, P (link absolute target)) (special : P special) (node : Node ν) :
    P node :=
  match node with
  | .file bytes => file bytes
  | .dir entries => dir entries fun entry _ => induction file dir link special entry.2
  | .link absolute target => link absolute target
  | .special => special
termination_by sizeOf node
decreasing_by
  rename_i hmem
  have hlt := List.sizeOf_lt_of_mem hmem
  have hentry : sizeOf entry.2 < sizeOf entry := by
    obtain ⟨n, node⟩ := entry
    simp
  simp
  omega

variable [DecidableEq ν]

/-- The entry of a folder with a name. -/
def child (n : ν) : Node ν → Option (Node ν)
  | dir entries => (entries.find? fun entry => entry.1 = n).map Prod.snd
  | _ => none

/-- What is at a path, no link followed. -/
def get (root : Node ν) : List ν → Option (Node ν)
  | [] => some root
  | n :: path => (root.child n).bind fun node => node.get path

/-- Goes along a path; `follow` goes on where a link is met. -/
def walk (root : Node ν) (follow : List ν → List (Component ν) → Option (List ν)) :
    List ν → List (Component ν) → Option (List ν)
  | here, [] => some here
  | here, .up :: rest => walk root follow here.dropLast rest
  | here, .name n :: rest =>
      match root.get (here ++ [n]) with
      | none => none
      | some (link absolute target) => follow (if absolute then [] else here) (target ++ rest)
      | some (dir _) => walk root follow (here ++ [n]) rest
      | some (file _) | some special => if rest.isEmpty then some (here ++ [n]) else none

/-- The path of what a path leads to from a folder, with `limit` links followed at most. -/
def canonicalize (root : Node ν) : ℕ → List ν → List (Component ν) → Option (List ν)
  | 0 => walk root fun _ _ => none
  | limit + 1 => walk root (canonicalize root limit)

variable {root : Node ν}

@[simp] lemma get_nil : root.get [] = some root := rfl

lemma get_cons {n : ν} {path : List ν} :
    root.get (n :: path) = (root.child n).bind fun node => node.get path := rfl

lemma get_append {path path' : List ν} :
    root.get (path ++ path') = (root.get path).bind fun node => node.get path' := by
  induction path generalizing root with
  | nil => rfl
  | cons n path ih =>
      rw [List.cons_append, get_cons, get_cons]
      cases root.child n with
      | none => rfl
      | some node => exact ih

/-- What has something below it is a folder. -/
lemma isDir_of_get {n : ν} {path : List ν} {node : Node ν} (h : root.get (n :: path) = some node) :
    root.isDir = true := by
  cases root with
  | dir => rfl
  | file => cases h
  | link => cases h
  | special => cases h

/-- Folders lead to what is there. -/
lemma get_prefix {path path' : List ν} {node : Node ν} (h : root.get (path ++ path') = some node)
    (hne : path' ≠ []) : ∃ above, root.get path = some above ∧ above.isDir = true := by
  rw [get_append, Option.bind_eq_some_iff] at h
  obtain ⟨above, habove, hbelow⟩ := h
  obtain ⟨n, rest, rfl⟩ := List.exists_cons_of_ne_nil hne
  exact ⟨above, habove, isDir_of_get hbelow⟩

/-- There is a folder. -/
def IsDirAt (root : Node ν) (path : List ν) : Prop :=
  ∃ node, root.get path = some node ∧ node.isDir = true

lemma IsDirAt.dropLast {path : List ν} (h : root.IsDirAt path) : root.IsDirAt path.dropLast := by
  obtain ⟨node, hget, hdir⟩ := h
  rcases List.eq_nil_or_concat path with rfl | ⟨front, n, rfl⟩
  · exact ⟨node, hget, hdir⟩
  · rw [List.concat_eq_append] at hget ⊢
    rw [List.dropLast_concat]
    exact get_prefix hget (List.cons_ne_nil _ _)

lemma isDirAt_nil {path : List ν} (h : root.IsDirAt path) : root.IsDirAt [] := by
  cases path with
  | nil => exact h
  | cons n path =>
      obtain ⟨node, hget, -⟩ := h
      exact ⟨root, rfl, isDir_of_get hget⟩

/-- What a path leads to is there, and no link. -/
def Leads (root : Node ν) (follow : List ν → List (Component ν) → Option (List ν)) : Prop :=
  ∀ here rest path, root.IsDirAt here → follow here rest = some path →
    ∃ node, root.get path = some node ∧ node.isLink = false

lemma leads_walk {follow : List ν → List (Component ν) → Option (List ν)}
    (h : root.Leads follow) : root.Leads (walk root follow) := by
  intro here rest path hhere hwalk
  induction rest generalizing here with
  | nil =>
      obtain rfl := Option.some.inj hwalk
      obtain ⟨node, hget, hdir⟩ := hhere
      refine ⟨node, hget, ?_⟩
      cases node with
      | dir => rfl
      | file => rfl
      | link => cases hdir
      | special => rfl
  | cons component rest ih =>
      cases component with
      | up => exact ih here.dropLast hhere.dropLast hwalk
      | name n =>
          rw [walk] at hwalk
          split at hwalk
          · cases hwalk
          · rename_i absolute target hget
            refine h _ _ _ ?_ hwalk
            cases absolute with
            | true => exact isDirAt_nil hhere
            | false => exact hhere
          · rename_i entries hget
            exact ih _ ⟨_, hget, rfl⟩ hwalk
          · rename_i bytes hget
            split_ifs at hwalk
            obtain rfl := Option.some.inj hwalk
            exact ⟨_, hget, rfl⟩
          · rename_i hget
            split_ifs at hwalk
            obtain rfl := Option.some.inj hwalk
            exact ⟨_, hget, rfl⟩

lemma leads_canonicalize (limit : ℕ) : root.Leads (canonicalize root limit) := by
  induction limit with
  | zero => exact leads_walk fun _ _ _ _ h => nomatch h
  | succ limit ih => exact leads_walk ih

/-- A path without links is its own canonical form. -/
lemma walk_names {follow : List ν → List (Component ν) → Option (List ν)} {here path : List ν}
    {node : Node ν} (hget : root.get (here ++ path) = some node) (hlink : node.isLink = false) :
    walk root follow here (path.map .name) = some (here ++ path) := by
  induction path generalizing here with
  | nil => rw [List.append_nil]; rfl
  | cons n path ih =>
      have hassoc : here ++ n :: path = here ++ [n] ++ path := by simp
      rw [hassoc] at hget ⊢
      rw [List.map_cons, walk]
      cases path with
      | nil =>
          rw [List.append_nil] at hget
          rw [hget, List.append_nil]
          cases node with
          | dir => rfl
          | file => rfl
          | link => cases hlink
          | special => rfl
      | cons m path =>
          obtain ⟨above, habove, hdir⟩ := get_prefix hget (List.cons_ne_nil m path)
          rw [habove]
          cases above with
          | dir => exact ih hget
          | file => cases hdir
          | link => cases hdir
          | special => cases hdir

lemma canonicalize_names (limit : ℕ) {here path : List ν} {node : Node ν}
    (hget : root.get (here ++ path) = some node) (hlink : node.isLink = false) :
    canonicalize root limit here (path.map .name) = some (here ++ path) := by
  cases limit with
  | zero => exact walk_names hget hlink
  | succ limit => exact walk_names hget hlink

end Node

end Files
