import Mathlib

/-!
# JSON values

Values as a serialization library hands them out: an object keeps its members as an
association list.  Equality is decidable, so a definition that compares two values runs.
-/

/-- A JSON value. -/
inductive Json where
  | null
  | bool (b : Bool)
  | num (n : Int)
  /-- A number with a fraction or an exponent, as its text. -/
  | float (text : String)
  | str (s : String)
  | arr (items : List Json)
  /-- The members of an object. -/
  | obj (fields : List (String × Json))

namespace Json

instance : Inhabited Json := ⟨null⟩

mutual

/-- Equality of two values, by structure. -/
def decEq : (a b : Json) → Decidable (a = b)
  | .null, b => match b with
    | .null => isTrue rfl
    | .bool _ | .num _ | .float _ | .str _ | .arr _ | .obj _ => isFalse nofun
  | .bool x, b => match b with
    | .bool y => decidable_of_iff (x = y) (by simp)
    | .null | .num _ | .float _ | .str _ | .arr _ | .obj _ => isFalse nofun
  | .num x, b => match b with
    | .num y => decidable_of_iff (x = y) (by simp)
    | .null | .bool _ | .float _ | .str _ | .arr _ | .obj _ => isFalse nofun
  | .float x, b => match b with
    | .float y => decidable_of_iff (x = y) (by simp)
    | .null | .bool _ | .num _ | .str _ | .arr _ | .obj _ => isFalse nofun
  | .str x, b => match b with
    | .str y => decidable_of_iff (x = y) (by simp)
    | .null | .bool _ | .num _ | .float _ | .arr _ | .obj _ => isFalse nofun
  | .arr x, b => match b with
    | .arr y => match decEqItems x y with
      | isTrue h => isTrue (h ▸ rfl)
      | isFalse h => isFalse fun e => h (by injection e)
    | .null | .bool _ | .num _ | .float _ | .str _ | .obj _ => isFalse nofun
  | .obj x, b => match b with
    | .obj y => match decEqFields x y with
      | isTrue h => isTrue (h ▸ rfl)
      | isFalse h => isFalse fun e => h (by injection e)
    | .null | .bool _ | .num _ | .float _ | .str _ | .arr _ => isFalse nofun
  termination_by structural a => a

/-- Equality of the items of two arrays. -/
def decEqItems : (a b : List Json) → Decidable (a = b)
  | [], [] => isTrue rfl
  | [], _ :: _ => isFalse nofun
  | _ :: _, [] => isFalse nofun
  | x :: xs, y :: ys => match decEq x y, decEqItems xs ys with
    | isTrue h, isTrue hs => isTrue (h ▸ hs ▸ rfl)
    | isFalse h, _ => isFalse fun e => h (by injection e)
    | _, isFalse h => isFalse fun e => h (by injection e)
  termination_by structural a => a

/-- Equality of the members of two objects. -/
def decEqFields : (a b : List (String × Json)) → Decidable (a = b)
  | [], [] => isTrue rfl
  | [], _ :: _ => isFalse nofun
  | _ :: _, [] => isFalse nofun
  | x :: xs, y :: ys => match decEqField x y, decEqFields xs ys with
    | isTrue h, isTrue hs => isTrue (h ▸ hs ▸ rfl)
    | isFalse h, _ => isFalse fun e => h (by injection e)
    | _, isFalse h => isFalse fun e => h (by injection e)
  termination_by structural a => a

/-- Equality of two members. -/
def decEqField : (a b : String × Json) → Decidable (a = b)
  | (k, v), (k', v') => match (inferInstance : Decidable (k = k')), decEq v v' with
    | isTrue h, isTrue hs => isTrue (h ▸ hs ▸ rfl)
    | isFalse h, _ => isFalse fun e => h (by injection e)
    | _, isFalse h => isFalse fun e => h (by injection e)
  termination_by structural a => a

end

instance : DecidableEq Json := decEq

/-- The member `key` of an object. -/
def get? (key : String) : Json → Option Json
  | .obj fields => fields.lookup key
  | _ => none

/-- The members of an object with `key` set, in the order of the keys. -/
def setField (key : String) (value : Json) : List (String × Json) → List (String × Json)
  | [] => [(key, value)]
  | (k, v) :: rest =>
      if key < k then (key, value) :: (k, v) :: rest
      else if key = k then (key, value) :: rest
      else (k, v) :: setField key value rest

/-- The members of an object given in any order (the last one wins for a key). -/
def fieldsOf (fields : List (String × Json)) : List (String × Json) :=
  fields.foldl (fun members (key, value) => setField key value members) []

/-- A new key adds one member. -/
lemma setField_perm {key : String} (value : Json) {l : List (String × Json)}
    (h : key ∉ l.map Prod.fst) : (setField key value l).Perm ((key, value) :: l) := by
  induction l with
  | nil => exact .refl _
  | cons member rest ih =>
      obtain ⟨k, v⟩ := member
      rw [List.map_cons, List.mem_cons, not_or] at h
      rw [setField]
      split_ifs with hlt heq
      · exact .refl _
      · exact absurd heq h.1
      · exact ((ih h.2).cons (k, v)).trans (.swap _ _ _)

/-- Members with distinct keys are all kept. -/
lemma fieldsOf_perm {l : List (String × Json)} (h : (l.map Prod.fst).Nodup) :
    (fieldsOf l).Perm l := by
  have hfold : ∀ (l members : List (String × Json)), ((members ++ l).map Prod.fst).Nodup →
      (l.foldl (fun members (key, value) => setField key value members) members).Perm
        (members ++ l) := by
    intro l
    induction l with
    | nil => intro members _; rw [List.append_nil]; exact .refl _
    | cons field rest ih =>
        intro members hnodup
        obtain ⟨key, value⟩ := field
        have hmiddle : (members ++ (key, value) :: rest).Perm
            ((key, value) :: members ++ rest) := List.perm_middle
        have hnodup' : (((key, value) :: members ++ rest).map Prod.fst).Nodup :=
          (hmiddle.map _).nodup_iff.mp hnodup
        have hkey : key ∉ members.map Prod.fst := by
          rw [List.cons_append, List.map_cons, List.nodup_cons, List.map_append,
            List.mem_append, not_or] at hnodup'
          exact hnodup'.1.1
        have hset := (setField_perm value hkey).append_right rest
        have hnext := ih (setField key value members) ((hset.map _).nodup_iff.mpr hnodup')
        exact hnext.trans (hset.trans hmiddle.symm)
  exact hfold l [] h

/-- The text of a string value. -/
def asStr : Json → Option String
  | .str s => some s
  | _ => none

/-- The members of an object value. -/
def asObject : Json → Option (List (String × Json))
  | .obj fields => some fields
  | _ => none

end Json
