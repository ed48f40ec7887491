import Mathlib

/-!
# Approved connections

The connections of shared MCP servers as the database has them.  Tokens and codes are given by
their hashes throughout.
-/

namespace Teitunnel.Mcp

/-- Milliseconds since the epoch. -/
abbrev Timestamp := ℕ

/-- An approved connection. -/
structure Grant where
  id : String
  host : String
  clientId : String
  accessHash : Option String
  accessExpiresAt : Option Timestamp
  refreshHash : String
  refreshExpiresAt : Timestamp
  /-- The server it was granted for, when the client named one. -/
  resource : Option String
  /-- When it ends however it's used. -/
  expiresAt : Timestamp
  deriving DecidableEq

/-- A connection as it is stored. -/
structure Row extends Grant where
  previousRefreshHash : Option String
  deriving DecidableEq

def Grant.newRow (grant : Grant) : Row := { toGrant := grant, previousRefreshHash := none }

/-- The tokens a row names. -/
def Row.tokens (row : Row) : List String :=
  row.refreshHash :: (row.accessHash.toList ++ row.previousRefreshHash.toList)

/-- What a refresh token found. -/
inductive Refresh where
  | current (grant : Grant)
  /-- It was already exchanged. -/
  | reused (grant : String)
  | unknown
  deriving DecidableEq

section operations

variable (rows : List Row)

/-- Ids and refresh tokens are unique. -/
def insertGrant (grant : Grant) : Option (List Row) :=
  if rows.any fun row => row.id = grant.id || row.refreshHash = grant.refreshHash then none
  else some (rows ++ [grant.newRow])

def findRefresh (host refreshHash : String) : Refresh :=
  match rows.find? fun row => row.host = host && row.refreshHash = refreshHash with
  | some row => .current row.toGrant
  | none =>
      match rows.find? fun row => row.host = host && row.previousRefreshHash = some refreshHash with
      | some row => .reused row.id
      | none => .unknown

/-- New tokens for a row, the refresh token it had remembered. -/
def Row.rotated (row : Row) (access : String × Timestamp) (refresh : String × Timestamp) : Row :=
  { row with
    previousRefreshHash := some row.refreshHash
    refreshHash := refresh.1
    refreshExpiresAt := refresh.2
    accessHash := some access.1
    accessExpiresAt := some access.2 }

/-- Whether a row is the one whose refresh token `presented` is. -/
def Row.isHeld (id presented : String) (row : Row) : Bool :=
  row.id = id && row.refreshHash = presented

/-- New tokens in exchange for the refresh token `presented`, and whether it was the one of the
connection. -/
def rotate (id presented : String) (access refresh : String × Timestamp) : List Row × Bool :=
  (rows.map fun row => if row.isHeld id presented then row.rotated access refresh else row,
    rows.countP (Row.isHeld id presented) = 1)

def deleteGrant (id : String) : List Row :=
  rows.filter fun row => row.id ≠ id

def grants : List Grant :=
  rows.map Row.toGrant

/-- Without the connections that are over. -/
def sweep (now : Timestamp) : List Row :=
  rows.filter fun row => !(row.refreshExpiresAt ≤ now || row.expiresAt ≤ now)

end operations

/-! ## What the operations leave -/

section facts

variable {rows rows' : List Row} {grant : Grant} {host token id presented : String}
  {access refresh : String × Timestamp} {row : Row} {now : Timestamp}

lemma insertGrant_eq_some (h : insertGrant rows grant = some rows') :
    rows' = rows ++ [grant.newRow] ∧
      ∀ row ∈ rows, row.id ≠ grant.id ∧ row.refreshHash ≠ grant.refreshHash := by
  rw [insertGrant] at h
  split_ifs at h with hany
  refine ⟨(Option.some.inj h).symm, fun row hrow => ?_⟩
  have hnot : ¬ (row.id = grant.id ∨ row.refreshHash = grant.refreshHash) := by
    rintro hsame
    exact hany (List.any_eq_true.mpr ⟨row, hrow, by simpa using hsame⟩)
  exact not_or.mp hnot

lemma mem_deleteGrant : row ∈ deleteGrant rows id ↔ row ∈ rows ∧ row.id ≠ id := by
  rw [deleteGrant, List.mem_filter, decide_eq_true_iff]

lemma mem_sweep : row ∈ sweep rows now ↔
    row ∈ rows ∧ now < row.refreshExpiresAt ∧ now < row.expiresAt := by
  simp [sweep]

lemma isHeld_iff : row.isHeld id presented = true ↔ row.id = id ∧ row.refreshHash = presented := by
  simp [Row.isHeld]

lemma mem_rotate : row ∈ (rotate rows id presented access refresh).1 ↔
    (row ∈ rows ∧ row.isHeld id presented = false) ∨
      ∃ old ∈ rows, old.isHeld id presented = true ∧ row = old.rotated access refresh := by
  rw [rotate, List.mem_map]
  constructor
  · rintro ⟨old, hold, rfl⟩
    cases hheld : old.isHeld id presented with
    | true => exact .inr ⟨old, hold, hheld, if_pos rfl⟩
    | false => exact .inl ⟨hold, hheld⟩
  · rintro (⟨hrow, hheld⟩ | ⟨old, hold, hheld, rfl⟩)
    · exact ⟨row, hrow, if_neg (by simp [hheld])⟩
    · exact ⟨old, hold, if_pos hheld⟩

/-- A rotation that took effect found the row. -/
lemma exists_of_rotate (h : (rotate rows id presented access refresh).2 = true) :
    ∃ row ∈ rows, row.isHeld id presented = true := by
  have hcount : rows.countP (Row.isHeld id presented) = 1 := by simpa [rotate] using h
  exact List.countP_pos_iff.mp (by omega)

lemma findRefresh_current (h : findRefresh rows host token = .current grant) :
    ∃ row ∈ rows, row.toGrant = grant ∧ grant.host = host ∧ grant.refreshHash = token := by
  rw [findRefresh] at h
  split at h
  · next row hrow =>
      obtain rfl : row.toGrant = grant := by simpa using h
      have hkey := List.find?_some hrow
      exact ⟨row, List.mem_of_find?_eq_some hrow, rfl, by simpa using hkey⟩
  · split at h <;> simp at h

lemma findRefresh_reused (h : findRefresh rows host token = .reused id) :
    ∃ row ∈ rows, row.id = id ∧ row.host = host ∧ row.previousRefreshHash = some token := by
  rw [findRefresh] at h
  split at h
  · simp at h
  · split at h
    · next row hrow =>
        obtain rfl : row.id = id := by simpa using h
        have hkey := List.find?_some hrow
        exact ⟨row, List.mem_of_find?_eq_some hrow, rfl, by simpa using hkey⟩
    · simp at h

/-- A row is found by its refresh token. -/
lemma findRefresh_of_current (hrow : row ∈ rows) (hhost : row.host = host)
    (htoken : row.refreshHash = token) : ∃ grant, findRefresh rows host token = .current grant := by
  rw [findRefresh]
  cases hfind : rows.find? fun row => row.host = host && row.refreshHash = token with
  | some found => exact ⟨found.toGrant, rfl⟩
  | none =>
      have hnot := List.find?_eq_none.mp hfind row hrow
      simp [hhost, htoken] at hnot

/-- A row is found by the refresh token it had before, unless another one has it. -/
lemma findRefresh_of_previous (hrow : row ∈ rows) (hhost : row.host = host)
    (htoken : row.previousRefreshHash = some token) :
    findRefresh rows host token ≠ .unknown := by
  rw [findRefresh]
  split
  · simp
  · cases hfind : rows.find? fun row => row.host = host && row.previousRefreshHash = some token with
    | some found => simp
    | none =>
        have hnot := List.find?_eq_none.mp hfind row hrow
        simp [hhost, htoken] at hnot

@[simp] lemma rotated_id : (row.rotated access refresh).id = row.id := rfl
@[simp] lemma rotated_host : (row.rotated access refresh).host = row.host := rfl
@[simp] lemma rotated_resource : (row.rotated access refresh).resource = row.resource := rfl
@[simp] lemma rotated_expiresAt : (row.rotated access refresh).expiresAt = row.expiresAt := rfl
@[simp] lemma rotated_refreshHash : (row.rotated access refresh).refreshHash = refresh.1 := rfl
@[simp] lemma rotated_accessHash : (row.rotated access refresh).accessHash = some access.1 := rfl
@[simp] lemma rotated_accessExpiresAt :
    (row.rotated access refresh).accessExpiresAt = some access.2 := rfl
@[simp] lemma rotated_refreshExpiresAt :
    (row.rotated access refresh).refreshExpiresAt = refresh.2 := rfl
@[simp] lemma rotated_previousRefreshHash :
    (row.rotated access refresh).previousRefreshHash = some row.refreshHash := rfl

/-- Operations other than insertion bring no id in. -/
lemma map_id_rotate :
    (rotate rows id presented access refresh).1.map (·.id) = rows.map (·.id) := by
  rw [rotate, List.map_map]
  refine List.map_congr_left fun row _ => ?_
  show (if row.isHeld id presented then row.rotated access refresh else row).id = row.id
  split_ifs <;> rfl

end facts

end Teitunnel.Mcp
