/-! # Tables

Rows in the order in which they were stored. A new row gets the number after the largest one in
its table, so the number of a row that was the last one is given again once that row is gone. -/

namespace CodeAtlas.Store

def nextId (ids : List Nat) : Nat := ids.foldl max 0 + 1

/-- A record of a file. -/
structure Row (α : Type) where
  id : Nat
  fileId : String
  record : α
  deriving Repr, DecidableEq

abbrev Table (α : Type) := List (Row α)

namespace Table

variable {α : Type}

/-- The records of a file in the order in which they were stored. -/
def ofFile (t : Table α) (fileId : String) : List α :=
  (t.filter (·.fileId == fileId)).map (·.record)

def add (t : Table α) (fileId : String) (record : α) : Table α :=
  t ++ [⟨nextId (t.map (·.id)), fileId, record⟩]

/-- Drops all records of a file. -/
def erase (t : Table α) (fileId : String) : Table α := t.filter (·.fileId != fileId)

theorem ofFile_add_self (t : Table α) (fileId : String) (record : α) :
    (t.add fileId record).ofFile fileId = t.ofFile fileId ++ [record] := by
  simp [ofFile, add]

theorem ofFile_add_of_ne (t : Table α) {fileId other : String} (record : α)
    (h : fileId ≠ other) : (t.add fileId record).ofFile other = t.ofFile other := by
  simp [ofFile, add, h]

theorem ofFile_erase_self (t : Table α) (fileId : String) :
    (t.erase fileId).ofFile fileId = [] := by
  simp [ofFile, erase]

theorem ofFile_erase_of_ne (t : Table α) {fileId other : String} (h : fileId ≠ other) :
    (t.erase fileId).ofFile other = t.ofFile other := by
  simp only [ofFile, erase, List.filter_filter]
  congr 1
  apply List.filter_congr
  intro row _
  by_cases hr : row.fileId = other <;> simp [hr, Ne.symm h]

end Table

end CodeAtlas.Store
