import CodeAtlas.Text.Quoted
import CodeAtlas.Time.Moment

/-! # Failures of the store -/

namespace CodeAtlas.Store

inductive TableName
  | files
  | entities
  | imports
  | exports
  deriving Repr, DecidableEq

namespace TableName

def text : TableName → String
  | files => "project_files"
  | entities => "code_entities"
  | imports => "code_imports"
  | exports => "code_exports"

/-- All tables in the order of their names. -/
def all : List TableName := [entities, exports, imports, files]

end TableName

/-- Why the store refuses something. -/
inductive StoreError
  | noTable (table : TableName)
  | missing (table : TableName) (column : String)
  | fileKind
  | entityKind
  | duplicatePath
  | tooLarge
  | time (e : Time.TimeError)
  | unknownVisibility (name : String)
  | aborted (reason : String)
  deriving Repr, DecidableEq

def StoreError.message : StoreError → String
  | noTable t => s!"no such table: {t.text}"
  | missing t column => s!"NOT NULL constraint failed: {t.text}.{column}"
  | fileKind => "CHECK constraint failed: kind IN ('file', 'folder')"
  | entityKind => "CHECK constraint failed: " ++
      "kind IN ('function', 'class', 'method', 'property', 'interface', 'type')"
  | duplicatePath => "UNIQUE constraint failed: project_files.project_id, project_files.path"
  | tooLarge => "Python int too large to convert to SQLite INTEGER"
  | time e => e.message
  | unknownVisibility name => Text.notAmong "Visibility" name
  | aborted reason => reason

/-- The integers that a row can hold: those of 64 bits. -/
def isStorable (n : Int) : Bool := -9223372036854775808 ≤ n && n ≤ 9223372036854775807

/-- Integers are checked before anything is stored. -/
def checkIntegers (ns : List Int) : Except StoreError Unit :=
  if ns.all isStorable then .ok () else .error .tooLarge

/-- The value of a column that must have one. -/
def required {α : Type} (table : TableName) (column : String) : Option α → Except StoreError α
  | some a => .ok a
  | none => .error (.missing table column)

end CodeAtlas.Store
