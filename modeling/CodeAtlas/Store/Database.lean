import CodeAtlas.Store.Cell
import CodeAtlas.Store.Draft
import CodeAtlas.Store.Table

/-! # Databases

The tables of an index. A change that fails leaves the database as it was. -/

namespace CodeAtlas.Store

open CodeAtlas.Outline CodeAtlas.Scan

/-- A file of a project as it is registered. The time is universal; a stored row does not say so,
a record that is handed out does. -/
structure FileRecord where
  id : Nat
  projectId : String
  path : String
  name : String
  kind : EntryKind
  size : Int
  modified : Time.Moment
  extension? : Option String
  content? : Option String
  deriving Repr, DecidableEq, Inhabited

namespace FileRecord

/-- What the records of a file are stored under. -/
def fileId (r : FileRecord) : String := toString r.id

def handedOut (r : FileRecord) : FileRecord := { r with modified := r.modified.assumeUtc }

/-- A row as it is shown to developers. -/
def shown (r : FileRecord) : String :=
  s!"<ProjectFileModel id={r.id} path={Text.quoted r.path}>"

end FileRecord

/-- An entity as it is stored, with the texts of its kind and of its visibility. The database checks the
text of a kind, but takes any text for a visibility. Where there are no parameters their cell says so. -/
structure StoredEntity where
  id : String
  name : String
  kind : String
  startLine : Int
  endLine : Int
  startColumn : Int
  endColumn : Int
  params : ListCell
  returnType? : Option String
  isAsync? : Option Int
  isExported? : Option Int
  parentClass? : Option String
  visibility? : Option String
  kind_checked : (EntityKind.ofName? kind).isSome
  deriving Repr, DecidableEq

namespace StoredEntity

def ofEntity (e : Entity) : StoredEntity where
  id := e.id
  name := e.name
  kind := e.kind.name
  startLine := e.startLine
  endLine := e.endLine
  startColumn := e.startColumn
  endColumn := e.endColumn
  params := .write e.params?
  returnType? := e.returnType?
  isAsync? := e.isAsync?.map writeFlag
  isExported? := e.isExported?.map writeFlag
  parentClass? := e.parentClass?
  visibility? := e.visibility?.map (·.name)
  kind_checked := by rw [EntityKind.ofName?_name]; rfl

/-- Reads a visibility. An empty text says nothing, like one that is missing. -/
def readVisibility : Option String → Except StoreError (Option Visibility)
  | none => .ok none
  | some name =>
    if name.isEmpty then .ok none
    else match Visibility.ofName? name with
      | some v => .ok (some v)
      | none => .error (.unknownVisibility name)

def read (e : StoredEntity) : Except StoreError Entity := do
  let visibility? ← readVisibility e.visibility?
  return {
    id := e.id, name := e.name, kind := (EntityKind.ofName? e.kind).get e.kind_checked
    startLine := e.startLine, endLine := e.endLine, startColumn := e.startColumn
    endColumn := e.endColumn, params? := e.params.read, returnType? := e.returnType?
    isAsync? := e.isAsync?.map readFlag, isExported? := e.isExported?.map readFlag
    parentClass? := e.parentClass?, visibility? }

theorem readVisibility_name (v? : Option Visibility) :
    readVisibility (v?.map (·.name)) = .ok v? := by
  cases v? with
  | none => rfl
  | some v => cases v <;> rfl

/-- What is stored of an entity is read back as it was. -/
theorem read_ofEntity (e : Entity) : (ofEntity e).read = .ok e := by
  have hkind : (EntityKind.ofName? (ofEntity e).kind).get (ofEntity e).kind_checked = e.kind := by
    simp only [ofEntity, EntityKind.ofName?_name, Option.get_some]
  have hflag (b? : Option Bool) : (b?.map writeFlag).map readFlag = b? := by cases b? <;> simp
  simp only [read, hkind]
  simp only [ofEntity, readVisibility_name, ListCell.read_write, hflag]
  rfl

end StoredEntity

structure StoredImport where
  source : String
  names : ListCell
  isDefault : Int
  isNamespace : Int
  line : Int
  deriving Repr, DecidableEq

namespace StoredImport

def ofImport (i : Import) : StoredImport where
  source := i.source
  names := .write (some i.names)
  isDefault := writeFlag i.isDefault
  isNamespace := writeFlag i.isNamespace
  line := i.line

/-- Reads an import, which has no names if its cell has no list. -/
def read (i : StoredImport) : Import where
  source := i.source
  names := i.names.read.getD []
  isDefault := readFlag i.isDefault
  isNamespace := readFlag i.isNamespace
  line := i.line

@[simp] theorem read_ofImport (i : Import) : (ofImport i).read = i := by
  simp [read, ofImport]

end StoredImport

structure StoredExport where
  name : String
  isDefault : Int
  line : Int
  deriving Repr, DecidableEq

namespace StoredExport

def ofExport (e : Export) : StoredExport where
  name := e.name
  isDefault := writeFlag e.isDefault
  line := e.line

def read (e : StoredExport) : Export where
  name := e.name
  isDefault := readFlag e.isDefault
  line := e.line

@[simp] theorem read_ofExport (e : Export) : (ofExport e).read = e := by
  simp [read, ofExport]

end StoredExport

structure Tables where
  files : List FileRecord
  entities : Table StoredEntity
  imports : Table StoredImport
  exports : Table StoredExport
  deriving Repr, DecidableEq

def Tables.empty : Tables := ⟨[], [], [], []⟩

/-- A database, which has no tables after they have been dropped. -/
structure Database where
  tables? : Option Tables
  deriving Repr, DecidableEq

namespace Database

def empty : Database := ⟨some .empty⟩

/-- Drops all tables. -/
def dropped : Database := ⟨none⟩

/-- Creates the tables if they are missing. -/
def created (db : Database) : Database := ⟨some (db.tables?.getD .empty)⟩

/-- A database that is closed and opened again: one in memory starts anew. -/
def reopened (db : Database) (inMemory : Bool) : Database := if inMemory then .empty else db.created

def tableNames (db : Database) : List String :=
  if db.tables?.isSome then TableName.all.map (·.text) else []

/-- The tables, for someone who needs a certain one of them. -/
def tables (db : Database) (needed : TableName) : Except StoreError Tables :=
  match db.tables? with
  | some t => .ok t
  | none => .error (.noTable needed)

/-! ## Entities -/

def entitiesOf (db : Database) (fileId : String) : Except StoreError (List Entity) := do
  let t ← db.tables .entities
  (t.entities.ofFile fileId).mapM StoredEntity.read

def deleteEntities (db : Database) (fileId : String) : Except StoreError Database := do
  let t ← db.tables .entities
  return ⟨some { t with entities := t.entities.erase fileId }⟩

def storeEntity (db : Database) (fileId? : Option String) (d : EntityDraft) :
    Except StoreError Database := do
  let t ← db.tables .entities
  checkIntegers d.integers
  let fileId ← required .entities "file_id" fileId?
  let entity ← d.complete
  return ⟨some { t with entities := t.entities.add fileId (.ofEntity entity) }⟩

/-- Writes a row by hand, with the texts of its kind and of its visibility. -/
def storeRawEntity (db : Database) (fileId? kind? visibility? : Option String) :
    Except StoreError Database := do
  let t ← db.tables .entities
  let fileId ← required .entities "file_id" fileId?
  let kindName ← required .entities "kind" kind?
  if h : (EntityKind.ofName? kindName).isSome then
    let row : StoredEntity := {
      id := "x:1:0", name := "x", kind := kindName, startLine := 1, endLine := 1, startColumn := 0
      endColumn := 1, params := .write none, returnType? := none, isAsync? := none, isExported? := none
      parentClass? := none, visibility?, kind_checked := h }
    return ⟨some { t with entities := t.entities.add fileId row }⟩
  else throw .entityKind

/-! ## Imports -/

def importsOf (db : Database) (fileId : String) : Except StoreError (List Import) := do
  let t ← db.tables .imports
  return (t.imports.ofFile fileId).map (·.read)

def deleteImports (db : Database) (fileId : String) : Except StoreError Database := do
  let t ← db.tables .imports
  return ⟨some { t with imports := t.imports.erase fileId }⟩

def storeImport (db : Database) (fileId? : Option String) (d : ImportDraft) :
    Except StoreError Database := do
  let t ← db.tables .imports
  checkIntegers d.integers
  let fileId ← required .imports "file_id" fileId?
  let i ← d.complete
  return ⟨some { t with imports := t.imports.add fileId (.ofImport i) }⟩

/-! ## Exports -/

def exportsOf (db : Database) (fileId : String) : Except StoreError (List Export) := do
  let t ← db.tables .exports
  return (t.exports.ofFile fileId).map (·.read)

def deleteExports (db : Database) (fileId : String) : Except StoreError Database := do
  let t ← db.tables .exports
  return ⟨some { t with exports := t.exports.erase fileId }⟩

def storeExport (db : Database) (fileId? : Option String) (d : ExportDraft) :
    Except StoreError Database := do
  let t ← db.tables .exports
  checkIntegers d.integers
  let fileId ← required .exports "file_id" fileId?
  let e ← d.complete
  return ⟨some { t with exports := t.exports.add fileId (.ofExport e) }⟩

/-- Stores exports of files all at once. If a reason to abort is given and not empty, none of them
is kept. -/
def storeExports (db : Database) (drafts : List (Option String × ExportDraft))
    (abort? : Option String) : Except StoreError Database := do
  let db ← drafts.foldlM (fun db (fileId?, d) => db.storeExport fileId? d) db
  match abort?.filter (!·.isEmpty) with
  | some reason => throw (.aborted reason)
  | none => return db

end Database

end CodeAtlas.Store
