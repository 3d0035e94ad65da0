import CodeAtlas.Store.Database

/-! # The file registry

The files of all projects. A project has no path twice. -/

namespace CodeAtlas.Store

open CodeAtlas.Scan

namespace Database

/-- The files of a project in the order in which they were registered. -/
def filesOf (db : Database) (projectId : String) : Except StoreError (List FileRecord) := do
  let t ← db.tables .files
  return (t.files.filter (·.projectId == projectId)).map (·.handedOut)

/-- Adds a row to the registry, unless its path is taken. -/
def addFile (t : Tables) (r : FileRecord) : Except StoreError Database :=
  if t.files.any fun f => f.projectId == r.projectId && f.path == r.path then
    .error .duplicatePath
  else .ok ⟨some { t with files := t.files ++ [r] }⟩

def nextFileId (t : Tables) : Nat := nextId (t.files.map (·.id))

/-- Registers a file and yields its record. -/
def registerFile (db : Database) (projectId? : Option String) (d : FileDraft) :
    Except StoreError (FileRecord × Database) := do
  let modified ← d.modified.toNaiveUtc.mapError .time
  let t ← db.tables .files
  checkIntegers d.size?.toList
  let projectId ← required .files "project_id" projectId?
  let path ← required .files "path" d.path?
  let name ← required .files "name" d.name?
  let size ← required .files "size" d.size?
  let row : FileRecord := {
    id := nextFileId t, projectId, path, name, kind := d.kind, size, modified
    extension? := d.extension?, content? := d.content? }
  let db ← addFile t row
  return (row.handedOut, db)

/-- The moment of rows that are written by hand, the first of the year 2024. -/
def handMoment : Time.Moment := ⟨738885 * Time.microsPerDay, none⟩

/-- Writes a row by hand, with the text of its kind. -/
def registerRawFile (db : Database) (path? kind? : Option String) :
    Except StoreError (FileRecord × Database) := do
  let t ← db.tables .files
  let path ← required .files "path" path?
  let kindName ← required .files "kind" kind?
  match EntryKind.ofName? kindName with
  | none => throw .fileKind
  | some kind =>
    let row : FileRecord := {
      id := nextFileId t, projectId := "p", path, name := "n", kind, size := 0
      modified := handMoment, extension? := none, content? := none }
    let db ← addFile t row
    return (row.handedOut, db)

/-- Finds a row by its number. A number that no row has may be too large to ask for. -/
def findFile? (db : Database) (id : Int) : Except StoreError (Option FileRecord) := do
  let t ← db.tables .files
  match t.files.find? fun r => (r.id : Int) == id with
  | some r => return some r
  | none => do
    checkIntegers [id]
    return none

/-- Sets the size, the content and the time of a registered file. Nothing happens if there is no
such file. -/
def updateFile (db : Database) (id? : Option Int) (d : FileDraft) : Except StoreError Database :=
  match id? with
  | none => .ok db
  | some id => do
    let t ← db.tables .files
    match ← db.findFile? id with
    | none => return db
    | some found =>
      let modified ← d.modified.toNaiveUtc.mapError .time
      checkIntegers d.size?.toList
      let size ← required .files "size" d.size?
      let changed := fun r : FileRecord =>
        if r.id == found.id then { r with size, content? := d.content?, modified } else r
      return ⟨some { t with files := t.files.map changed }⟩

def deleteFile (db : Database) (id? : Option Int) : Except StoreError Database :=
  match id? with
  | none => .ok db
  | some id => do
    let t ← db.tables .files
    match ← db.findFile? id with
    | none => return db
    | some found => return ⟨some { t with files := t.files.filter (·.id != found.id) }⟩

end Database

end CodeAtlas.Store
