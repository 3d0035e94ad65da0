import CodeAtlas.Graph.Dependency
import CodeAtlas.Outline.Parse
import CodeAtlas.Scan.Change
import CodeAtlas.Store.Process

/-! # Ingestion

A project is scanned, its registry is brought in line with the disk, and the records of files that
are new or have become newer are replaced. -/

namespace CodeAtlas.Project

open CodeAtlas.Disk CodeAtlas.Outline CodeAtlas.Scan CodeAtlas.Store

inductive IngestionError
  | scan (e : ScanError)
  | store (e : StoreError)
  | nesting (e : NestingError)
  deriving Repr, DecidableEq

def IngestionError.message : IngestionError → String
  | scan e => e.message
  | store e => e.message
  | nesting e => e.message

instance : Coe StoreError IngestionError := ⟨.store⟩

abbrev Work (α : Type) := Process IngestionError α

/-! ## Records of one file -/

/-- Reads a source text and replaces the records of a file. A file with errors has no records. -/
def indexFile (fileId path source : String) (o : Options) : Work ParsedFile := do
  let parsed ← Process.expect ((Outline.tryParse path source o).mapError .nesting)
  deleteRecords fileId
  if !parsed.hasErrors then createRecords fileId parsed
  return parsed

/-- Indexes a registered file, unless its language is not supported or it cannot be read. Content
that is already at hand is not read again. -/
def reindex (d : Disk) (r : FileRecord) (m : Metadata) : Work Bool :=
  if !isSupported m.path then return false
  else match m.content?.or (d.readText? m.path) with
    | none => return false
    | some source => do
      let _ ← indexFile r.fileId m.path source .default
      return true

/-- Removes a file from the registry with all its records. -/
def removeFile (r : FileRecord) : Work Unit := do
  deleteRecords r.fileId
  Process.update (·.deleteFile (r.id : Int))

/-! ## Whole projects -/

structure Totals where
  files : Nat
  folders : Nat
  size : Int
  added : Nat
  modified : Nat
  deleted : Nat
  indexed : Nat
  deriving Repr, DecidableEq

/-- What was done in a scan of a project, with the first entries that were found. -/
structure Report where
  totals : Totals
  entries : List Metadata
  deriving Repr, DecidableEq

/-- No more entries than this are reported. -/
def maxReported : Nat := 100

/-- The totals before anything is indexed. -/
def Totals.of (found : List Metadata) (changes : ChangeSet) : Totals :=
  let files := found.filter (·.isFile)
  { files := files.length
    folders := found.length - files.length
    size := files.foldl (fun n m => n + m.size) 0
    added := changes.added.length
    modified := changes.modified.length
    deleted := changes.deleted.length
    indexed := 0 }

/-- What is known of an entry from the scan that carries content. -/
def withContent (found : Keyed Metadata) (m : Metadata) : Metadata :=
  (found.get? (Path.normalize m.path)).getD m

def register (projectId : String) (found : Keyed Metadata) (m : Metadata) :
    Work (FileRecord × Metadata) := do
  let m := withContent found m
  let r ← Process.step (·.registerFile projectId (.ofMetadata m))
  return (r, m)

/-- Refreshes the row of a file that has become newer. -/
def refresh (rows : Keyed FileRecord) (found : Keyed Metadata) (m : Metadata) :
    Work (Option (FileRecord × Metadata)) :=
  match rows.get? (Path.normalize m.path) with
  | none => return none
  | some r => do
    let m := withContent found m
    Process.update (·.updateFile (r.id : Int) (.ofMetadata m))
    return some (r, m)

def removePath (rows : Keyed FileRecord) (path : String) : Work Unit :=
  match rows.get? (Path.normalize path) with
  | none => return ()
  | some r => removeFile r

/-- Scans a project. The registry is compared with a scan of its own, without content. -/
def scanProject (s : Scanner) (d : Disk) (projectId root : String) (content : Bool)
    (maxFileSize? : Option Int) : Work Report := do
  let found ← Process.expect ((s.scan d ⟨content, maxFileSize?, [], none⟩ root).mapError .scan)
  let rows ← Process.query (·.filesOf projectId)
  let snapshot : Keyed Time.Moment := Keyed.ofList (rows.map fun r => (r.path, r.modified))
  let changes ← Process.expect ((s.changes d root snapshot).mapError .scan)
  let byPath : Keyed Metadata := Keyed.ofList (found.map fun m => (Path.normalize m.path, m))
  let rowsByPath : Keyed FileRecord := Keyed.ofList (rows.map fun r => (Path.normalize r.path, r))
  let added ← changes.added.mapM (register projectId byPath)
  let modified ← changes.modified.mapM (refresh rowsByPath byPath)
  changes.deleted.forM (removePath rowsByPath)
  let done ← (added ++ modified.filterMap id).mapM fun (r, m) => reindex d r m
  return {
    totals := { Totals.of found changes with indexed := done.count true }
    entries := found.take maxReported }

/-! ## Dependencies -/

/-- Looks dependencies up in a database. -/
def lookup (db : Database) : Graph.Lookup StoreError := ⟨db.importsOf, db.exportsOf⟩

def projectGraph (db : Database) (projectId : String) : Except StoreError Graph.DependencyGraph := do
  let rows ← db.filesOf projectId
  let fileIds := (rows.filter (·.kind == .file)).map (·.fileId)
  return Graph.DependencyGraph.build (lookup db) fileIds

def fileDependencies (db : Database) (fileId : String) :
    Except StoreError Graph.FileDependencies :=
  Graph.findDependencies (lookup db) fileId

end CodeAtlas.Project
