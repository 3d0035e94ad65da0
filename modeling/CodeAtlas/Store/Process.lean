import CodeAtlas.Store.Registry

/-! # Processes

Work that changes a database step by step. A step that fails changes nothing and ends the
process, but what earlier steps have changed stays. -/

namespace CodeAtlas.Store

open CodeAtlas.Outline CodeAtlas.Scan

/-- A process that may fail with `ε` and yields an `α`. -/
abbrev Process (ε α : Type) := ExceptT ε (StateM Database) α

namespace Process

variable {ε α : Type}

def fail (e : ε) : Process ε α := fun db => (.error e, db)

/-- Ends the process if something outside the database has failed. -/
def expect (result : Except ε α) : Process ε α := fun db => (result, db)

variable [Coe StoreError ε]

/-- A step that only reads. -/
def query (f : Database → Except StoreError α) : Process ε α := fun db => match f db with
  | .ok a => (.ok a, db)
  | .error e => (.error (e : ε), db)

/-- A step that changes the database and yields a value. -/
def step (f : Database → Except StoreError (α × Database)) : Process ε α := fun db => match f db with
  | .ok (a, after) => (.ok a, after)
  | .error e => (.error (e : ε), db)

/-- A step that only changes the database. -/
def update (f : Database → Except StoreError Database) : Process ε Unit := fun db => match f db with
  | .ok after => (.ok (), after)
  | .error e => (.error (e : ε), db)

end Process

/-! ## Records of a file -/

variable {ε : Type} [Coe StoreError ε]

/-- Drops everything that is stored about a file but its registration. -/
def deleteRecords (fileId : String) : Process ε Unit := do
  Process.update (·.deleteEntities fileId)
  Process.update (·.deleteImports fileId)
  Process.update (·.deleteExports fileId)

def createEntity (fileId : String) (e : Entity) : Process ε Unit :=
  Process.update (·.storeEntity fileId (.ofEntity e))

def createImport (fileId : String) (i : Import) : Process ε Unit :=
  Process.update (·.storeImport fileId (.ofImport i))

def createExport (fileId : String) (e : Export) : Process ε Unit :=
  Process.update (·.storeExport fileId (.ofExport e))

/-- Stores all that a file declares. -/
def createRecords (fileId : String) (f : ParsedFile) : Process ε Unit := do
  f.entities.forM (createEntity fileId)
  f.imports.forM (createImport fileId)
  f.exports.forM (createExport fileId)

end CodeAtlas.Store
