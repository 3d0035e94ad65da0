import CodeAtlas.Keyed
import CodeAtlas.Scan.Scanner

/-! # Changes

What a scan finds that an earlier snapshot does not say. A snapshot holds the time of every path,
in any spelling of it. -/

namespace CodeAtlas.Scan

open CodeAtlas.Disk CodeAtlas.Time

/-- The files that are new, the files that have become newer, and the paths of the snapshot that
lead to nothing now. -/
structure ChangeSet where
  added : List Metadata
  modified : List Metadata
  deleted : List String
  deriving Repr, DecidableEq

def ChangeSet.isEmpty (c : ChangeSet) : Bool :=
  c.added.isEmpty && c.modified.isEmpty && c.deleted.isEmpty

/-- The times of a snapshot by the normal form of their paths. Of several spellings of a path the
last one counts. -/
def knownTimes (snapshot : Keyed Moment) : Keyed Moment :=
  Keyed.ofList (snapshot.map fun (path, time) => (Path.normalize path, time.assumeUtc))

def ChangeSet.between (snapshot : Keyed Moment) (found : List Metadata) : ChangeSet :=
  let known := knownTimes snapshot
  let present := found.map fun m => Path.normalize m.path
  let files := found.filter (·.isFile)
  { added := files.filter fun m => (known.get? (Path.normalize m.path)).isNone
    modified := files.filter fun m => match known.get? (Path.normalize m.path) with
      | some time => m.modified.isAfter time
      | none => false
    deleted := (snapshot.map Prod.fst).filter fun path => !present.contains (Path.normalize path) }

/-- The changes below a root since a snapshot was taken. -/
def Scanner.changes (s : Scanner) (d : Disk) (root : String) (snapshot : Keyed Moment) :
    Except ScanError ChangeSet :=
  (s.scan d .default root).map (ChangeSet.between snapshot)

end CodeAtlas.Scan
