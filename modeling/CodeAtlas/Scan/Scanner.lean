import CodeAtlas.Disk.Basic
import CodeAtlas.Path.Extension
import CodeAtlas.Path.Pattern
import CodeAtlas.Scan.Metadata
import CodeAtlas.Settings.Service
import CodeAtlas.Time.FileClock

/-! # Scanning folders

All files and folders below a root, each folder before what is below it. What the disk refuses to
show is left out, and so are links, special files and whatever matches an excluded pattern. How deep
folders may stand inside each other is for the limits of a scan to say. -/

namespace CodeAtlas.Scan

open CodeAtlas.Disk

/-- What holds for every scan of a scanner, unless a scan says otherwise. -/
structure Scanner where
  patterns : List String
  maxFileSize : Int
  maxDepth : Int
  deriving Repr, DecidableEq

def Scanner.default : Scanner :=
  ⟨Path.defaultPatterns, Settings.defaultMaxFileSize, Settings.defaultMaxDepth⟩

/-- Further patterns are added to those that are always excluded. -/
def Scanner.make (patterns : List String) (maxFileSize? maxDepth? : Option Int) : Scanner :=
  { patterns := Path.defaultPatterns ++ patterns
    maxFileSize := maxFileSize?.getD Scanner.default.maxFileSize
    maxDepth := maxDepth?.getD Scanner.default.maxDepth }

structure ScanOptions where
  content : Bool
  maxFileSize? : Option Int
  patterns : List String
  maxDepth? : Option Int
  deriving Repr, DecidableEq

def ScanOptions.default : ScanOptions := ⟨false, none, [], none⟩

/-- What holds during one scan. The entries of the root have depth zero. -/
structure Limits where
  patterns : List String
  maxFileSize : Int
  maxDepth : Int
  content : Bool
  deriving Repr, DecidableEq

def Scanner.limits (s : Scanner) (o : ScanOptions) : Limits :=
  { patterns := s.patterns ++ o.patterns
    maxFileSize := o.maxFileSize?.getD s.maxFileSize
    maxDepth := o.maxDepth?.getD s.maxDepth
    content := o.content }

/-- A scan of a disk from a root. -/
structure Walk where
  disk : Disk
  root : String
  limits : Limits

def childPath (folder name : String) : String :=
  if folder.toList.getLast? == some '/' then folder ++ name else folder ++ "/" ++ name

namespace Walk

/-- Whether the walk passes over a path. -/
def skips (w : Walk) (path : String) : Bool :=
  Path.excluded path w.root w.limits.patterns || w.disk.unknown.contains path

/-- Whether the walk goes into a folder whose entries have the given depth. -/
def enters (w : Walk) (path : String) (depth : Nat) : Bool :=
  depth ≤ w.limits.maxDepth && !w.disk.unlisted.contains path

/-- The content of a file that is not too large. -/
def content? (w : Walk) (path : String) (size : Nat) : Option String :=
  if w.limits.content && size ≤ w.limits.maxFileSize then w.disk.readText? path else none

def file (w : Walk) (path name : String) (size : Nat) (modified : Time.Moment) : Metadata :=
  { path, name, kind := .file, size, modified, extension? := Path.fileType? name
    content? := w.content? path size }

def folder (path name : String) (modified : Time.Moment) : Metadata :=
  { path, name, kind := .folder, size := 0, modified, extension? := none, content? := none }

mutual

/-- What is found at an entry of a folder and below it. Only the times of what is found are read: a link or a
special entry is passed over, its time is inside the calendar. -/
def entry (w : Walk) (parent : String) (depth : Nat) : Entry → Except Time.YearError (List Metadata)
  | .file name bytes modified =>
    let path := childPath parent name
    if w.skips path then .ok []
    else do
      let time ← Time.Moment.ofNanos modified
      return [w.file path name bytes.length time]
  | .folder name modified inner =>
    let path := childPath parent name
    if w.skips path then .ok []
    else do
      let time ← Time.Moment.ofNanos modified
      let below ← if w.enters path (depth + 1) then w.entries path (depth + 1) inner else .ok []
      return folder path name time :: below
  | .link .. | .special .. => .ok []

/-- What is found in a folder, given its entries. -/
def entries (w : Walk) (parent : String) (depth : Nat) :
    List Entry → Except Time.YearError (List Metadata)
  | [] => .ok []
  | e :: rest => do
    let first ← w.entry parent depth e
    let others ← w.entries parent depth rest
    return first ++ others

end

end Walk

/-- Why a scan fails as a whole. -/
inductive ScanError
  | link (e : LinkError)
  | year (e : Time.YearError)
  deriving Repr, DecidableEq

def ScanError.message : ScanError → String
  | link e => e.message
  | year e => e.message

/-- All that is found below a root. A root that is no folder holds nothing. -/
def Scanner.scan (s : Scanner) (d : Disk) (o : ScanOptions) (root : String) :
    Except ScanError (List Metadata) :=
  match d.resolve root with
  | .error e => .error (.link e)
  | .ok path => match d.target? path with
    | some (.folder _ _ inner) =>
      let w : Walk := ⟨d, path, s.limits o⟩
      if w.enters path 0 then (w.entries path 0 inner).mapError .year else .ok []
    | _ => .ok []

end CodeAtlas.Scan
