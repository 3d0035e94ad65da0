import CodeAtlas.Time.Moment

/-! # What a scan finds -/

namespace CodeAtlas.Scan

inductive EntryKind
  | file
  | folder
  deriving Repr, DecidableEq, Inhabited

namespace EntryKind

def name : EntryKind → String
  | file => "file"
  | folder => "folder"

def ofName? (s : String) : Option EntryKind := [file, folder].find? (·.name == s)

end EntryKind

/-- A file or a folder. The size of a file counts bytes, that of a folder is zero. -/
structure Metadata where
  path : String
  name : String
  kind : EntryKind
  size : Int
  modified : Time.Moment
  extension? : Option String
  content? : Option String
  deriving Repr, DecidableEq, Inhabited

def Metadata.isFile (m : Metadata) : Bool := m.kind == .file

end CodeAtlas.Scan
