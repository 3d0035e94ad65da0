import CodeAtlas.Disk.Link
import CodeAtlas.Text.Utf8

/-! # Disks

A tree of entries, and what the disk refuses to do with some of them. -/

namespace CodeAtlas.Disk

/-- A disk. The paths of `unlisted`, `unknown` and `unread` are those whose listing, whose kind and
time, and whose content cannot be had. -/
structure Disk where
  root : Entry
  unlisted : List String
  unknown : List String
  unread : List String
  deriving Repr, Inhabited

/-- A disk that refuses nothing. -/
def Disk.ofRoot (root : Entry) : Disk := ⟨root, [], [], []⟩

namespace Disk

/-- The absolute path that a path leads to, without links. -/
def resolve (d : Disk) (path : String) : Except LinkError String :=
  (trueNames d.root path).map fun names =>
    String.ofList (Path.dropMark (pathOf names).toList)

/-- What a path leads to in the end. -/
def target? (d : Disk) (path : String) : Option Entry := (placeOf? d.root path).bind d.root.find?

def isFolder (d : Disk) (path : String) : Bool := (d.target? path).any Entry.isFolder

end Disk

/-- Every line break of a text as a single line feed. -/
def unifyBreaks : List Char → List Char
  | [] => []
  | '\r' :: '\n' :: cs => '\n' :: unifyBreaks cs
  | c :: cs => (if c == '\r' then '\n' else c) :: unifyBreaks cs

def textOf (bytes : List UInt8) : String := String.ofList (unifyBreaks (Text.decode bytes))

/-- The text of a file, unless it cannot be read. -/
def Disk.readText? (d : Disk) (path : String) : Option String :=
  if d.unread.contains path then none
  else match d.target? path with
    | some (.file _ bytes _) => some (textOf bytes)
    | _ => none

end CodeAtlas.Disk
