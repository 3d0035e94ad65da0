import CodeAtlas.Disk.Basic

/-! # Changing a disk

Paths of changes are absolute. Folders on the way to a new entry are made with it, and no change
sets the time of the folder that it is made in. -/

namespace CodeAtlas.Disk

namespace Entry

/-- The same file or folder with another time. -/
def touched (modified : Int) : Entry → Entry
  | file name bytes _ => file name bytes modified
  | folder name _ entries => folder name modified entries
  | other => other

end Entry

namespace Disk

/-- Changes what a path leads to; links on the way are followed. -/
def change (d : Disk) (path : String) (f : Option Entry → Option Entry) : Disk :=
  match trueNames d.root path with
  | .ok names => { d with root := d.root.alter f names }
  | .error _ => d

/-- Changes the entry of a path itself, which may be a link. -/
def changeHere (d : Disk) (path : String) (f : Option Entry → Option Entry) : Disk :=
  { d with root := d.root.alter f (settled (namesOf path)) }

def write (d : Disk) (path : String) (bytes : List UInt8) (modified : Int) : Disk :=
  d.change path fun _ => some (.file "" bytes modified)

/-- Makes a folder, or sets the time of one that is there. -/
def makeFolder (d : Disk) (path : String) (modified? : Option Int) : Disk :=
  d.change path fun old? =>
    let folder := old?.getD (.emptyFolder "")
    some (match modified? with
      | some modified => folder.touched modified
      | none => folder)

def makeLink (d : Disk) (path target : String) : Disk :=
  d.changeHere path fun _ => some (.link "" target)

/-- Makes an entry that is neither a file nor a folder. -/
def makeSpecial (d : Disk) (path : String) : Disk :=
  d.changeHere path fun _ => some (.special "")

def touch (d : Disk) (path : String) (modified : Int) : Disk :=
  d.change path fun old? => old?.map (·.touched modified)

/-- Removes an entry with all that is below it. -/
def remove (d : Disk) (path : String) : Disk := d.changeHere path fun _ => none

/-- Moves an entry with all that is below it. -/
def rename (d : Disk) (path newPath : String) : Disk :=
  match d.root.find? (settled (namesOf path)) with
  | some e => (d.remove path).changeHere newPath fun _ => some e
  | none => d

end Disk

end CodeAtlas.Disk
