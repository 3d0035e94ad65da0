import CodeAtlas.Path.Normal

/-! # Disk entries

A disk is a tree of files, folders, links and special files. An entry is found, placed and taken
away by the names that lead to it. -/

namespace CodeAtlas.Disk

/-- An entry of a folder. Times are nanoseconds since 1970. Links and special entries have none: no scan reports
them, so their times could only show by lying outside the calendar, where they would end the scan as the time of
a file does. They are taken to lie inside it. -/
inductive Entry
  | file (name : String) (bytes : List UInt8) (modified : Int)
  | folder (name : String) (modified : Int) (entries : List Entry)
  | link (name target : String)
  | special (name : String)
  deriving Repr, Inhabited

/-- When an entry was changed, if nothing else is said. -/
def defaultTime : Int := 1000000000000000000

namespace Entry

def name : Entry → String
  | file name .. | folder name .. | link name _ | special name => name

/-- The same entry under another name. -/
def renamed (name : String) : Entry → Entry
  | file _ bytes modified => file name bytes modified
  | folder _ modified entries => folder name modified entries
  | link _ target => link name target
  | special _ => special name

def isFolder : Entry → Bool
  | folder .. => true
  | _ => false

def emptyFolder (name : String) : Entry := folder name defaultTime []

end Entry

open Entry

/-- The entry of a name. -/
def entryOf? (entries : List Entry) (name : String) : Option Entry :=
  entries.find? (·.name == name)

/-- The entry to which a list of names leads, without following links. -/
def Entry.find? : Entry → List String → Option Entry
  | e, [] => some e
  | folder _ _ entries, name :: names => match entryOf? entries name with
    | some e => e.find? names
    | none => none
  | _, _ :: _ => none
termination_by structural _ names => names

/-- Puts an entry where its name belongs: entries are kept in the order of their names. An entry
of the same name is replaced. -/
def insert (e : Entry) : List Entry → List Entry
  | [] => [e]
  | f :: rest =>
    if f.name == e.name then e :: rest
    else if e.name < f.name then e :: f :: rest
    else f :: insert e rest

def erase (entries : List Entry) (name : String) : List Entry :=
  entries.filter (·.name != name)

/-- Changes what the names lead to. Folders on the way to something new are made; nothing is done
below what is no folder. -/
def Entry.alter (change : Option Entry → Option Entry) : Entry → List String → Entry
  | folder own modified entries, [name] => match change (entryOf? entries name) with
    | some e => folder own modified (insert (e.renamed name) entries)
    | none => folder own modified (erase entries name)
  | folder own modified entries, name :: names => match entryOf? entries name with
    | some inner => folder own modified (insert (inner.alter change names) entries)
    | none =>
      if (change none).isNone then folder own modified entries
      else folder own modified (insert ((emptyFolder name).alter change names) entries)
  | e, _ => e
termination_by structural _ names => names

/-- The number of links in a tree. -/
def Entry.links : Entry → Nat
  | file .. | special .. => 0
  | link .. => 1
  | folder _ _ entries => linksOf entries
where
  linksOf : List Entry → Nat
    | [] => 0
    | e :: rest => e.links + linksOf rest

end CodeAtlas.Disk
