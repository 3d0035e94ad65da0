import CodeAtlas.Disk.Entry
import CodeAtlas.Text.Quoted

/-! # Following links

Where a path leads once every link on the way is replaced by its target. -/

namespace CodeAtlas.Disk

/-- The names that a text is made of. -/
def namesOf (path : String) : List String := (Path.segments path.toList).map String.ofList

/-- The absolute path of a list of names. -/
def pathOf (names : List String) : String :=
  String.ofList ('/' :: Path.join (names.map String.toList))

/-- Where a way through a tree leads. `ends` is false if it meets a link whose target leads back
to that link; the names are then those behind it as they were written. -/
structure Way where
  ends : Bool
  names : List String
  deriving Repr, DecidableEq

/-- Follows names from a place that has no link on the way to it. `out` says of which places double dots
lead out, `pending` are the links that are being followed, and `deeper` follows the targets of further
ones. -/
def followNames (root : Entry) (out : List String → Bool)
    (deeper : List (List String) → List String → List String → Way)
    (pending : List (List String)) (place : List String) : List String → Way
  | [] => ⟨true, place⟩
  | name :: rest =>
    if name == ".." then
      if out place then followNames root out deeper pending place.dropLast rest
      else ⟨false, place ++ name :: rest⟩
    else
      let next := place ++ [name]
      match root.find? next with
      | some (.link _ target) =>
        if pending.contains next then ⟨false, next ++ rest⟩
        else
          let start := if Path.isAbsolute target.toList then [] else place
          let way := deeper (next :: pending) start (namesOf target)
          if way.ends then followNames root out deeper pending way.names rest
          else ⟨false, way.names ++ rest⟩
      | _ => followNames root out deeper pending next rest

/-- Follows names where targets of links lead to further links no deeper than `nesting`. -/
def follow (root : Entry) (out : List String → Bool) :
    Nat → List (List String) → List String → List String → Way
  | 0 => followNames root out fun _ place names => ⟨false, place ++ names⟩
  | nesting + 1 => followNames root out (follow root out nesting)

/-- Why a path leads nowhere. -/
inductive LinkError
  | loop (path : String)
  | nullCharacter
  deriving Repr, DecidableEq

def LinkError.message : LinkError → String
  | loop path => s!"Symlink loop from {Text.quoted path}"
  | nullCharacter => "embedded null byte"

/-- Resolves double dots that are left after a loop. -/
def settled (names : List String) : List String :=
  (Path.resolve true (names.map String.toList)).map String.ofList

/-- Follows names from the root of a tree, and double dots out of anything, even out of what is not there.
No link is followed inside itself, so there are no more links inside each other than the tree has. -/
def followAll (root : Entry) (names : List String) : Way :=
  follow root (fun _ => true) root.links [] [] names

/-- The names of an absolute path without links and double dots. A loop is an error only if the
path still runs through it when its double dots are resolved as they are written. -/
def trueNames (root : Entry) (path : String) : Except LinkError (List String) :=
  if path.toList.contains '\x00' then .error .nullCharacter
  else
    let way := followAll root (namesOf path)
    let names := settled way.names
    if way.ends || (followAll root names).ends then .ok names else .error (.loop (pathOf names))

/-! ## Opening paths -/

def isFolderAt (root : Entry) (place : List String) : Bool := (root.find? place).any Entry.isFolder

/-- The names of the place at which a disk looks for what a path names, if it gets that far: here double
dots lead out of folders only. -/
def placeOf? (root : Entry) (path : String) : Option (List String) :=
  if path.toList.contains '\x00' then none
  else
    let way := follow root (isFolderAt root) root.links [] [] (namesOf path)
    if way.ends then some way.names else none

end CodeAtlas.Disk
