import CodeAtlas.Outline.Record
import CodeAtlas.Tree.Source
import CodeAtlas.Text.Blank

/-! # Sightings

An entity with the node that declares it, and the order in which a file lists its entities. -/

namespace CodeAtlas.Outline

open CodeAtlas.Tree

/-- Anything that a visit may find. -/
inductive Finding
  | entity (node : Node) (e : Entity)
  | importing (i : Import)
  | exporting (e : Export)
  deriving Inhabited

/-- What is known of an entity beyond its name, kind and place. -/
structure Traits where
  params? : Option (List String)
  returnType? : Option String
  isAsync? : Option Bool
  isExported? : Option Bool
  parentClass? : Option String
  visibility? : Option Visibility

def Traits.none : Traits := ⟨.none, .none, .none, .none, .none, .none⟩

/-- The entity that a node declares. Its id is its path and where it begins. -/
def sight (path : String) (s : Source) (n : Node) (name : String) (kind : EntityKind)
    (t : Traits) : Finding :=
  let span := s.span n
  .entity n
    { id := s!"{path}:{span.start.row + 1}:{span.start.column}"
      name, kind
      startLine := span.start.row + 1
      endLine := span.stop.row + 1
      startColumn := span.start.column
      endColumn := span.stop.column
      params? := t.params?
      returnType? := t.returnType?
      isAsync? := t.isAsync?
      isExported? := t.isExported?
      parentClass? := t.parentClass?
      visibility? := t.visibility? }

def Finding.entity? : Finding → Option Entity
  | .entity _ e => some e
  | _ => none

def Finding.import? : Finding → Option Import
  | .importing i => some i
  | _ => none

def Finding.export? : Finding → Option Export
  | .exporting e => some e
  | _ => none

/-- Whether an entity does not begin behind another. -/
def Entity.startsBy (a b : Entity) : Bool :=
  a.startLine < b.startLine || (a.startLine == b.startLine && a.startColumn ≤ b.startColumn)

/-- The file that the findings of a walk make up. Entities are listed by where they begin;
those that begin together stay in the order of the walk. -/
def ParsedFile.ofFindings (path language : String) (fs : List Finding) : ParsedFile where
  path := path
  language := language
  entities := (fs.filterMap Finding.entity?).mergeSort Entity.startsBy
  imports := fs.filterMap Finding.import?
  exports := fs.filterMap Finding.export?
  hasErrors := false
  errors? := none

/-- The return type as it is written behind the colon. -/
def returnType? (s : Source) (n : Node) : Option String :=
  (s.fieldText? n "return_type").bind fun text =>
    nonempty? (some (Text.trim (Text.dropLeading ':' text)))

/-! Names of what has no name of its own. -/

def anonymous : String := "anonymous"
def anonymousClass : String := "AnonymousClass"
def anonymousInterface : String := "AnonymousInterface"
def unnamedParam : String := "param"

def nameOr (s : Source) (n : Node) (other : String) : String :=
  (nonempty? (s.fieldText? n "name")).getD other

end CodeAtlas.Outline
