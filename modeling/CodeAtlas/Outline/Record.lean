/-! # What a source file declares

The records that are kept of a source file: the entities that it declares, the modules that it
imports from, and the names that it exports. -/

namespace CodeAtlas.Outline

inductive EntityKind
  | function
  | «class»
  | method
  | property
  | interface
  | typeAlias
  deriving Repr, DecidableEq, Inhabited

inductive Visibility
  | everyone
  | owner
  | family
  deriving Repr, DecidableEq, Inhabited

namespace EntityKind

def all : List EntityKind := [function, «class», method, property, interface, typeAlias]

def name : EntityKind → String
  | function => "function"
  | «class» => "class"
  | method => "method"
  | property => "property"
  | interface => "interface"
  | typeAlias => "type"

def ofName? (s : String) : Option EntityKind := all.find? (·.name == s)

theorem ofName?_name (k : EntityKind) : ofName? k.name = some k := by cases k <;> decide

end EntityKind

namespace Visibility

def all : List Visibility := [everyone, owner, family]

def name : Visibility → String
  | everyone => "public"
  | owner => "private"
  | family => "protected"

def ofName? (s : String) : Option Visibility := all.find? (·.name == s)

end Visibility

/-- A declaration of a source file. Lines count from one and columns from zero. -/
structure Entity where
  id : String
  name : String
  kind : EntityKind
  startLine : Int
  endLine : Int
  startColumn : Int
  endColumn : Int
  params? : Option (List String)
  returnType? : Option String
  isAsync? : Option Bool
  isExported? : Option Bool
  parentClass? : Option String
  visibility? : Option Visibility
  deriving Repr, DecidableEq, Inhabited

structure Import where
  source : String
  names : List String
  isDefault : Bool
  isNamespace : Bool
  line : Int
  deriving Repr, DecidableEq, Inhabited

structure Export where
  name : String
  isDefault : Bool
  line : Int
  deriving Repr, DecidableEq, Inhabited

/-- What was found in a file. A file with errors has no records. -/
structure ParsedFile where
  path : String
  language : String
  entities : List Entity
  imports : List Import
  exports : List Export
  hasErrors : Bool
  errors? : Option (List String)
  deriving Repr, DecidableEq, Inhabited

/-- The result for a file that could not be read as a program. -/
def ParsedFile.failed (path language message : String) : ParsedFile :=
  ⟨path, language, [], [], [], true, some [message]⟩

/-- How many records of each sort a file has. -/
structure Summary where
  totalEntities : Nat
  functions : Nat
  classes : Nat
  methods : Nat
  properties : Nat
  imports : Nat
  exports : Nat
  deriving Repr, DecidableEq

def ParsedFile.summary (f : ParsedFile) : Summary :=
  let count (k : EntityKind) : Nat := f.entities.countP (·.kind == k)
  { totalEntities := f.entities.length
    functions := count .function
    classes := count .«class»
    methods := count .method
    properties := count .property
    imports := f.imports.length
    exports := f.exports.length }

/-- Whether a script or a module is read; a script has no imports and exports. -/
inductive SourceType
  | asModule
  | asScript
  deriving Repr, DecidableEq, Inhabited

namespace SourceType

def name : SourceType → String
  | asModule => "module"
  | asScript => "script"

def ofName? (s : String) : Option SourceType := [asModule, asScript].find? (·.name == s)

end SourceType

/-- How a file is to be read. Comments and private members change nothing yet. -/
structure Options where
  comments : Bool
  privateMembers : Bool
  sourceType : SourceType
  deriving Repr, DecidableEq

def Options.default : Options := ⟨false, false, .asModule⟩

end CodeAtlas.Outline
