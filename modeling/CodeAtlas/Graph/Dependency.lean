import CodeAtlas.Keyed
import CodeAtlas.Outline.Record

/-! # Dependency graphs

The import sources and the export names of the files of a project. -/

namespace CodeAtlas.Graph

open CodeAtlas.Outline

/-- A file without imports, or without exports, need not have a key there. -/
structure DependencyGraph where
  imports : Keyed (List String)
  exports : Keyed (List String)
  deriving Repr, DecidableEq

def DependencyGraph.empty : DependencyGraph := ⟨[], []⟩

/-- Where the imports and exports of a file are looked up. -/
structure Lookup (ε : Type) where
  imports : String → Except ε (List Import)
  exports : String → Except ε (List Export)

/-- Adds values behind those that a key has; no values leave no trace. -/
def extend (m : Keyed (List String)) (key : String) (values : List String) :
    Keyed (List String) :=
  if values.isEmpty then m else m.alter key fun old? => old?.getD [] ++ values

variable {ε : Type}

/-- Adds a file to a graph. A file that cannot be looked up is left out as a whole. -/
def DependencyGraph.addFile (store : Lookup ε) (g : DependencyGraph) (fileId : String) :
    DependencyGraph :=
  match store.imports fileId, store.exports fileId with
  | .ok imports, .ok exports =>
    ⟨extend g.imports fileId (imports.map (·.source)),
      extend g.exports fileId (exports.map (·.name))⟩
  | _, _ => g

def DependencyGraph.build (store : Lookup ε) (fileIds : List String) : DependencyGraph :=
  fileIds.foldl (·.addFile store ·) .empty

/-- What a file depends on, and what depends on it; the latter is not computed. -/
structure FileDependencies where
  dependencies : List String
  dependents : List String
  deriving Repr, DecidableEq

def findDependencies (store : Lookup ε) (fileId : String) : Except ε FileDependencies :=
  (store.imports fileId).map fun imports => ⟨imports.map (·.source), []⟩

end CodeAtlas.Graph
