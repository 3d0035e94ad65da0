import CodeAtlas.Outline.Record
import CodeAtlas.Scan.Metadata
import CodeAtlas.Store.Error

/-! # Drafts

Records as a caller wants them stored. Fields that a row must have may be missing here; storing
such a draft fails at the first of them. -/

namespace CodeAtlas.Store

open CodeAtlas.Outline CodeAtlas.Scan

structure EntityDraft where
  id? : Option String
  name? : Option String
  kind : EntityKind
  startLine? : Option Int
  endLine? : Option Int
  startColumn? : Option Int
  endColumn? : Option Int
  params? : Option (List String)
  returnType? : Option String
  isAsync? : Option Bool
  isExported? : Option Bool
  parentClass? : Option String
  visibility? : Option Visibility
  deriving Repr, DecidableEq

namespace EntityDraft

def ofEntity (e : Entity) : EntityDraft where
  id? := e.id
  name? := e.name
  kind := e.kind
  startLine? := e.startLine
  endLine? := e.endLine
  startColumn? := e.startColumn
  endColumn? := e.endColumn
  params? := e.params?
  returnType? := e.returnType?
  isAsync? := e.isAsync?
  isExported? := e.isExported?
  parentClass? := e.parentClass?
  visibility? := e.visibility?

def integers (d : EntityDraft) : List Int :=
  [d.startLine?, d.endLine?, d.startColumn?, d.endColumn?].filterMap id

def complete (d : EntityDraft) : Except StoreError Entity := do
  let id ← required .entities "entity_id" d.id?
  let name ← required .entities "name" d.name?
  let startLine ← required .entities "start_line" d.startLine?
  let endLine ← required .entities "end_line" d.endLine?
  let startColumn ← required .entities "start_column" d.startColumn?
  let endColumn ← required .entities "end_column" d.endColumn?
  return {
    id, name, kind := d.kind, startLine, endLine, startColumn, endColumn, params? := d.params?
    returnType? := d.returnType?, isAsync? := d.isAsync?, isExported? := d.isExported?
    parentClass? := d.parentClass?, visibility? := d.visibility? }

end EntityDraft

structure ImportDraft where
  source? : Option String
  names : List String
  isDefault? : Option Bool
  isNamespace? : Option Bool
  line? : Option Int
  deriving Repr, DecidableEq

namespace ImportDraft

def ofImport (i : Import) : ImportDraft where
  source? := i.source
  names := i.names
  isDefault? := i.isDefault
  isNamespace? := i.isNamespace
  line? := i.line

def integers (d : ImportDraft) : List Int := d.line?.toList

def complete (d : ImportDraft) : Except StoreError Import := do
  let source ← required .imports "source" d.source?
  let isDefault ← required .imports "is_default" d.isDefault?
  let isNamespace ← required .imports "is_namespace" d.isNamespace?
  let line ← required .imports "line" d.line?
  return ⟨source, d.names, isDefault, isNamespace, line⟩

end ImportDraft

structure ExportDraft where
  name? : Option String
  isDefault? : Option Bool
  line? : Option Int
  deriving Repr, DecidableEq

namespace ExportDraft

def ofExport (e : Export) : ExportDraft where
  name? := e.name
  isDefault? := e.isDefault
  line? := e.line

def integers (d : ExportDraft) : List Int := d.line?.toList

def complete (d : ExportDraft) : Except StoreError Export := do
  let name ← required .exports "name" d.name?
  let isDefault ← required .exports "is_default" d.isDefault?
  let line ← required .exports "line" d.line?
  return ⟨name, isDefault, line⟩

end ExportDraft

structure FileDraft where
  path? : Option String
  name? : Option String
  kind : EntryKind
  size? : Option Int
  modified : Time.Moment
  extension? : Option String
  content? : Option String
  deriving Repr, DecidableEq

def FileDraft.ofMetadata (m : Metadata) : FileDraft where
  path? := m.path
  name? := m.name
  kind := m.kind
  size? := m.size
  modified := m.modified
  extension? := m.extension?
  content? := m.content?

end CodeAtlas.Store
