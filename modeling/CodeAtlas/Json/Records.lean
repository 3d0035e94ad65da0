import CodeAtlas.Graph.Network
import CodeAtlas.Json.Value
import CodeAtlas.Project.Ingestion

/-! # Records as JSON

How records are written for clients. Members without a value are left out, except where a client
needs to see that there is none. -/

namespace CodeAtlas

open Json

namespace Outline

def Entity.json (e : Entity) : Json := compact [
  ("id", some (.string e.id)), ("name", some (.string e.name)),
  ("type", some (.string e.kind.name)), ("startLine", some (.int e.startLine)),
  ("endLine", some (.int e.endLine)), ("startColumn", some (.int e.startColumn)),
  ("endColumn", some (.int e.endColumn)), ("params", e.params?.map strings),
  ("returnType", e.returnType?.map .string), ("isAsync", e.isAsync?.map .bool),
  ("isExported", e.isExported?.map .bool), ("parentClass", e.parentClass?.map .string),
  ("visibility", e.visibility?.map fun v => .string v.name)]

def Import.json (i : Import) : Json := .object [
  ("source", .string i.source), ("importedNames", strings i.names),
  ("isDefault", .bool i.isDefault), ("isNamespace", .bool i.isNamespace), ("line", .int i.line)]

def Export.json (e : Export) : Json := .object [
  ("name", .string e.name), ("isDefault", .bool e.isDefault), ("line", .int e.line)]

def ParsedFile.json (f : ParsedFile) : Json := compact [
  ("path", some (.string f.path)), ("language", some (.string f.language)),
  ("entities", some (.array (f.entities.map (·.json)))),
  ("imports", some (.array (f.imports.map (·.json)))),
  ("exports", some (.array (f.exports.map (·.json)))),
  ("hasErrors", some (.bool f.hasErrors)), ("errors", f.errors?.map strings)]

def Summary.json (s : Summary) : Json := .object [
  ("totalEntities", .nat s.totalEntities), ("functions", .nat s.functions),
  ("classes", .nat s.classes), ("methods", .nat s.methods), ("properties", .nat s.properties),
  ("imports", .nat s.imports), ("exports", .nat s.exports)]

end Outline

namespace Scan

def Metadata.json (m : Metadata) : Json := compact [
  ("path", some (.string m.path)), ("name", some (.string m.name)),
  ("type", some (.string m.kind.name)), ("size", some (.int m.size)),
  ("extension", m.extension?.map .string), ("modifiedTime", some (.string m.modified.text)),
  ("content", m.content?.map .string)]

def ChangeSet.json (c : ChangeSet) : Json := .object [
  ("added", .array (c.added.map (·.json))), ("modified", .array (c.modified.map (·.json))),
  ("deleted", strings c.deleted)]

end Scan

def Store.FileRecord.json (r : Store.FileRecord) : Json := .object [
  ("id", .nat r.id), ("fileId", .string r.fileId), ("projectId", .string r.projectId),
  ("path", .string r.path), ("name", .string r.name), ("kind", .string r.kind.name),
  ("size", .int r.size), ("modifiedTime", .string r.modified.text),
  ("extension", orNull (r.extension?.map .string)), ("content", orNull (r.content?.map .string))]

namespace Project

def Totals.json (t : Totals) : Json := .object [
  ("totalFiles", .nat t.files), ("totalFolders", .nat t.folders), ("totalSize", .int t.size),
  ("added", .nat t.added), ("modified", .nat t.modified), ("deleted", .nat t.deleted),
  ("indexed", .nat t.indexed)]

end Project

namespace Graph

/-- Keyed lists as pairs of a key and its values. -/
def pairs (m : Keyed (List String)) : Json :=
  .array (m.map fun (key, values) => .array [.string key, strings values])

def DependencyGraph.json (g : DependencyGraph) : Json :=
  .object [("imports", pairs g.imports), ("exports", pairs g.exports)]

def FileDependencies.json (d : FileDependencies) : Json :=
  .object [("dependencies", strings d.dependencies), ("dependents", strings d.dependents)]

end Graph

end CodeAtlas
