import CodeAtlas.Graph.Dependency

/-! # Networks

The directed graph with an edge from every file to every source that it imports. -/

namespace CodeAtlas.Graph

/-- Nodes in the order in which they were added, each with its export names if it was added as
a file, and edges in the order in which they were added. -/
structure Network where
  nodes : Keyed (Option (List String))
  edges : List (String × String)
  deriving Repr, DecidableEq

namespace Network

def empty : Network := ⟨[], []⟩

def addFile (g : Network) (file : String) (exports : List String) : Network :=
  { g with nodes := g.nodes.set file (some exports) }

/-- Adds a node that is not there yet. -/
def addNode (g : Network) (node : String) (exports? : Option (List String)) : Network :=
  if g.nodes.contains node then g else { g with nodes := g.nodes ++ [(node, exports?)] }

/-- Adds an edge, and its end if that is no node yet. -/
def addEdge (g : Network) (file source : String) : Network :=
  let g := g.addNode source none
  if g.edges.contains (file, source) then g else { g with edges := g.edges ++ [(file, source)] }

def addImports (g : Network) (file : String) (sources : List String) : Network :=
  sources.foldl (·.addEdge file ·) (g.addNode file (some []))

/-- The network of a dependency graph: exporting files first, then importing files, each with
its sources. -/
def ofGraph (d : DependencyGraph) : Network :=
  let files := d.exports.foldl (fun g (file, names) => g.addFile file names) empty
  d.imports.foldl (fun g (file, sources) => g.addImports file sources) files

/-- The edges by the node that they start from, in the order of the nodes. -/
def edgesByNode (g : Network) : List (String × String) :=
  g.nodes.flatMap fun (node, _) => g.edges.filter (·.1 == node)

/-- The nodes on no edge. -/
def isolated (g : Network) : List String :=
  (g.nodes.map Prod.fst).filter fun node =>
    !g.edges.any fun (file, source) => file == node || source == node

end Network

end CodeAtlas.Graph
