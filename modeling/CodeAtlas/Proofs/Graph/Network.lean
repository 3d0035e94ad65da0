import CodeAtlas.Graph.Network
import CodeAtlas.Proofs.Keyed
import Mathlib.Data.List.Nodup

/-! # What a network shows

Nodes are added for exporting files, for importing files and, with the edges, for what is imported. Whichever
comes first, every name is a node once and every import an edge once, so what the network shows is settled by
who imports what and not by the order in which it is told. -/

namespace CodeAtlas.Graph

namespace DependencyGraph

/-- A file has imports or exports; what is only imported is no file. -/
def IsFile (d : DependencyGraph) (name : String) : Prop :=
  name ∈ d.exports.map Prod.fst ∨ name ∈ d.imports.map Prod.fst

def ImportsFrom (d : DependencyGraph) (file source : String) : Prop :=
  ∃ sources, (file, sources) ∈ d.imports ∧ source ∈ sources

/-- Every import, as often as it stands in the graph. -/
def links (d : DependencyGraph) : List (String × String) :=
  d.imports.flatMap fun e => e.2.map (e.1, ·)

/-- Every name, as often as it stands in the graph. -/
def mentions (d : DependencyGraph) : List String :=
  d.exports.map Prod.fst ++ d.imports.flatMap fun e => e.1 :: e.2

/-- Two graphs that differ in the order of their entries and of the sources in an entry. -/
structure Reorders (d d' : DependencyGraph) : Prop where
  exports : d.exports.Perm d'.exports
  imports : ∃ entries, d.imports.Perm entries ∧
    List.Forall₂ (fun e e' => e.1 = e'.1 ∧ e.2.Perm e'.2) entries d'.imports

variable {d d' : DependencyGraph} {file source name : String}

theorem mem_links : (file, source) ∈ d.links ↔ d.ImportsFrom file source := by
  simp [links, ImportsFrom]

theorem mem_mentions : name ∈ d.mentions ↔ d.IsFile name ∨ ∃ file, d.ImportsFrom file name := by
  simp only [mentions, IsFile, ImportsFrom, List.mem_append, List.mem_flatMap, List.mem_map, List.mem_cons]
  grind

namespace Reorders

/-- What is read off entry by entry, in no order within an entry, is read in another order only. -/
theorem flatMap {α : Type} (h : d.Reorders d') {f : String → List String → List α}
    (hf : ∀ file {sources sources'}, sources.Perm sources' → (f file sources).Perm (f file sources')) :
    (d.imports.flatMap fun e => f e.1 e.2).Perm (d'.imports.flatMap fun e => f e.1 e.2) := by
  obtain ⟨entries, hentries, hsources⟩ := h.imports
  refine (hentries.flatMap_right _).trans ?_
  generalize d'.imports = entries' at hsources
  clear hentries
  induction hsources with
  | nil => exact .nil
  | cons he _ ih =>
    rw [List.flatMap_cons, List.flatMap_cons, he.1]
    exact (hf _ he.2).append ih

theorem links (h : d.Reorders d') : d.links.Perm d'.links :=
  h.flatMap fun file _ _ hs => hs.map (file, ·)

theorem mentions (h : d.Reorders d') : d.mentions.Perm d'.mentions :=
  (h.exports.map _).append (h.flatMap fun file _ _ hs => hs.cons file)

theorem files (h : d.Reorders d') : (d.imports.map Prod.fst).Perm (d'.imports.map Prod.fst) := by
  rw [List.map_eq_flatMap, List.map_eq_flatMap]
  exact h.flatMap (f := fun file _ => [file]) fun _ _ _ _ => .refl _

end Reorders

end DependencyGraph

namespace Network

/-! ## Adding nodes and edges -/

/-- A network shows names and links: each once, in the order in which they are first told. -/
structure Shows (g : Network) (names : List String) (links : List (String × String)) : Prop where
  nodes : g.nodes.map Prod.fst = names.eraseDups
  edges : g.edges = links.eraseDups

variable {g : Network} {names : List String} {links : List (String × String)}

theorem shows_empty : empty.Shows [] [] := ⟨rfl, rfl⟩

namespace Shows

theorem contains (h : g.Shows names links) (node : String) :
    g.nodes.contains node = names.contains node := by
  rw [Bool.eq_iff_iff, Keyed.contains_iff, h.nodes, List.mem_eraseDups, List.contains_iff_mem]

theorem addFile (h : g.Shows names links) (file : String) (exports : List String) :
    (g.addFile file exports).Shows (names ++ [file]) links := by
  refine ⟨?_, h.edges⟩
  rw [Network.addFile, Keyed.set, Keyed.map_fst_alter, h.contains, h.nodes, eraseDups_append_singleton]

theorem addNode (h : g.Shows names links) (node : String) (exports? : Option (List String)) :
    (g.addNode node exports?).Shows (names ++ [node]) links := by
  unfold Network.addNode
  rw [h.contains]
  split
  · next hmem => exact ⟨by rw [h.nodes, eraseDups_append_singleton, if_pos hmem], h.edges⟩
  · next hmem =>
    refine ⟨?_, h.edges⟩
    rw [List.map_append, h.nodes, eraseDups_append_singleton, if_neg hmem]
    rfl

theorem addEdge (h : g.Shows names links) (file source : String) :
    (g.addEdge file source).Shows (names ++ [source]) (links ++ [(file, source)]) := by
  have hnode := h.addNode source none
  have hlisted : (g.addNode source none).edges.contains (file, source) = links.contains (file, source) := by
    rw [Bool.eq_iff_iff, hnode.edges, List.contains_iff_mem, List.contains_iff_mem, List.mem_eraseDups]
  unfold Network.addEdge
  dsimp only
  rw [hlisted]
  split
  · next hmem => exact ⟨hnode.nodes, by rw [hnode.edges, eraseDups_append_singleton, if_pos hmem]⟩
  · next hmem =>
    refine ⟨hnode.nodes, ?_⟩
    rw [hnode.edges, eraseDups_append_singleton, if_neg hmem]

/-- Where each item adds names and links of its own, all items together add them in turn. -/
theorem foldl {α : Type} {step : Network → α → Network} (namesOf : α → List String)
    (linksOf : α → List (String × String))
    (hstep : ∀ {g names links}, g.Shows names links → ∀ a,
      (step g a).Shows (names ++ namesOf a) (links ++ linksOf a))
    (h : g.Shows names links) (items : List α) :
    (items.foldl step g).Shows (names ++ items.flatMap namesOf) (links ++ items.flatMap linksOf) := by
  induction items generalizing g names links with
  | nil => simpa using h
  | cons a items ih =>
    rw [List.foldl_cons, List.flatMap_cons, List.flatMap_cons, ← List.append_assoc, ← List.append_assoc]
    exact ih (hstep h a)

theorem addImports (h : g.Shows names links) (file : String) (sources : List String) :
    (g.addImports file sources).Shows (names ++ file :: sources) (links ++ sources.map (file, ·)) := by
  have hsources := foldl ([·]) (fun source => [(file, source)]) (fun h source => h.addEdge file source)
    (h.addNode file (some [])) sources
  rw [List.flatMap_singleton', ← List.map_eq_flatMap, List.append_assoc] at hsources
  exact hsources

end Shows

theorem shows_ofGraph (d : DependencyGraph) : (ofGraph d).Shows d.mentions d.links := by
  have hfiles := Shows.foldl (fun e => [e.1]) (fun _ => [])
    (fun h (e : String × List String) => by simpa using h.addFile e.1 e.2) shows_empty d.exports
  have hall := Shows.foldl (fun e => e.1 :: e.2) (fun e => e.2.map (e.1, ·))
    (fun h (e : String × List String) => h.addImports e.1 e.2) hfiles d.imports
  have hnone : d.exports.flatMap (fun _ => ([] : List (String × String))) = [] := by simp
  rw [List.nil_append, List.nil_append, ← List.map_eq_flatMap, hnone, List.nil_append] at hall
  exact hall

/-! ## What is shown -/

variable {d d' : DependencyGraph}

theorem nodup_nodes (d : DependencyGraph) : ((ofGraph d).nodes.map Prod.fst).Nodup := by
  rw [(shows_ofGraph d).nodes]
  exact nodup_eraseDups _

theorem mem_nodes {name : String} :
    name ∈ (ofGraph d).nodes.map Prod.fst ↔ d.IsFile name ∨ ∃ file, d.ImportsFrom file name := by
  rw [(shows_ofGraph d).nodes, List.mem_eraseDups, DependencyGraph.mem_mentions]

theorem mem_edges {file source : String} :
    (file, source) ∈ (ofGraph d).edges ↔ d.ImportsFrom file source := by
  rw [(shows_ofGraph d).edges, List.mem_eraseDups, DependencyGraph.mem_links]

/-- A node on no edge is no source, so it can only be there as a file. -/
theorem mem_isolated {name : String} :
    name ∈ (ofGraph d).isolated ↔
      d.IsFile name ∧ (∀ source, ¬d.ImportsFrom name source) ∧ ∀ file, ¬d.ImportsFrom file name := by
  simp only [isolated, List.mem_filter, mem_nodes, Bool.not_eq_true', List.any_eq_false, Prod.forall,
    mem_edges, Bool.or_eq_true, beq_iff_eq, not_or]
  constructor
  · rintro ⟨hnode, hfree⟩
    have hfile : ∀ file, ¬d.ImportsFrom file name := fun file hl => (hfree file name hl).2 rfl
    exact ⟨hnode.resolve_right fun ⟨file, hl⟩ => hfile file hl, fun source hl => (hfree name source hl).1 rfl,
      hfile⟩
  · rintro ⟨hnode, hsource, hfile⟩
    exact ⟨.inl hnode, fun file source hl =>
      ⟨fun he => hsource source (he ▸ hl), fun he => hfile file (he ▸ hl)⟩⟩

theorem nodup_edges (d : DependencyGraph) : (ofGraph d).edges.Nodup := by
  rw [(shows_ofGraph d).edges]
  exact nodup_eraseDups _

/-- Every edge starts from a node, so none is left out where edges are listed by nodes. -/
theorem edgesByNode_perm (d : DependencyGraph) : (ofGraph d).edgesByNode.Perm (ofGraph d).edges := by
  have hnodup : (ofGraph d).edgesByNode.Nodup := by
    refine List.nodup_flatMap.mpr ⟨fun _ _ => (nodup_edges d).filter _, ?_⟩
    refine (List.pairwise_map.mp (nodup_nodes d)).imp fun hne e hl hr => hne ?_
    rw [← eq_of_beq (List.mem_filter.mp hl).2, ← eq_of_beq (List.mem_filter.mp hr).2]
  refine (List.perm_ext_iff_of_nodup hnodup (nodup_edges d)).mpr fun e => ?_
  simp only [edgesByNode, List.mem_flatMap, List.mem_filter, beq_iff_eq]
  refine ⟨fun ⟨_, _, he, _⟩ => he, fun he => ?_⟩
  obtain ⟨sources, hentry, _⟩ := mem_edges.mp he
  obtain ⟨node, hnode, hname⟩ := List.mem_map.mp
    (mem_nodes.mpr (.inl (.inr (List.mem_map_of_mem hentry))))
  exact ⟨node, hnode, he, hname.symm⟩

theorem perm_of_reorders (h : d.Reorders d') :
    ((ofGraph d).nodes.map Prod.fst).Perm ((ofGraph d').nodes.map Prod.fst) ∧
    (ofGraph d).edges.Perm (ofGraph d').edges := by
  rw [(shows_ofGraph d).nodes, (shows_ofGraph d').nodes, (shows_ofGraph d).edges, (shows_ofGraph d').edges]
  exact ⟨perm_eraseDups h.mentions, perm_eraseDups h.links⟩

theorem isolated_perm (h : d.Reorders d') : (ofGraph d).isolated.Perm (ofGraph d').isolated := by
  obtain ⟨hnodes, hedges⟩ := perm_of_reorders h
  rw [isolated, isolated]
  simp only [hedges.any_eq]
  exact hnodes.filter _

/-- What a network shows of a graph: every name as one node and every import as one edge, in whichever way the
edges are listed, and as isolated the files that import nothing and are imported by none. -/
structure Depicts (g : Network) (d : DependencyGraph) : Prop where
  nodup_nodes : (g.nodes.map Prod.fst).Nodup
  mem_nodes : ∀ name, name ∈ g.nodes.map Prod.fst ↔ d.IsFile name ∨ ∃ file, d.ImportsFrom file name
  nodup_edges : g.edges.Nodup
  mem_edges : ∀ file source, (file, source) ∈ g.edges ↔ d.ImportsFrom file source
  edgesByNode : g.edgesByNode.Perm g.edges
  nodup_isolated : g.isolated.Nodup
  /-- A source that is no file, or a file that imports itself, is on an edge. -/
  mem_isolated : ∀ name, name ∈ g.isolated ↔
    d.IsFile name ∧ (∀ sources, (name, sources) ∈ d.imports → sources = []) ∧ ∀ e ∈ d.imports, name ∉ e.2

/-- The network of a graph shows each of its names and imports once, and the same ones, with the same files
isolated, in whichever order the graph's entries and their sources are told. -/
theorem ofGraph_depicts_in_any_order (d : DependencyGraph) :
    (ofGraph d).Depicts d ∧
    ∀ d', d.Reorders d' →
      ((ofGraph d).nodes.map Prod.fst).Perm ((ofGraph d').nodes.map Prod.fst) ∧
      (ofGraph d).edges.Perm (ofGraph d').edges ∧ (ofGraph d).isolated.Perm (ofGraph d').isolated := by
  refine ⟨⟨nodup_nodes d, fun _ => mem_nodes, nodup_edges d, fun _ _ => mem_edges, edgesByNode_perm d,
    (nodup_nodes d).filter _, fun name => ?_⟩, fun d' h => ?_⟩
  · have himports : (∀ source, ¬d.ImportsFrom name source) ↔
        ∀ sources, (name, sources) ∈ d.imports → sources = [] :=
      ⟨fun h sources he => List.eq_nil_iff_forall_not_mem.mpr fun source hs => h source ⟨sources, he, hs⟩,
        fun h source ⟨sources, he, hs⟩ => by simp [h sources he] at hs⟩
    have hsources : (∀ file, ¬d.ImportsFrom file name) ↔ ∀ e ∈ d.imports, name ∉ e.2 :=
      ⟨fun h e he hs => h e.1 ⟨e.2, he, hs⟩, fun h file ⟨sources, he, hs⟩ => h _ he hs⟩
    rw [mem_isolated, himports, hsources]
  · obtain ⟨hnodes, hedges⟩ := perm_of_reorders h
    exact ⟨hnodes, hedges, isolated_perm h⟩

/-- A file that imports itself twice, a file that only imports, one that only exports, and a file without
anything. -/
example :
    let g := ofGraph ⟨[("a", ["a", "x", "a"]), ("b", ["x"]), ("d", [])], [("c", ["v"])]⟩
    g.nodes.map Prod.fst = ["c", "a", "x", "b", "d"] ∧
      g.edges = [("a", "a"), ("a", "x"), ("b", "x")] ∧ g.isolated = ["c", "d"] := by
  decide

end Network

end CodeAtlas.Graph
