import CodeAtlas.Proofs.Graph.Collected
import CodeAtlas.Proofs.Graph.Network

/-! # Which nodes carry export names

A node keeps what it was added with. Exporting files come first, with their names; any other name is given a
value by the first entry among the imports that speaks of it, and that value is no list where it speaks of it
as a source. So a file that exports nothing loses its empty list to an earlier entry that imports it, and all
other files carry what they export. -/

namespace CodeAtlas.Graph

namespace DependencyGraph

/-- No file has two entries, neither among the imports nor among the exports. -/
structure Distinct (d : DependencyGraph) : Prop where
  imports : (d.imports.map Prod.fst).Nodup
  exports : (d.exports.map Prod.fst).Nodup

/-- What a file exports, which may be no names; nothing is said of what is no file. -/
def namesOf? (d : DependencyGraph) (name : String) : Option (List String) :=
  (d.exports.get? name).or (if d.imports.contains name then some [] else none)

/-- An entry lists a name as a source before the entry of that name. -/
def Precedes (entries : Keyed (List String)) (name : String) : Prop :=
  ∃ front entry back, entries = front ++ entry :: back ∧ name ∈ entry.2 ∧ name ∈ back.map Prod.fst

/-- A file that exports nothing is imported by a file that stands before it. -/
def Overtaken (d : DependencyGraph) (name : String) : Prop :=
  name ∉ d.exports.map Prod.fst ∧ Precedes d.imports name

variable {d d' : DependencyGraph} {name : String}

theorem isSome_namesOf? : (d.namesOf? name).isSome ↔ d.IsFile name := by
  rw [namesOf?, Option.isSome_or, Keyed.isSome_get?, Bool.or_eq_true, Keyed.contains_iff, IsFile,
    ← Keyed.contains_iff (m := d.imports)]
  split <;> simp_all

theorem precedes_cons {e : String × List String} {entries : Keyed (List String)} :
    Precedes (e :: entries) name ↔
      (name ∈ e.2 ∧ name ∈ entries.map Prod.fst) ∨ Precedes entries name := by
  constructor
  · rintro ⟨front, entry, back, hsplit, hlisted, hback⟩
    rcases List.cons_eq_append_iff.mp hsplit with ⟨rfl, hentry⟩ | ⟨front', rfl, hrest⟩
    · cases hentry
      exact .inl ⟨hlisted, hback⟩
    · exact .inr ⟨front', entry, back, hrest, hlisted, hback⟩
  · rintro (⟨hlisted, hback⟩ | ⟨front, entry, back, rfl, hlisted, hback⟩)
    · exact ⟨[], e, entries, rfl, hlisted, hback⟩
    · exact ⟨e :: front, entry, back, rfl, hlisted, hback⟩

theorem Reorders.distinct (h : d.Reorders d') (hd : d.Distinct) : d'.Distinct :=
  ⟨h.files.nodup hd.imports, (h.exports.map _).nodup hd.exports⟩

theorem Reorders.namesOf? (h : d.Reorders d') (hd : d.Distinct) : d'.namesOf? name = d.namesOf? name := by
  have hfile : d'.imports.contains name = d.imports.contains name := by
    rw [Bool.eq_iff_iff, Keyed.contains_iff, Keyed.contains_iff, h.files.mem_iff]
  rw [DependencyGraph.namesOf?, DependencyGraph.namesOf?, hfile, Keyed.get?_perm hd.exports h.exports]

theorem Precedes.mem {entries : Keyed (List String)} (h : Precedes entries name) :
    name ∈ entries.map Prod.fst := by
  obtain ⟨front, entry, back, rfl, _, hback⟩ := h
  simp only [List.map_append, List.map_cons, List.mem_append, List.mem_cons]
  exact .inr (.inr hback)

end DependencyGraph

namespace Network

open DependencyGraph

/-- What a node carries; there is nothing where there is no node. -/
def exportsOf? (g : Network) (name : String) : Option (List String) := (g.nodes.get? name).join

/-! ## The first to speak of a name -/

/-- What an entry among the imports makes of a name that is no node yet. -/
def role (name : String) (entry : String × List String) : Option (Option (List String)) :=
  if entry.1 = name then some (some []) else if name ∈ entry.2 then some none else none

variable {g : Network} {name : String}

theorem get?_addNode (g : Network) (node : String) (exports? : Option (List String)) :
    (g.addNode node exports?).nodes.get? name =
      (g.nodes.get? name).or (if node = name then some exports? else none) := by
  unfold addNode
  split
  · next h =>
    by_cases hn : node = name
    · obtain ⟨value, hvalue⟩ := Option.isSome_iff_exists.mp ((Keyed.isSome_get? _ _).trans h)
      rw [← hn, hvalue]
      rfl
    · rw [if_neg hn, Option.or_none]
  · rw [Keyed.get?_append, Keyed.get?_cons]
    rfl

theorem get?_addEdge (g : Network) (file source : String) :
    (g.addEdge file source).nodes.get? name =
      (g.nodes.get? name).or (if source = name then some none else none) := by
  rw [← get?_addNode]
  unfold addEdge
  dsimp only
  split <;> rfl

theorem get?_addImports (g : Network) (file : String) (sources : List String) :
    (g.addImports file sources).nodes.get? name = (g.nodes.get? name).or (role name (file, sources)) := by
  have hsources : ∀ (sources : List String) (g : Network),
      (sources.foldl (·.addEdge file ·) g).nodes.get? name =
        (g.nodes.get? name).or (if name ∈ sources then some none else none) := by
    intro sources
    induction sources with
    | nil => simp
    | cons source sources ih =>
      intro g
      rw [List.foldl_cons, ih, get?_addEdge, Option.or_assoc]
      by_cases h : source = name
      · simp [h]
      · have hne : name ≠ source := Ne.symm h
        simp [h, hne]
  rw [addImports, hsources, get?_addNode, Option.or_assoc, role]
  by_cases h : file = name <;> simp [h]

theorem nodes_addFiles (files : Keyed (List String)) :
    (files.foldl (fun g (file, names) => g.addFile file names) empty).nodes =
      Keyed.ofList (files.map fun e => (e.1, some e.2)) := by
  induction files using List.reverseRecOn with
  | nil => rfl
  | append_singleton files e ih =>
    rw [List.foldl_append, List.map_append, Keyed.ofList, List.foldl_append, ← Keyed.ofList, ← ih]
    rfl

/-- A node is an exporting file, or else what the first entry that speaks of it makes of it. -/
theorem get?_nodes_ofGraph {d : DependencyGraph} (h : d.Distinct) (name : String) :
    (ofGraph d).nodes.get? name =
      ((d.exports.get? name).map some).or (d.imports.findSome? (role name)) := by
  have himports : ∀ (entries : Keyed (List String)) (g : Network),
      (entries.foldl (fun g (file, sources) => g.addImports file sources) g).nodes.get? name =
        (g.nodes.get? name).or (entries.findSome? (role name)) := by
    intro entries
    induction entries with
    | nil => simp
    | cons e entries ih =>
      intro g
      rw [List.foldl_cons, ih, get?_addImports, Option.or_assoc, List.findSome?_cons]
      cases role name (e.1, e.2) <;> rfl
  rw [ofGraph, himports, nodes_addFiles, Keyed.get?_ofList_map_snd, Keyed.ofList_of_nodup h.exports]

theorem findSome?_role_of_precedes {entries : Keyed (List String)}
    (hdistinct : (entries.map Prod.fst).Nodup) (h : Precedes entries name) :
    entries.findSome? (role name) = some none := by
  induction entries with
  | nil => simp [Precedes] at h
  | cons e entries ih =>
    obtain ⟨hfile, hentries⟩ := List.nodup_cons.mp hdistinct
    have hne : e.1 ≠ name := fun he => hfile (he ▸ (precedes_cons.mp h).elim (·.2) (·.mem))
    rw [List.findSome?_cons, role, if_neg hne]
    by_cases hlisted : name ∈ e.2
    · rw [if_pos hlisted]
    · rw [if_neg hlisted]
      exact ih hentries ((precedes_cons.mp h).resolve_left fun h => hlisted h.1)

theorem findSome?_role_of_not_precedes {entries : Keyed (List String)}
    (hname : name ∈ entries.map Prod.fst) (h : ¬Precedes entries name) :
    entries.findSome? (role name) = some (some []) := by
  induction entries with
  | nil => cases hname
  | cons e entries ih =>
    rw [precedes_cons, not_or] at h
    rw [List.findSome?_cons, role]
    by_cases hfile : e.1 = name
    · rw [if_pos hfile]
    · have hrest : name ∈ entries.map Prod.fst :=
        (List.mem_cons.mp hname).resolve_left (Ne.symm hfile)
      rw [if_neg hfile, if_neg fun hlisted => h.1 ⟨hlisted, hrest⟩]
      exact ih hrest h.2

theorem join_findSome?_role_of_not_mem {entries : Keyed (List String)}
    (hname : name ∉ entries.map Prod.fst) : (entries.findSome? (role name)).join = none := by
  induction entries with
  | nil => rfl
  | cons e entries ih =>
    obtain ⟨hfile, hrest⟩ := not_or.mp (mt List.mem_cons.mpr hname)
    rw [List.findSome?_cons, role, if_neg (Ne.symm hfile)]
    split <;> simp_all

/-! ## Attributes -/

variable {d d' : DependencyGraph}

theorem exportsOf?_of_not_overtaken (hd : d.Distinct) (h : ¬d.Overtaken name) :
    (ofGraph d).exportsOf? name = d.namesOf? name := by
  rw [exportsOf?, get?_nodes_ofGraph hd, namesOf?]
  cases hexports : d.exports.get? name with
  | some names => rfl
  | none =>
    rw [Option.map_none, Option.none_or, Option.none_or]
    split
    · next hfile =>
      have hprecedes : ¬Precedes d.imports name := fun hp => h ⟨Keyed.get?_eq_none_iff.mp hexports, hp⟩
      rw [findSome?_role_of_not_precedes (Keyed.contains_iff.mp hfile) hprecedes]
      rfl
    · next hfile => exact join_findSome?_role_of_not_mem (mt Keyed.contains_iff.mpr hfile)

theorem exportsOf?_of_overtaken (hd : d.Distinct) (h : d.Overtaken name) :
    (ofGraph d).exportsOf? name = none ∧ d.namesOf? name = some [] := by
  obtain ⟨hexports, hprecedes⟩ := h
  have hnone := Keyed.get?_eq_none_iff.mpr hexports
  constructor
  · rw [exportsOf?, get?_nodes_ofGraph hd, hnone, findSome?_role_of_precedes hd.imports hprecedes]
    rfl
  · rw [namesOf?, hnone, Option.none_or, if_pos (Keyed.contains_iff.mpr hprecedes.mem)]

/-- Every node carries what its file exports, and only files do, except for the files that export nothing and
are overtaken, which carry nothing. So in two orders a node carries the same unless it is overtaken in one of
them. -/
theorem exports_carried_unless_overtaken (hd : d.Distinct) :
    (∀ name, ¬d.Overtaken name →
      (ofGraph d).exportsOf? name = d.namesOf? name ∧
        (((ofGraph d).exportsOf? name).isSome ↔ d.IsFile name)) ∧
    (∀ name, d.Overtaken name →
      d.IsFile name ∧ d.namesOf? name = some [] ∧ (ofGraph d).exportsOf? name = none) ∧
    ∀ d', d.Reorders d' → ∀ name, ¬d.Overtaken name → ¬d'.Overtaken name →
      (ofGraph d').exportsOf? name = (ofGraph d).exportsOf? name := by
  refine ⟨fun name h => ?_, fun name h => ?_, fun d' hr name h h' => ?_⟩
  · have hnames := exportsOf?_of_not_overtaken hd h
    exact ⟨hnames, hnames ▸ isSome_namesOf?⟩
  · obtain ⟨hcarried, hnames⟩ := exportsOf?_of_overtaken hd h
    exact ⟨isSome_namesOf?.mp (by rw [hnames]; rfl), hnames, hcarried⟩
  · rw [exportsOf?_of_not_overtaken hd h, exportsOf?_of_not_overtaken (hr.distinct hd) h',
      hr.namesOf? hd]

/-- The file `a` exports `v` and imports `b`, which exports nothing and stands behind it. -/
def sourceBehind : DependencyGraph := ⟨[("a", ["b"]), ("b", ["c"])], [("a", ["v"])]⟩

/-- The same graph with `b` before `a`. -/
def sourceAhead : DependencyGraph := ⟨[("b", ["c"]), ("a", ["b"])], [("a", ["v"])]⟩

theorem reorders_sourceBehind : sourceBehind.Reorders sourceAhead where
  exports := .refl _
  imports := ⟨sourceAhead.imports, .swap _ _ _, List.forall₂_same.mpr fun _ _ => ⟨rfl, .refl _⟩⟩

theorem exports_carried_of_sourceBehind :
    sourceBehind.Distinct ∧ sourceBehind.Overtaken "b" ∧ (ofGraph sourceBehind).exportsOf? "b" = none ∧
    ¬sourceBehind.Overtaken "a" ∧ ¬sourceAhead.Overtaken "a" ∧
    (ofGraph sourceBehind).exportsOf? "a" = some ["v"] ∧
    (ofGraph sourceAhead).exportsOf? "a" = some ["v"] := by
  have hd : sourceBehind.Distinct := ⟨by decide, by decide⟩
  have hb : sourceBehind.Overtaken "b" :=
    ⟨by decide, [], ("a", ["b"]), [("b", ["c"])], rfl, by decide, by decide⟩
  have ha : ¬sourceBehind.Overtaken "a" := fun h => h.1 (by decide)
  have ha' : ¬sourceAhead.Overtaken "a" := fun h => h.1 (by decide)
  obtain ⟨hcarried, hlost, hsame⟩ := exports_carried_unless_overtaken hd
  have hnames : (ofGraph sourceBehind).exportsOf? "a" = some ["v"] := (hcarried "a" ha).1
  exact ⟨hd, hb, (hlost "b" hb).2.2, ha, ha', hnames,
    (hsame sourceAhead reorders_sourceBehind "a" ha ha').trans hnames⟩

/-- The node of `b` does not carry its empty list, or does, as the entries are ordered. -/
theorem not_always_carried :
    sourceBehind.Distinct ∧ sourceBehind.IsFile "b" ∧ sourceBehind.namesOf? "b" = some [] ∧
    "b" ∈ (ofGraph sourceBehind).nodes.map Prod.fst ∧ (ofGraph sourceBehind).exportsOf? "b" = none ∧
    sourceBehind.Reorders sourceAhead ∧ (ofGraph sourceAhead).exportsOf? "b" = some [] :=
  ⟨⟨by decide, by decide⟩, .inr (by decide), by decide, by decide, by decide, reorders_sourceBehind,
    by decide⟩

end Network

end CodeAtlas.Graph
