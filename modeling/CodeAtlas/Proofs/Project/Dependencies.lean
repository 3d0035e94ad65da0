import CodeAtlas.Proofs.Graph.Collected
import CodeAtlas.Proofs.Project.Isolation
import Mathlib.Data.List.Nodup

/-! # The graph of a project

A project's graph is built from the numbers of its rows, and no number is that of two rows. So the graph
holds of every file what a look-up of the file alone gives, once, and has no keys but those of its files. -/

namespace CodeAtlas.Project

open CodeAtlas.Graph CodeAtlas.Store
open CodeAtlas.Store.Process (on)

/-- The rows that a graph is built from. -/
def fileIdsOf (rows : List FileRecord) : List String :=
  (rows.filter (·.kind == .file)).map (·.fileId)

/-- A graph says of the files among some rows what look-ups of single files say, and of nothing else. -/
structure IsGraphOf (db : Database) (rows : List FileRecord) (g : DependencyGraph) : Prop where
  /-- A file that imports nothing has no key. -/
  imports : ∀ r ∈ rows, r.kind = .file → ∃ found, fileDependencies db r.fileId = .ok found ∧
    g.imports.get? r.fileId = if found.dependencies = [] then none else some found.dependencies
  exports : ∀ r ∈ rows, r.kind = .file → ∃ found, db.exportsOf r.fileId = .ok found ∧
    g.exports.get? r.fileId = if found = [] then none else some (found.map (·.name))
  keys : ∀ key ∈ g.imports.map Prod.fst ++ g.exports.map Prod.fst,
    ∃ r ∈ rows, r.kind = .file ∧ r.fileId = key

theorem repeated_one (values : List String) :
    repeated 1 values = if values = [] then none else some values := by
  simp [repeated]

theorem answers_lookup (t : Tables) (fileId : String) : (lookup (on t)).answers fileId = true := rfl

theorem count_fileIdsOf {rows : List FileRecord} (h : (rows.map (·.id)).Nodup) {r : FileRecord}
    (hr : r ∈ rows) (hf : r.kind = .file) : (fileIdsOf rows).count r.fileId = 1 := by
  have hids : (fileIdsOf rows).Nodup := by
    have hfiles : ((rows.filter (·.kind == .file)).map (·.id)).Nodup :=
      h.sublist (List.filter_sublist.map _)
    exact List.pairwise_map.mpr
      ((List.pairwise_map.mp hfiles).imp fun hne he => hne (FileRecord.fileId_injective he))
  exact List.count_eq_one_of_mem hids (List.mem_map_of_mem (List.mem_filter.mpr ⟨hr, by simp [hf]⟩))

theorem isGraphOf_build {t : Tables} {rows : List FileRecord} (h : (rows.map (·.id)).Nodup) :
    IsGraphOf (on t) rows (.build (lookup (on t)) (fileIdsOf rows)) := by
  have hcollects := DependencyGraph.collects_build (lookup (on t)) (fileIdsOf rows)
  refine ⟨fun r hr hf => ?_, fun r hr hf => ?_, fun key hkey => ?_⟩
  · obtain ⟨found, hfound, hget⟩ := hcollects.imports r.fileId (answers_lookup t _)
    exact ⟨found, hfound, by rw [hget, count_fileIdsOf h hr hf, repeated_one]⟩
  · obtain ⟨found, hfound, hget⟩ := hcollects.exports r.fileId (answers_lookup t _)
    refine ⟨found, hfound, ?_⟩
    rw [hget, count_fileIdsOf h hr hf, repeated_one]
    simp only [List.map_eq_nil_iff]
  · have hlisted : key ∈ fileIdsOf rows := by
      rw [hcollects.ordered.1, hcollects.ordered.2, List.mem_append, List.mem_filter, List.mem_filter] at hkey
      rcases hkey with hkey | hkey <;> exact List.mem_eraseDups.mp hkey.1
    obtain ⟨r, hr, rfl⟩ := List.mem_map.mp hlisted
    obtain ⟨hr, hf⟩ := List.mem_filter.mp hr
    exact ⟨r, hr, by simpa using hf, rfl⟩

theorem nodup_ids_of_filesOf {t : Tables} (h : (t.files.map (·.id)).Nodup) {projectId : String}
    {rows : List FileRecord} (hrows : (on t).filesOf projectId = .ok rows) : (rows.map (·.id)).Nodup := by
  cases hrows
  rw [List.map_map]
  exact h.sublist (List.filter_sublist.map _)

/-- However look-ups of single files may fail, a graph collects what those that do not fail give. In any
database, the graph of a project says of each of its files what a look-up of that file says, and has no other
keys; both fail only where there are no tables. -/
theorem graph_agrees_with_lookups {ε : Type} (store : Lookup ε) (fileIds : List String) {db : Database}
    (hdb : db.Numbered) (projectId : String) :
    (DependencyGraph.build store fileIds).Collects store fileIds ∧
    (∀ e, db.filesOf projectId = .error e →
      projectGraph db projectId = .error e ∧ ∀ fileId, (fileDependencies db fileId).isOk = false) ∧
    ∀ rows, db.filesOf projectId = .ok rows →
      ∃ g, projectGraph db projectId = .ok g ∧ IsGraphOf db rows g := by
  refine ⟨DependencyGraph.collects_build store fileIds, ?_⟩
  obtain ⟨_ | t⟩ := db
  · refine ⟨fun e he => ?_, fun rows hrows => ?_⟩
    · cases he
      exact ⟨rfl, fun _ => rfl⟩
    · cases hrows
  · refine ⟨fun e he => ?_, fun rows hrows => ?_⟩
    · cases he
    refine ⟨.build (lookup (on t)) (fileIdsOf rows), ?_, ?_⟩
    · rw [projectGraph, hrows]
      rfl
    · exact isGraphOf_build (nodup_ids_of_filesOf (hdb t rfl) hrows)

/-- A store that fails for the exports of `b`, and for all else tells of one import and one export. -/
def brokenExports : Lookup String where
  imports fileId := .ok [⟨"./" ++ fileId, [], false, false, 1⟩]
  exports fileId := if fileId = "b" then .error "unavailable" else .ok [⟨fileId, false, 1⟩]

/-- A file that is listed twice, around one that fails, and two projects that share a path. -/
theorem graph_agrees_of_sharedPath :
    (on sharedTables).Numbered ∧
    DependencyGraph.build brokenExports ["a", "b", "a"] = ⟨[("a", ["./a", "./a"])], [("a", ["a", "a"])]⟩ ∧
    (DependencyGraph.build brokenExports ["a", "b", "a"]).Collects brokenExports ["a", "b", "a"] ∧
    projectGraph (on sharedTables) "p" = .ok ⟨[("2", ["x"])], [("2", ["v"]), ("3", ["w"])]⟩ ∧
    ∃ rows, (on sharedTables).filesOf "p" = .ok rows ∧ rows.map (·.id) = [2, 3] ∧
      IsGraphOf (on sharedTables) rows ⟨[("2", ["x"])], [("2", ["v"]), ("3", ["w"])]⟩ := by
  have hnumbered : (on sharedTables).Numbered := fun t ht => by
    cases ht
    decide
  obtain ⟨hcollects, _, hgraphOf⟩ :=
    graph_agrees_with_lookups brokenExports ["a", "b", "a"] hnumbered "p"
  have hgraph : projectGraph (on sharedTables) "p" =
      .ok ⟨[("2", ["x"])], [("2", ["v"]), ("3", ["w"])]⟩ := by decide +kernel
  obtain ⟨g, hg, hsays⟩ := hgraphOf _ rfl
  rw [hgraph] at hg
  cases hg
  exact ⟨hnumbered, by decide +kernel, hcollects, hgraph, _, rfl, rfl, hsays⟩

end CodeAtlas.Project
