import CodeAtlas.Project.Ingestion
import CodeAtlas.Proofs.Store.Rows

/-! # What a pass over a project is to do

A pass compares what a scan finds with the rows of a project. Which files are new, which have become
newer and which rows are to go can be read off the tables before the pass; the change set says the
same, although it goes by way of a snapshot. -/

namespace CodeAtlas.Project

open CodeAtlas.Scan CodeAtlas.Store

/-- The times of rows by their paths. -/
def snapshotOf (rows : List FileRecord) : Keyed Time.Moment :=
  Keyed.ofList (rows.map fun r => (r.path, r.modified))

/-- A pass over a project: the tables before it and what the scan finds. -/
structure Pass where
  tables : Tables
  projectId : String
  found : List Metadata

namespace Pass

variable (p : Pass)

/-- The row that the pass takes for an entry. -/
def rowOf? (m : Metadata) : Option FileRecord := p.tables.rowAt? p.projectId m.key

/-- The files that have no row yet. -/
def added : List Metadata := (p.found.filter (·.isFile)).filter fun m => (p.rowOf? m).isNone

/-- The files that are newer than their rows. -/
def modified : List Metadata :=
  (p.found.filter (·.isFile)).filter fun m => (p.rowOf? m).any fun r => m.modified.isAfter r.modified

/-- Whether a row is one of the project whose path leads to nothing now. -/
def drops (r : FileRecord) : Bool :=
  r.projectId == p.projectId && !(p.found.map Metadata.key).contains r.key

/-- The rows that are to go. -/
def gone : List FileRecord := p.tables.files.filter p.drops

/-- The rows that are compared with the disk, as they are handed out. -/
def rows : List FileRecord := (p.tables.rowsOf p.projectId).map (·.handedOut)

def snapshot : Keyed Time.Moment := snapshotOf p.rows

variable {p}

@[simp] theorem rowOf?_bare (m : Metadata) : p.rowOf? m.bare = p.rowOf? m := rfl

theorem rowOf?_eq_some (h : SoundRows p.tables.files) {m : Metadata} {r : FileRecord} :
    p.rowOf? m = some r ↔ r ∈ p.tables.files ∧ r.projectId = p.projectId ∧ r.key = m.key :=
  Tables.rowAt?_eq_some h

theorem mem_added {m : Metadata} : m ∈ p.added ↔ m ∈ p.found ∧ m.isFile = true ∧
    ∀ r ∈ p.tables.files, r.projectId = p.projectId → r.key ≠ m.key := by
  rw [added, List.mem_filter, List.mem_filter, Option.isNone_iff_eq_none, rowOf?,
    Tables.rowAt?_eq_none, and_assoc]

theorem mem_modified (h : SoundRows p.tables.files) {m : Metadata} : m ∈ p.modified ↔
    m ∈ p.found ∧ m.isFile = true ∧ ∃ r ∈ p.tables.files, r.projectId = p.projectId ∧
      r.key = m.key ∧ m.modified.isAfter r.modified = true := by
  simp only [modified, List.mem_filter, Option.any_eq_true, rowOf?_eq_some h, and_assoc]

/-- All that is to be done is to be done with files that were found. -/
theorem mem_found_of_changed {m : Metadata} (h : m ∈ p.added ++ p.modified) :
    m ∈ p.found ∧ m.isFile = true := by
  rcases List.mem_append.mp h with h | h
  · exact List.mem_filter.mp (List.mem_of_mem_filter h)
  · exact List.mem_filter.mp (List.mem_of_mem_filter h)

theorem drops_iff {r : FileRecord} : p.drops r = true ↔
    r.projectId = p.projectId ∧ ∀ m ∈ p.found, m.key ≠ r.key := by
  simp [drops]

/-! ## The change set -/

theorem snapshot_eq (h : SoundRows p.tables.files) : p.snapshot =
    (p.tables.rowsOf p.projectId).map fun r => (r.path, r.modified.assumeUtc) := by
  have hrows : (p.rows.map fun r => (r.path, r.modified)) =
      (p.tables.rowsOf p.projectId).map fun r => (r.path, r.modified.assumeUtc) := by
    simp [rows, FileRecord.handedOut]
  rw [snapshot, snapshotOf, hrows]
  exact Keyed.ofList_of_nodup (by simpa [Function.comp_def] using Tables.nodup_paths_rowsOf h _)

/-- The time that the snapshot has of an entry is that of its row. -/
theorem get?_knownTimes (h : SoundRows p.tables.files) (m : Metadata) :
    (knownTimes p.snapshot).get? m.key =
      (p.rowOf? m).map fun r => r.modified.assumeUtc.assumeUtc := by
  have hmap : (p.snapshot.map fun x => (Path.normalize x.1, x.2.assumeUtc)) =
      (p.tables.rowsOf p.projectId).map fun r =>
        (r.key, r.modified.assumeUtc.assumeUtc) := by
    rw [snapshot_eq h]
    simp [FileRecord.key]
  have hknown : knownTimes p.snapshot =
    Keyed.ofList (p.snapshot.map fun x => (Path.normalize x.1, x.2.assumeUtc)) := rfl
  rw [hknown, hmap, Keyed.get?_ofList_map (Tables.nodup_keys_rowsOf h p.projectId)]
  rfl

/-- The change set of a pass lists its new and newer files, and the paths of the rows to go. -/
theorem changes_eq (h : SoundRows p.tables.files) :
    ChangeSet.between p.snapshot (p.found.map Metadata.bare) =
      ⟨p.added.map Metadata.bare, p.modified.map Metadata.bare, p.gone.map (·.path)⟩ := by
  have hfiles : ((p.found.map Metadata.bare).filter (·.isFile)) =
      (p.found.filter (·.isFile)).map Metadata.bare := by
    rw [List.filter_map]
    rfl
  have hkeys : ((p.found.map Metadata.bare).map fun m => Path.normalize m.path) =
      p.found.map Metadata.key := by
    rw [List.map_map]
    rfl
  have hknown (m : Metadata) : (knownTimes p.snapshot).get? (Path.normalize m.path) =
      (p.rowOf? m).map fun r => r.modified.assumeUtc.assumeUtc := get?_knownTimes h m
  simp only [ChangeSet.between, hfiles, hkeys, List.filter_map, ChangeSet.mk.injEq]
  refine ⟨?_, ?_, ?_⟩
  · rw [added]
    congr 1
    refine List.filter_congr fun m _ => ?_
    simp only [Function.comp_apply, hknown, rowOf?_bare, Option.isNone_map]
  · rw [modified]
    congr 1
    refine List.filter_congr fun m _ => ?_
    simp only [Function.comp_apply, Metadata.bare_modified, hknown, rowOf?_bare]
    cases p.rowOf? m with
    | none => rfl
    | some r => rfl
  · rw [snapshot_eq h, List.filter_map, List.map_map, gone, Tables.rowsOf, List.filter_filter]
    congr 1
    refine List.filter_congr fun r _ => ?_
    simp [drops, FileRecord.key, Bool.and_comm]

end Pass

end CodeAtlas.Project
