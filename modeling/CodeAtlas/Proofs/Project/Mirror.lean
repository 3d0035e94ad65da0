import CodeAtlas.Proofs.Project.Reached

/-! # The registry mirrors the disk

After a completed scan no row is left of a path that the scan does not list, and nothing is stored
without a row. A row may be left of a path that has become a folder: for the detector both files and
folders are present, so the row of the former file stays as it was. -/

namespace CodeAtlas.Project

open CodeAtlas.Disk CodeAtlas.Scan CodeAtlas.Store
open CodeAtlas.Store.Process (on)

/-- What a registry keeps after a scan that found `found`: every row of the project is of a file that
the scan lists, or it is of a path that the scan lists as a folder and stayed as it was; and whatever
is stored is stored under a row. Paths are compared by their normal forms. -/
structure Mirrors (projectId : String) (found : List Metadata) (t after : Tables) : Prop where
  rows : ∀ r ∈ after.rowsOf projectId, ∃ m ∈ found, m.key = r.key ∧
    (m.isFile = true ∨ m.kind = .folder ∧ r ∈ t.files ∧
      after.recordsOf r.fileId = t.recordsOf r.fileId)
  entities : ∀ row ∈ after.entities, ∃ r ∈ after.files, r.fileId = row.fileId
  imports : ∀ row ∈ after.imports, ∃ r ∈ after.files, r.fileId = row.fileId
  exports : ∀ row ∈ after.exports, ∃ r ∈ after.files, r.fileId = row.fileId

variable {s : Scanner} {d : Disk} {projectId root : String} {content : Bool}
  {maxFileSize? : Option Int} {t after : Tables} {db : Database}

theorem mirrors_of_done {found : List Metadata} (h : Pass.Ready ⟨t, projectId, found⟩)
    (hd : Pass.Done ⟨t, projectId, found⟩ d after) : Mirrors projectId found t after where
  rows r hr := by
    obtain ⟨hr, hp⟩ := Tables.mem_rowsOf.mp hr
    obtain ⟨m, hm, hk, hkept⟩ := hd.exists_found h hr hp
    refine ⟨m, hm, hk, ?_⟩
    cases hkind : m.kind with
    | file => exact Or.inl (by simp [Metadata.isFile, hkind])
    | folder =>
      rcases hkept with hf | hkeep
      · simp [Metadata.isFile, hkind] at hf
      · exact Or.inr ⟨rfl, hkeep.row, hd.records_kept h hkeep⟩
  entities _ hrow := (hd.sound h).owned _ (Tables.recordsOf_ne_none_of_entity hrow)
  imports _ hrow := (hd.sound h).owned _ (Tables.recordsOf_ne_none_of_import hrow)
  exports _ hrow := (hd.sound h).owned _ (Tables.recordsOf_ne_none_of_export hrow)

/-- After a completed scan of a project the registry mirrors what the scan lists. -/
theorem mirrors_of_scan (hdb : Reached db) (hl : d.Legal) (hu : d.Unmarked)
    (hok : (scanProject s d projectId root content maxFileSize? db).1.isOk = true) :
    ∃ found t after, s.scan d (scanOptions content maxFileSize?) root = .ok found ∧ db = on t ∧
      (scanProject s d projectId root content maxFileSize? db).2 = on after ∧
      Mirrors projectId found t after := by
  obtain ⟨t, rfl, ht⟩ := hdb.sound
  obtain ⟨found, after, hscan, hafter, hready, hdone⟩ := exists_pass_of_isOk ht hl hu hok
  exact ⟨found, t, after, hscan, rfl, hafter, mirrors_of_done hready hdone⟩

/-- A disk with one file. -/
def fileDisk : Disk := .holding [.file "a.txt" [97] defaultTime]

/-- The disk once the file is replaced by a folder of the same name. -/
def folderDisk : Disk := .holding [.folder "a.txt" defaultTime []]

/-- The database after a scan of the file. -/
def fileDatabase : Database := (scanProject .default fileDisk "p" "/" false none .empty).2

theorem reached_fileDatabase : Reached fileDatabase :=
  .scanned .default "p" "/" false none .empty (by decide +kernel) (by decide +kernel)

theorem mirrors_of_folder :
    ∃ found t after, Scanner.default.scan folderDisk (scanOptions false none) "/" = .ok found ∧
      fileDatabase = on t ∧
      (scanProject .default folderDisk "p" "/" false none fileDatabase).2 = on after ∧
      Mirrors "p" found t after :=
  mirrors_of_scan reached_fileDatabase (by decide +kernel) (by decide +kernel) (by decide +kernel)

/-- It is not only of files that rows are left: the row of a file stays when a folder takes the file's
place. Nor are the paths of rows those of the scan as they are written. -/
theorem not_only_rows_of_files :
    (¬ ∀ (db : Database) (s : Scanner) (d : Disk) (projectId root : String) (content : Bool)
      (maxFileSize? : Option Int), Reached db → d.Legal → d.Unmarked →
      d.unlisted = [] ∧ d.unknown = [] ∧ d.unread = [] →
      (scanProject s d projectId root content maxFileSize? db).1.isOk = true →
      ∀ t, (scanProject s d projectId root content maxFileSize? db).2 = on t →
        ∀ r ∈ t.rowsOf projectId, ∃ found,
          s.scan d (scanOptions content maxFileSize?) root = .ok found ∧
            ∃ m ∈ found, m.isFile = true ∧ m.key = r.key) ∧
    ¬ ∀ (db : Database) (s : Scanner) (d : Disk) (projectId root : String) (content : Bool)
      (maxFileSize? : Option Int), Reached db → d.Legal → d.Unmarked →
      d.unlisted = [] ∧ d.unknown = [] ∧ d.unread = [] →
      (scanProject s d projectId root content maxFileSize? db).1.isOk = true →
      ∀ t, (scanProject s d projectId root content maxFileSize? db).2 = on t →
        ∀ r ∈ t.rowsOf projectId, ∃ found,
          s.scan d (scanOptions content maxFileSize?) root = .ok found ∧
            ∃ m ∈ found, m.path = r.path := by
  constructor
  · intro h
    let row : FileRecord := ⟨1, "p", "/a.txt", "a.txt", .file, 1, ⟨63135596800000000, none⟩,
      some "txt", none⟩
    obtain ⟨found, hscan, m, hm, hf, _⟩ := h fileDatabase .default folderDisk "p" "/" false none
      reached_fileDatabase (by decide +kernel) (by decide +kernel) ⟨rfl, rfl, rfl⟩
      (by decide +kernel) ⟨[row], [], [], []⟩ (by decide +kernel) row (by decide +kernel)
    have hnone : (Scanner.default.scan folderDisk (scanOptions false none) "/").toOption.map
        (List.filter (·.isFile)) = some [] := by decide +kernel
    rw [hscan] at hnone
    have hnil : found.filter (·.isFile) = [] := Option.some.inj hnone
    exact List.filter_eq_nil_iff.mp hnil m hm hf
  · intro h
    let row : FileRecord := { dottedRow with size := 2, modified := ⟨64135596800000000, none⟩ }
    obtain ⟨found, hscan, m, hm, hpath⟩ := h (on dottedTables) .default linkedDisk "p" "/a/..\\"
      false none reached_dottedTables (by decide +kernel) (by decide +kernel) ⟨rfl, rfl, rfl⟩
      (by decide +kernel) ⟨[row], [], [], []⟩ (by decide +kernel) row (by decide +kernel)
    have hother : (Scanner.default.scan linkedDisk (scanOptions false none) "/a/..\\").toOption.map
        (List.filter (·.path == row.path)) = some [] := by decide +kernel
    rw [hscan] at hother
    have hnil : found.filter (·.path == row.path) = [] := Option.some.inj hother
    exact List.filter_eq_nil_iff.mp hnil m hm (beq_iff_eq.mpr hpath)

end CodeAtlas.Project
