import CodeAtlas.Proofs.Project.Outcome

/-! # What scans of projects reach

The databases that scans of any projects reach from an empty one, on disks without names that end in
a backslash. Their tables are sound, so every further scan is a pass, or it fails before it touches
anything or while it indexes files. -/

namespace CodeAtlas.Project

open CodeAtlas.Disk CodeAtlas.Scan CodeAtlas.Store
open CodeAtlas.Store.Process (on Yields)

/-- The options with which a project is scanned. -/
def scanOptions (content : Bool) (maxFileSize? : Option Int) : ScanOptions :=
  ⟨content, maxFileSize?, [], none⟩

/-- The databases that scans of projects reach, whether these complete or not. -/
inductive Reached : Database → Prop
  | empty : Reached .empty
  | scanned {db : Database} (s : Scanner) {d : Disk} (projectId root : String) (content : Bool)
      (maxFileSize? : Option Int) : Reached db → d.Legal → d.Unmarked →
      Reached (scanProject s d projectId root content maxFileSize? db).2

variable {s : Scanner} {d : Disk} {projectId root : String} {content : Bool}
  {maxFileSize? : Option Int} {t : Tables} {db : Database} {report : Report}

/-- A scan that fails on the disk leaves the database as it was. -/
theorem scanProject_of_error {e : ScanError}
    (h : s.scan d (scanOptions content maxFileSize?) root = .error e) (db : Database) :
    scanProject s d projectId root content maxFileSize? db = (.error (.scan e), db) := by
  unfold scanOptions at h
  unfold scanProject
  refine Process.bind_of_error ?_
  rw [h]
  rfl

/-- A scan of a project that completes has been a pass. -/
theorem exists_pass (ht : t.Sound) (hl : d.Legal) (hu : d.Unmarked)
    (h : scanProject s d projectId root content maxFileSize? (on t) = (.ok report, db)) :
    ∃ found after, s.scan d (scanOptions content maxFileSize?) root = .ok found ∧ db = on after ∧
      let p : Pass := ⟨t, projectId, found⟩
      p.Ready ∧ report = p.report d ∧ p.Done d after := by
  cases hscan : s.scan d (scanOptions content maxFileSize?) root with
  | error e =>
    rw [scanProject_of_error hscan] at h
    cases h
  | ok found =>
    let p : Pass := ⟨t, projectId, found⟩
    have hready : p.Ready := Pass.ready_of_scan ht hl hu hscan
    rcases breaksAt_cases d p.touched with hreturned | ⟨front, x, rest, hsplit, hfront, hbreak⟩
    · obtain ⟨after, hdb, hreport, hdone⟩ :=
        (Pass.scanProject_yields (p := p) ht hl hu hscan hreturned).of_completed h
      exact ⟨found, after, rfl, hdb, hready, hreport, hdone⟩
    · obtain ⟨after, hrun, _⟩ := Pass.scanProject_of_breaksAt (p := p) ht hl hu hscan hsplit hfront hbreak
      cases h.symm.trans hrun

theorem exists_pass_of_isOk (ht : t.Sound) (hl : d.Legal) (hu : d.Unmarked)
    (h : (scanProject s d projectId root content maxFileSize? (on t)).1.isOk = true) :
    ∃ found after, s.scan d (scanOptions content maxFileSize?) root = .ok found ∧
      (scanProject s d projectId root content maxFileSize? (on t)).2 = on after ∧
      let p : Pass := ⟨t, projectId, found⟩
      p.Ready ∧ p.Done d after := by
  obtain ⟨report, hcall⟩ := Process.eq_of_isOk _ _ h
  obtain ⟨found, after, hscan, hdb, hready, _, hdone⟩ := exists_pass ht hl hu hcall
  exact ⟨found, after, hscan, hdb, hready, hdone⟩

/-- It completes exactly if its scan of the disk does and no file that it is to index breaks it off. -/
theorem isOk_iff_of_scan {found : List Metadata} (ht : t.Sound) (hl : d.Legal) (hu : d.Unmarked)
    (h : s.scan d (scanOptions content maxFileSize?) root = .ok found) :
    let p : Pass := ⟨t, projectId, found⟩
    (scanProject s d projectId root content maxFileSize? (on t)).1.isOk = true ↔
      ∀ m ∈ p.added ++ p.modified, breaksAt d m = false := by
  intro p
  obtain ⟨_, _, _, hcompletes, _⟩ := Pass.scanProject_done (p := p) ht hl hu h
  exact hcompletes

/-- Scans of projects keep tables sound. -/
theorem Reached.sound (h : Reached db) : ∃ t, db = on t ∧ t.Sound := by
  induction h with
  | empty => exact ⟨.empty, rfl, sound_empty⟩
  | scanned s projectId root content maxFileSize? _ hl hu ih =>
    rename_i db d _
    obtain ⟨t, rfl, ht⟩ := ih
    cases hscan : s.scan d (scanOptions content maxFileSize?) root with
    | error e =>
      rw [scanProject_of_error hscan]
      exact ⟨t, rfl, ht⟩
    | ok found =>
      let p : Pass := ⟨t, projectId, found⟩
      have hready : p.Ready := Pass.ready_of_scan ht hl hu hscan
      obtain ⟨after, hrun, hdone, _⟩ := Pass.scanProject_done (p := p) ht hl hu hscan
      have hrun : (scanProject s d projectId root content maxFileSize? (on t)).2 = on after := hrun
      rw [hrun]
      exact ⟨after, rfl, hdone.sound hready⟩

/-! ## A root that is no normal form

A root is resolved without the backslash at its end, so two dots can be left at the end of a path that
counts as resolved. What precedes them may become a link. -/

/-- A folder beside another one and a file. -/
def plainDisk : Disk :=
  .holding [.folder "a" defaultTime [], .folder "b" defaultTime [], .file "x.txt" [97] defaultTime]

/-- The disk once the folder is replaced by a link to the other one, and the file by a newer one. -/
def linkedDisk : Disk :=
  .holding [.link "a" "b", .folder "b" defaultTime [], .file "x.txt" [97, 97] (2 * defaultTime)]

/-- The row of the file, which keeps the path under which it was seen first. -/
def dottedRow : FileRecord :=
  ⟨1, "p", "/a/../x.txt", "x.txt", .file, 1, ⟨63135596800000000, none⟩, some "txt", none⟩

def dottedTables : Tables := ⟨[dottedRow], [], [], []⟩

theorem reached_dottedTables : Reached (on dottedTables) := by
  have hscan : (scanProject .default plainDisk "p" "/a/..\\" false none .empty).2 =
    on dottedTables := by decide +kernel
  rw [← hscan]
  exact .scanned .default "p" "/a/..\\" false none .empty (by decide +kernel) (by decide +kernel)

end CodeAtlas.Project
