import CodeAtlas.Proofs.Project.Reached

/-! # A scan changes what it reports

A scan of a project completes whenever its root can be resolved and no file that it is to index breaks it
off. It changes the rows of its change set and no others, and its totals count these rows. The detector
compares paths by their normal forms, and so do the statements here. -/

namespace CodeAtlas.Project

open CodeAtlas.Disk CodeAtlas.Outline CodeAtlas.Scan CodeAtlas.Store
open CodeAtlas.Store.Process (on)

/-- What a completed scan with a certain change set does to the tables, and what it reports of it. -/
structure Exact (d : Disk) (projectId : String) (changes : ChangeSet) (t after : Tables)
    (report : Report) : Prop where
  /-- Rows of other projects, and rows whose paths are in neither list, stay with their records. -/
  kept : ∀ r ∈ t.files, (r.projectId = projectId →
      (∀ m ∈ changes.modified, m.key ≠ r.key) ∧ r.path ∉ changes.deleted) →
    r ∈ after.files ∧ after.recordsOf r.fileId = t.recordsOf r.fileId
  /-- The row of a newer file gets a new size, content and time, and new records if it is indexed. -/
  modified : ∀ m ∈ changes.modified, ∃ r ∈ t.files, r.projectId = projectId ∧ r.key = m.key ∧
    (∃ content?, { r with size := m.size, content?, modified := ⟨m.modified.instant, none⟩ } ∈
      after.files) ∧
    after.recordsOf r.fileId = if indexes d m then recordsFor d m else t.recordsOf r.fileId
  /-- A path that leads to nothing loses its row and all records. -/
  deleted : ∀ path ∈ changes.deleted, ∃ r ∈ t.files, r.projectId = projectId ∧ r.path = path ∧
    (∀ r' ∈ after.files, r'.id ≠ r.id ∧ (r'.projectId = projectId → r'.key ≠ r.key)) ∧
    after.recordsOf r.fileId = .none
  /-- A new file gets the only row with its path, and a number behind all that there were. -/
  added : ∀ m ∈ changes.added, ∃ r ∈ after.files, r.projectId = projectId ∧ r.path = m.path ∧
    r.size = m.size ∧ r.modified = ⟨m.modified.instant, none⟩ ∧
    (∀ r' ∈ after.files, r'.projectId = projectId → r'.key = m.key → r' = r) ∧
    (∀ r' ∈ t.files, r'.id < r.id) ∧
    after.recordsOf r.fileId = if indexes d m then recordsFor d m else .none
  others : ∀ other, other ≠ projectId → after.rowsOf other = t.rowsOf other
  distinct : ((changes.added ++ changes.modified).map Metadata.key).Nodup ∧ changes.deleted.Nodup
  totals : report.totals.added = changes.added.length ∧
    report.totals.modified = changes.modified.length ∧
    report.totals.deleted = changes.deleted.length
  rows : (after.rowsOf projectId).length + report.totals.deleted =
    (t.rowsOf projectId).length + report.totals.added
  indexed : report.totals.indexed = (changes.added ++ changes.modified).countP (indexes d)

variable {s : Scanner} {d : Disk} {projectId root : String} {content : Bool}
  {maxFileSize? : Option Int} {db : Database}

namespace Pass

variable {p : Pass} {after : Tables}

theorem mem_changes_modified {m : Metadata} (h : m ∈ p.changes.modified) :
    ∃ m' ∈ p.modified, m = m'.bare := by
  obtain ⟨m', hm, rfl⟩ := List.mem_map.mp h
  exact ⟨m', hm, rfl⟩

theorem exact_kept (h : p.Ready) (hd : p.Done d after) {r : FileRecord}
    (hr : r ∈ p.tables.files) (hout : r.projectId = p.projectId →
      (∀ m ∈ p.changes.modified, m.key ≠ r.key) ∧ r.path ∉ p.changes.deleted) :
    r ∈ after.files ∧ after.recordsOf r.fileId = p.tables.recordsOf r.fileId := by
  have hkeep : p.Keeps r := by
    refine ⟨hr, drops_eq_false.mp (Bool.eq_false_iff.mpr fun hdrops => ?_), fun hp m hm => ?_⟩
    · have hgone : r ∈ p.gone := mem_gone.mpr ⟨hr, hdrops⟩
      exact (hout (drops_iff.mp hdrops).1).2 (List.mem_map_of_mem hgone)
    · exact (hout hp).1 m.bare (List.mem_map_of_mem hm)
  exact ⟨hd.mem_of_keeps hkeep, hd.records_kept h hkeep⟩

theorem exact_modified (h : p.Ready) (hd : p.Done d after) {m : Metadata} (hm : m ∈ p.modified) :
    ∃ r ∈ p.tables.files, r.projectId = p.projectId ∧ r.key = m.key ∧
      (∃ content?, { r with size := m.size, content?, modified := ⟨m.modified.instant, none⟩ } ∈
        after.files) ∧
      after.recordsOf r.fileId =
        if indexes d m then recordsFor d m else p.tables.recordsOf r.fileId := by
  obtain ⟨hfound, hfile, r, hr, hp, hk, _⟩ := (mem_modified h.sound.rows).mp hm
  have hx := (mem_renewed h.sound.rows).mpr ⟨hm, hr, hp, hk⟩
  refine ⟨r, hr, hp, hk, ⟨m.content?, ?_⟩, hd.records_touched h (List.mem_append_right _ hx)⟩
  rw [(h.fits m hfound hfile).instant]
  exact hd.mem_of_renewed h hx

theorem exact_deleted (h : p.Ready) (hd : p.Done d after) {r : FileRecord} (hr : r ∈ p.gone) :
    (∀ r' ∈ after.files, r'.id ≠ r.id ∧ (r'.projectId = p.projectId → r'.key ≠ r.key)) ∧
      after.recordsOf r.fileId = .none := by
  obtain ⟨hrow, hdrops⟩ := mem_gone.mp hr
  obtain ⟨hp, hnothing⟩ := drops_iff.mp hdrops
  have hkey : ∀ r' ∈ after.files, r'.projectId = p.projectId → r'.key ≠ r.key := by
    intro r' hr' hp' hk
    obtain ⟨m, hm, hkm, _⟩ := hd.exists_found h hr' hp'
    exact hnothing m hm (hkm.trans hk)
  refine ⟨fun r' hr' => ⟨fun hid => ?_, hkey r' hr'⟩, hd.dropped r hr⟩
  -- a row with the number of a dropped one would be that row
  rcases hd.row_cases h hr' with hkeep | ⟨r₀, m, hx, rfl⟩ | ⟨m, hx⟩
  · obtain rfl := h.sound.rows.eq_of_id_eq hkeep.row hrow hid
    exact hkey r' hr' hp rfl
  · obtain ⟨_, hr₀, _, _⟩ := (mem_renewed h.sound.rows).mp hx
    obtain rfl := h.sound.rows.eq_of_id_eq hr₀ hrow hid
    exact hkey _ hr' hp rfl
  · exact Nat.ne_of_gt ((registers_of_created hx).behind r hrow) hid

theorem exact_added (h : p.Ready) (hd : p.Done d after) {m : Metadata} (hm : m ∈ p.added) :
    ∃ r ∈ after.files, r.projectId = p.projectId ∧ r.path = m.path ∧ r.size = m.size ∧
      r.modified = ⟨m.modified.instant, none⟩ ∧
      (∀ r' ∈ after.files, r'.projectId = p.projectId → r'.key = m.key → r' = r) ∧
      (∀ r' ∈ p.tables.files, r'.id < r.id) ∧
      after.recordsOf r.fileId = if indexes d m then recordsFor d m else .none := by
  obtain ⟨x, hx, rfl⟩ := exists_created hm
  have hnew := registers_of_created hx
  have hmem := hd.mem_of_created hx
  refine ⟨x.1, hmem, hnew.projectId, hnew.path, hnew.size, ?_, fun r' hr' hp hk => ?_, hnew.behind,
    hd.records_created h hx⟩
  · rw [hnew.modified, (h.fits x.2 hnew.found.1 hnew.found.2).instant]
  · exact hd.rows.eq_of_key_eq hr' hmem (hp.trans hnew.projectId.symm) (hk.trans hnew.key.symm)

theorem nodup_keys_changes (h : p.Ready) :
    ((p.changes.added ++ p.changes.modified).map Metadata.key).Nodup := by
  have hkeys := nodup_keys_touched h
  rw [← map_snd_touched h, List.map_map] at hkeys
  rwa [← map_bare_touched h, List.map_map]

theorem countP_touched (h : p.Ready) : (p.touched.countP fun x => indexes d x.2) =
    (p.changes.added ++ p.changes.modified).countP (indexes d) := by
  rw [← map_bare_touched h, List.countP_map]
  rfl

theorem exact_of_done (h : p.Ready) (hd : p.Done d after) :
    Exact d p.projectId p.changes p.tables after (p.report d) where
  kept r hr hout := exact_kept h hd hr hout
  modified m hm := by
    obtain ⟨m', hm', rfl⟩ := mem_changes_modified hm
    have hrow := exact_modified h hd hm'
    exact hrow
  deleted path hpath := by
    obtain ⟨r, hr, rfl⟩ := List.mem_map.mp hpath
    obtain ⟨hrow, hdrops⟩ := mem_gone.mp hr
    exact ⟨r, hrow, (drops_iff.mp hdrops).1, rfl, exact_deleted h hd hr⟩
  added m hm := by
    obtain ⟨m', hm', rfl⟩ := List.mem_map.mp hm
    have hrow := exact_added h hd hm'
    exact hrow
  others other hne := by rw [hd.rowsOf_eq, if_neg hne]
  distinct := by
    refine ⟨nodup_keys_changes h, ?_⟩
    have hgone := (h.sound.rows.filter p.drops).distinct
    refine List.pairwise_map.mpr ((List.pairwise_map.mp hgone).imp_of_mem ?_)
    intro r r' hr hr' hne he
    have hp := (drops_iff.mp (List.mem_filter.mp hr).2).1
    have hp' := (drops_iff.mp (List.mem_filter.mp hr').2).1
    exact hne (Prod.ext (hp.trans hp'.symm) (congrArg Path.normalize he))
  totals := ⟨rfl, rfl, rfl⟩
  rows := by
    have hlength := hd.length_rowsOf
    simpa [report, Totals.of, changes] using hlength
  indexed := countP_touched h

end Pass

/-- A scan of a project that fails on its root leaves the database as it was. One whose root is
resolved completes if it can read through all files that are new or newer, and does exactly what its change
set says. Otherwise it ends at the first of them whose reading breaks off, and has done what its change set
says if neither this file nor any behind it can be read. -/
theorem exact_of_resolved (hdb : Reached db) (hl : d.Legal) (hu : d.Unmarked) (hd : d.Dated) :
    (∀ e, d.resolve root = .error e →
      scanProject s d projectId root content maxFileSize? db = (.error (.scan (.link e)), db)) ∧
    ∀ path, d.resolve root = .ok path → ∃ rows changes t,
      db.filesOf projectId = .ok rows ∧
      s.changes d root (snapshotOf rows) = .ok changes ∧ db = on t ∧
      ((∀ m ∈ changes.added ++ changes.modified, breaksAt d m = false) → ∃ after report,
        scanProject s d projectId root content maxFileSize? db = (.ok report, on after) ∧
        Exact d projectId changes t after report) ∧
      ∀ front m rest, changes.added ++ changes.modified = front ++ m :: rest →
        (∀ m' ∈ front, breaksAt d m' = false) → breaksAt d m = true → ∃ after report,
          scanProject s d projectId root content maxFileSize? db =
            (.error (.nesting .exceeded), on after) ∧
          Exact (withholding d ((m :: rest).map (·.path))) projectId changes t after report := by
  refine ⟨fun e he => scanProject_of_error (scan_of_unresolved he) db, fun path hpath => ?_⟩
  obtain ⟨t, rfl, ht⟩ := hdb.sound
  obtain ⟨found, hscan⟩ := scan_of_dated (s := s) (o := scanOptions content maxFileSize?) hl hd hpath
  let p : Pass := ⟨t, projectId, found⟩
  have hready : p.Ready := Pass.ready_of_scan ht hl hu hscan
  refine ⟨p.rows, p.changes, t, rfl, Pass.changes_of_scan (p := p) ht hl hu hscan, rfl,
    fun hreturned => ?_, fun front m rest hsplit hfront hbreak => ?_⟩
  · have htouched : ∀ x ∈ p.touched, breaksAt d x.2 = false := fun x hx =>
      hreturned x.2.bare (Pass.map_bare_touched hready ▸ List.mem_map_of_mem hx)
    obtain ⟨report, after, hrun, hreport, hdone⟩ :=
      Pass.scanProject_yields (p := p) ht hl hu hscan htouched
    rw [show report = p.report d from hreport] at hrun
    exact ⟨after, p.report d, hrun, Pass.exact_of_done hready hdone⟩
  · rw [← Pass.map_bare_touched hready] at hsplit
    obtain ⟨frontRows, restRows, htouched, rfl, hrest⟩ := List.map_eq_append_iff.mp hsplit
    obtain ⟨x, restRows, rfl, rfl, rfl⟩ := List.map_eq_cons_iff.mp hrest
    obtain ⟨after, hrun, hdone⟩ := Pass.scanProject_of_breaksAt (p := p) ht hl hu hscan htouched
      (fun y hy => hfront y.2.bare (List.mem_map_of_mem hy)) hbreak
    refine ⟨after, p.report (withholding d ((x :: restRows).map (·.2.path))), hrun, ?_⟩
    have hpaths : (x.2.bare :: restRows.map (·.2.bare)).map (·.path) = (x :: restRows).map (·.2.path) := by
      simp [Metadata.bare]
    rw [hpaths]
    exact Pass.exact_of_done hready hdone

/-- A disk with two files. -/
def firstFiles : Disk :=
  .holding [.file "a.txt" [97] defaultTime, .file "b.txt" [98] defaultTime]

/-- The disk once one file is gone, the other has become newer, and there is a third one. -/
def laterFiles : Disk :=
  .holding [.file "b.txt" [98, 98] (2 * defaultTime), .file "c.txt" [99] defaultTime]

/-- The database after a scan of the first files. -/
def filesDatabase : Database := (scanProject .default firstFiles "p" "/" false none .empty).2

theorem reached_filesDatabase : Reached filesDatabase :=
  .scanned .default "p" "/" false none .empty (by decide +kernel) (by decide +kernel)

theorem exact_of_laterFiles :
    (scanProject .default laterFiles "p" "/" false none filesDatabase).1.toOption.map (·.totals) =
      some ⟨2, 0, 3, 1, 1, 1, 0⟩ ∧
    ∃ rows changes t after report, filesDatabase.filesOf "p" = .ok rows ∧
      Scanner.default.changes laterFiles "/" (snapshotOf rows) = .ok changes ∧
      filesDatabase = on t ∧
      scanProject .default laterFiles "p" "/" false none filesDatabase = (.ok report, on after) ∧
      Exact laterFiles "p" changes t after report := by
  obtain ⟨_, hresolved⟩ := @exact_of_resolved .default laterFiles "p" "/" false none filesDatabase
    reached_filesDatabase (by decide +kernel) (by decide +kernel) (by decide +kernel)
  obtain ⟨rows, changes, t, hrows, hchanges, hon, hcompletes, _⟩ := hresolved "/" rfl
  have hcheck : ((filesDatabase.filesOf "p").toOption.bind fun rows =>
      (Scanner.default.changes laterFiles "/" (snapshotOf rows)).toOption).map
        (fun changes => decide (∀ m ∈ changes.added ++ changes.modified, breaksAt laterFiles m = false)) =
      some true := by decide +kernel
  rw [hrows] at hcheck
  simp only [Except.toOption, Option.bind_some, hchanges, Option.map_some] at hcheck
  obtain ⟨after, report, hrun, hexact⟩ := hcompletes (of_decide_eq_true (Option.some.inj hcheck))
  exact ⟨by decide +kernel, rows, changes, t, after, report, hrows, hchanges, hon, hrun, hexact⟩

/-- Not every scan completes, for the root may be a link to itself; and if paths were compared as they
are written, a row could change although its path is in neither list. -/
theorem not_exact_as_written :
    (¬ ∀ (db : Database) (s : Scanner) (d : Disk) (projectId root : String) (content : Bool)
      (maxFileSize? : Option Int), Reached db → d.Legal → d.Unmarked → d.Dated →
      (scanProject s d projectId root content maxFileSize? db).1.isOk = true) ∧
    ¬ ∀ (t after : Tables) (s : Scanner) (d : Disk) (projectId root : String) (content : Bool)
      (maxFileSize? : Option Int) (changes : ChangeSet), Reached (on t) → d.Legal → d.Unmarked →
      d.Dated → (s.changes d root (snapshotOf (t.rowsOf projectId))).toOption = some changes →
      (scanProject s d projectId root content maxFileSize? (on t)).2 = on after →
      ∀ r ∈ t.rowsOf projectId, (∀ m ∈ changes.modified, m.path ≠ r.path) →
        r.path ∉ changes.deleted → r ∈ after.files := by
  constructor
  · intro h
    have hok := h .empty .default (.holding [.link "l" "l"]) "p" "/l" false none .empty
      (by decide +kernel) (by decide +kernel) (by decide +kernel)
    revert hok
    decide +kernel
  · intro h
    let newer : Metadata := ⟨"/b/../x.txt", "x.txt", .file, 2, ⟨64135596800000000, some 0⟩,
      some "txt", none⟩
    let after : Tables :=
      ⟨[{ dottedRow with size := 2, modified := ⟨64135596800000000, none⟩ }], [], [], []⟩
    have hkept := h dottedTables after .default linkedDisk "p" "/a/..\\" false none
      ⟨[], [newer], []⟩ reached_dottedTables (by decide +kernel) (by decide +kernel)
      (by decide +kernel) (by decide +kernel) (by decide +kernel) dottedRow (by decide +kernel)
      (by decide +kernel) (by decide +kernel)
    revert hkept
    decide +kernel

end CodeAtlas.Project
