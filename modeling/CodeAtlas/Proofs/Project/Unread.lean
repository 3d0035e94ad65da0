import CodeAtlas.Proofs.Project.Reached

/-! # Files that could not be read

A call writes the time of a file into its row before it reads the file. If it cannot be read, the row is
current all the same, so the next call does not take the file up again, whatever the disk allows by then:
what was stored before the failure stays. -/

namespace CodeAtlas.Project

open CodeAtlas.Disk CodeAtlas.Outline CodeAtlas.Scan CodeAtlas.Store
open CodeAtlas.Store.Process (on)

/-- Whether a call takes up a file for indexing that it cannot read. -/
structure FailsToRead (s : Scanner) (d : Disk) (projectId root : String) (db : Database)
    (m : Metadata) : Prop where
  taken : ∃ rows changes, db.filesOf projectId = .ok rows ∧
    s.changes d root (snapshotOf rows) = .ok changes ∧ m ∈ changes.added ++ changes.modified
  supported : isSupported m.path = true
  unread : m.path ∈ d.unread

variable {s : Scanner} {d : Disk} {projectId root : String} {content content' : Bool}
  {maxFileSize? maxFileSize'? : Option Int} {db : Database} {t after last : Tables} {m : Metadata}

theorem indexes_of_unread (h : m.path ∈ d.unread) : indexes d m = false := by
  have hread : d.readText? m.path = none := by
    rw [Disk.readText?_eq, if_pos (List.contains_iff_mem.mpr h)]
  rw [indexes, hread]
  exact Bool.and_false _

/-- What a call takes up for indexing is what its pass touches. -/
theorem FailsToRead.exists_touched {found : List Metadata}
    (hfail : FailsToRead s d projectId root (on t) m) (ht : t.Sound) (hl : d.Legal) (hu : d.Unmarked)
    (hscan : s.scan d (scanOptions content maxFileSize?) root = .ok found) :
    ∃ x ∈ Pass.touched ⟨t, projectId, found⟩, m = x.2.bare := by
  let p : Pass := ⟨t, projectId, found⟩
  have hready : p.Ready := Pass.ready_of_scan ht hl hu hscan
  obtain ⟨rows, changes, hrows, hchanges, hm⟩ := hfail.taken
  obtain rfl : p.rows = rows := Except.ok.inj hrows
  have hsame := (Pass.changes_of_scan (p := p) ht hl hu hscan).symm.trans hchanges
  obtain rfl : p.changes = changes := Except.ok.inj hsame
  have hbare : m ∈ (p.added ++ p.modified).map Metadata.bare := by
    rw [List.map_append]
    exact hm
  obtain ⟨m', hm', rfl⟩ := List.mem_map.mp hbare
  obtain ⟨x, hx, rfl⟩ := Pass.exists_touched hready hm'
  exact ⟨x, hx, rfl⟩

/-- The call that fails to read a file: its row is current then, and what is stored under the number of
that row is what was stored before, which is nothing if the file is new. -/
theorem records_of_unread {found : List Metadata} (h : Pass.Ready ⟨t, projectId, found⟩)
    (hd : Pass.Done ⟨t, projectId, found⟩ d after)
    {x : FileRecord × Metadata} (hx : x ∈ Pass.touched ⟨t, projectId, found⟩)
    (hu : x.2.path ∈ d.unread) : ∃ r ∈ after.files, r.projectId = projectId ∧ r.key = x.2.key ∧
      x.2.modified.isAfter r.modified = false ∧
      after.recordsOf r.fileId = t.recordsOf r.fileId ∧
      ((∀ r ∈ t.files, r.projectId = projectId → r.key ≠ x.2.key) →
        t.recordsOf r.fileId = .none) := by
  obtain ⟨hfound, hfile⟩ := Pass.mem_found_of_touched h hx
  obtain ⟨r, hr, hp, hk, he⟩ := hd.exists_row_of_touched h hx
  have hsame : after.recordsOf r.fileId = t.recordsOf r.fileId := by
    rw [he, hd.records_touched h hx, indexes_of_unread hu]
    rfl
  refine ⟨r, hr, hp, hk, hd.current h hr hp hfound hfile hk, hsame, fun hnew => ?_⟩
  rcases List.mem_append.mp hx with hx | hx
  · rw [← hsame, he, hd.records_created h hx, indexes_of_unread hu]
    rfl
  · obtain ⟨_, hrow, hp, hk⟩ := (Pass.mem_renewed h.sound.rows).mp hx
    exact absurd hk (hnew x.1 hrow hp)

/-- The next call: it keeps the row of a file that it finds with the same time. -/
theorem records_of_current {found : List Metadata} (h : Pass.Ready ⟨after, projectId, found⟩)
    (hd : Pass.Done ⟨after, projectId, found⟩ d last) {r : FileRecord} (hr : r ∈ after.files)
    (hp : r.projectId = projectId) (hm : m.bare ∈ found.map Metadata.bare) (hk : r.key = m.key)
    (hcurrent : m.modified.isAfter r.modified = false) :
    r ∈ last.files ∧ last.recordsOf r.fileId = after.recordsOf r.fileId := by
  obtain ⟨m', hm', he⟩ := List.mem_map.mp hm
  obtain ⟨hkey, htime⟩ : m'.key = m.key ∧ m'.modified = m.modified := by
    rw [← m'.bare_key, ← m'.bare_modified, he]
    exact ⟨rfl, rfl⟩
  have hkeeps : Pass.Keeps ⟨after, projectId, found⟩ r :=
    Pass.keeps_of_current h hr hp hm' (hk.trans hkey.symm) fun _ => htime ▸ hcurrent
  exact ⟨hd.mem_of_keeps hkeeps, hd.records_kept h hkeeps⟩

/-- A call fails to read a file, and then one completes on the same tree where nothing fails. What is
stored of the file is then what its text declares if and only if it was so before the failure; for a
file that was new, this means that its text declares nothing. -/
theorem stores_iff_of_unread {middle db' : Database} {report report' : Report} (hdb : Reached db)
    (hl : d.Legal) (hu : d.Unmarked) (hfail : FailsToRead s d projectId root db m)
    (hfirst : scanProject s d projectId root content maxFileSize? db = (.ok report, middle))
    (hnext : scanProject s (.ofRoot d.root) projectId root content' maxFileSize'? middle =
      (.ok report', db')) :
    ∃ before rows r bytes, db.filesOf projectId = .ok before ∧
      db'.filesOf projectId = .ok rows ∧ rows.filter (·.key == m.key) = [r] ∧
      d.bytes? m.path = some bytes ∧
      let f := Outline.parse m.path (textOf bytes) .default
      (db'.Stores r.fileId f ↔ db.Stores r.fileId f) ∧
      ((∀ r ∈ before, r.key ≠ m.key) →
        (db'.Stores r.fileId f ↔ f.entities = [] ∧ f.imports = [] ∧ f.exports = [])) := by
  obtain ⟨t, rfl, ht⟩ := hdb.sound
  obtain ⟨found, after, hscan, rfl, hready, _, hdone⟩ := exists_pass ht hl hu hfirst
  obtain ⟨found', last, hscan', rfl, hready', _, hdone'⟩ :=
    exists_pass (d := .ofRoot d.root) (hdone.sound hready) hl hu hnext
  obtain ⟨x, hx, rfl⟩ := hfail.exists_touched ht hl hu hscan
  obtain ⟨hfound, hfile⟩ := Pass.mem_found_of_touched hready hx
  obtain ⟨bytes, hb, _⟩ := (agrees_of_scan hl hscan x.2 hfound).bytes hfile
  obtain ⟨r, hr, hp, hk, hcurrent, hrecords, hnone⟩ := records_of_unread hready hdone hx
    hfail.unread
  have hcalm := mem_scan_of_calm hscan hscan' rfl rfl rfl rfl x.2 hfound
  obtain ⟨hrow, hkept⟩ := records_of_current hready' hdone' hr hp hcalm hk hcurrent
  have hstores := Tables.stores_congr (f := Outline.parse x.2.path (textOf bytes) .default)
    (hkept.trans hrecords)
  refine ⟨_, _, r.handedOut, bytes, rfl, rfl, ?_, hb, hstores, fun hnew => hstores.trans ?_⟩
  · rw [Metadata.bare_key, ← hk]
    exact Tables.filter_handedOut (fun _ => rfl) (Tables.nodup_keys_rowsOf hdone'.rows projectId)
      (Tables.mem_rowsOf.mpr ⟨hrow, hp⟩)
  · refine Tables.stores_of_none (hnone fun r₀ hr₀ hp₀ => ?_)
    exact hnew r₀.handedOut (List.mem_map_of_mem (Tables.mem_rowsOf.mpr ⟨hr₀, hp₀⟩))

/-- A script. -/
def scriptFolder : Entry :=
  .folder "" defaultTime [.file "a.js" "export const v = 1;".toUTF8.toList defaultTime]

/-- The disk as long as the script cannot be read. -/
def unreadDisk : Disk := ⟨scriptFolder, [], [], ["/a.js"]⟩

/-- What a scan finds of the script. -/
def scriptMetadata : Metadata :=
  ⟨"/a.js", "a.js", .file, 19, ⟨63135596800000000, some 0⟩, some "js", none⟩

theorem failsToRead_script :
    FailsToRead .default unreadDisk "p" "/" .empty scriptMetadata where
  taken := ⟨[], ⟨[scriptMetadata], [], []⟩, rfl, eq_ok_of_toOption (by decide +kernel),
    List.mem_cons_self⟩
  supported := by decide +kernel
  unread := List.mem_cons_self

/-- Two calls for the script, which was new when it could not be read. -/
theorem stores_iff_of_script : ∃ db report db' report',
    scanProject .default unreadDisk "p" "/" false none .empty = (.ok report, db) ∧
    scanProject .default (.ofRoot scriptFolder) "p" "/" false none db = (.ok report', db') ∧
    ∃ before rows r bytes, Database.empty.filesOf "p" = .ok before ∧
      db'.filesOf "p" = .ok rows ∧ rows.filter (·.key == scriptMetadata.key) = [r] ∧
      unreadDisk.bytes? "/a.js" = some bytes ∧
      let f := Outline.parse "/a.js" (textOf bytes) .default
      (db'.Stores r.fileId f ↔ Database.empty.Stores r.fileId f) ∧
      ((∀ r ∈ before, r.key ≠ scriptMetadata.key) →
        (db'.Stores r.fileId f ↔ f.entities = [] ∧ f.imports = [] ∧ f.exports = [])) := by
  let first := scanProject .default unreadDisk "p" "/" false none
  let next := scanProject .default (.ofRoot scriptFolder) "p" "/" false none
  obtain ⟨report, hfirst⟩ := Process.eq_of_isOk first .empty (by decide +kernel)
  obtain ⟨report', hnext⟩ := Process.eq_of_isOk next (first .empty).2 (by decide +kernel)
  exact ⟨_, report, _, report', hfirst, hnext, stores_iff_of_unread .empty (by decide +kernel)
    (by decide +kernel) failsToRead_script hfirst hnext⟩

end CodeAtlas.Project
