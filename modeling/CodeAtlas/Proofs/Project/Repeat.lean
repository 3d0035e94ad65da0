import CodeAtlas.Proofs.Project.Exact

/-! # Scanning twice

A scan of a project that completes leaves nothing to do for the next one on the same disk, with whatever
options that one is called: no file is new or newer then, no path of a row leads to nothing, and a pass
without changes does not touch the tables. What the disk refuses plays no part, for both scans meet the
same refusals. -/

namespace CodeAtlas.Project

open CodeAtlas.Disk CodeAtlas.Scan CodeAtlas.Store
open CodeAtlas.Store.Process (on)

variable {s : Scanner} {d : Disk} {projectId root : String} {content content' : Bool}
  {maxFileSize? maxFileSize'? : Option Int} {db after : Database} {report : Report}

/-- Entries that differ in nothing but their content. -/
theorem eq_of_bare_eq {m m' : Metadata} (h : m.bare = m'.bare) :
    m.key = m'.key ∧ m.isFile = m'.isFile ∧ m.modified = m'.modified :=
  ⟨(congrArg Metadata.key h :), (congrArg Metadata.isFile h :), (congrArg Metadata.modified h :)⟩

/-- Whatever is asked of content, a scan finds the same entries. -/
theorem exists_scan_of_scan {found : List Metadata}
    (h : s.scan d (scanOptions content maxFileSize?) root = .ok found) (content' : Bool)
    (maxFileSize'? : Option Int) :
    ∃ found', s.scan d (scanOptions content' maxFileSize'?) root = .ok found' ∧
      found'.map Metadata.bare = found.map Metadata.bare := by
  have hbare := scan_bare s d (scanOptions content maxFileSize?) root
  have hbare' := scan_bare s d (scanOptions content' maxFileSize'?) root
  rw [h] at hbare
  rw [show (scanOptions content' maxFileSize'?).bare = (scanOptions content maxFileSize?).bare from rfl,
    hbare] at hbare'
  cases hscan : s.scan d (scanOptions content' maxFileSize'?) root with
  | error e =>
    rw [hscan] at hbare'
    cases hbare'
  | ok found' =>
    rw [hscan] at hbare'
    exact ⟨found', rfl, (Except.ok.inj hbare').symm⟩

namespace Pass

variable {p : Pass}

/-- A pass without changes leaves the tables exactly as they are. -/
theorem scanProject_of_unchanged (ht : p.tables.Sound) (hl : d.Legal) (hu : d.Unmarked)
    (hscan : s.scan d (scanOptions content maxFileSize?) root = .ok p.found)
    (h : p.changes = ⟨[], [], []⟩) :
    scanProject s d p.projectId root content maxFileSize? (on p.tables) =
      (.ok ⟨Totals.of p.found ⟨[], [], []⟩, p.found.take maxReported⟩, on p.tables) := by
  have hchanges := changes_of_scan ht hl hu hscan
  rw [h] at hchanges
  have hfound : (Process.expect ((s.scan d (scanOptions content maxFileSize?) root).mapError .scan) :
      Work (List Metadata)) (on p.tables) = (.ok p.found, on p.tables) := by
    rw [hscan]
    rfl
  have hrows : (Process.query (·.filesOf p.projectId) : Work (List FileRecord)) (on p.tables) =
      (.ok p.rows, on p.tables) := rfl
  have hnothing : (Process.expect ((s.changes d root p.snapshot).mapError .scan) : Work ChangeSet)
      (on p.tables) = (.ok ⟨[], [], []⟩, on p.tables) := by
    rw [hchanges]
    rfl
  refine (Process.bind_of_ok hfound).trans ((Process.bind_of_ok hrows).trans ?_)
  exact (Process.bind_of_ok hnothing).trans rfl

/-- What a pass would change if it came right after another one of the same entries: nothing. -/
theorem Done.unchanged {tables last : Tables} {found found' : List Metadata}
    (hd : Done ⟨tables, projectId, found⟩ d last) (h : Ready ⟨tables, projectId, found⟩)
    (hsame : found'.map Metadata.bare = found.map Metadata.bare) :
    changes ⟨last, projectId, found'⟩ = ⟨[], [], []⟩ := by
  let p : Pass := ⟨tables, projectId, found⟩
  let next : Pass := ⟨last, projectId, found'⟩
  -- every entry of the later pass was there in the earlier one, but for its content
  have hearlier : ∀ m ∈ found', ∃ m₀ ∈ found, m₀.bare = m.bare := fun m hm =>
    List.mem_map.mp (hsame ▸ List.mem_map_of_mem hm)
  have hadded : next.added = [] := by
    refine List.eq_nil_iff_forall_not_mem.mpr fun m hm => ?_
    obtain ⟨hfound, hfile, hnew⟩ := mem_added.mp hm
    obtain ⟨m₀, hm₀, he⟩ := hearlier m hfound
    obtain ⟨hkey, hkind, _⟩ := eq_of_bare_eq he
    obtain ⟨r, hr, hp, hk⟩ := hd.exists_row h hm₀ (hkind.trans hfile)
    exact hnew r hr hp (hk.trans hkey)
  have hmodified : next.modified = [] := by
    refine List.eq_nil_iff_forall_not_mem.mpr fun m hm => ?_
    obtain ⟨hfound, hfile, r, hr, hp, hk, hnewer⟩ := (mem_modified (p := next) hd.rows).mp hm
    obtain ⟨m₀, hm₀, he⟩ := hearlier m hfound
    obtain ⟨hkey, hkind, htime⟩ := eq_of_bare_eq he
    have hcurrent := hd.current h hr hp hm₀ (hkind.trans hfile) (hk.trans hkey.symm)
    rw [htime, hnewer] at hcurrent
    cases hcurrent
  have hgone : next.gone = [] := by
    refine List.eq_nil_iff_forall_not_mem.mpr fun r hr => ?_
    obtain ⟨hrow, hdrops⟩ := mem_gone.mp hr
    obtain ⟨hp, hnothing⟩ := drops_iff.mp hdrops
    obtain ⟨m₀, hm₀, hk, _⟩ := hd.exists_found h hrow hp
    obtain ⟨m, hm, he⟩ := List.mem_map.mp (hsame ▸ List.mem_map_of_mem (f := Metadata.bare) hm₀)
    exact hnothing m hm ((eq_of_bare_eq he).1.trans hk)
  have hchanges : next.changes =
    ⟨next.added.map Metadata.bare, next.modified.map Metadata.bare, next.gone.map (·.path)⟩ := rfl
  rw [show changes ⟨last, projectId, found'⟩ = next.changes from rfl, hchanges, hadded, hmodified,
    hgone]
  rfl

end Pass

/-- A scan of a project that follows a completed one on the same disk completes as well, reports no
changes and leaves the whole database as it is. -/
theorem unchanged_of_repeated (hdb : Reached db) (hl : d.Legal) (hu : d.Unmarked)
    (hfirst : scanProject s d projectId root content maxFileSize? db = (.ok report, after))
    (content' : Bool) (maxFileSize'? : Option Int) :
    ∃ report', scanProject s d projectId root content' maxFileSize'? after = (.ok report', after) ∧
      report'.totals.added = 0 ∧ report'.totals.modified = 0 ∧ report'.totals.deleted = 0 ∧
      report'.totals.indexed = 0 := by
  obtain ⟨t, rfl, ht⟩ := hdb.sound
  obtain ⟨found, last, hscan, rfl, hready, _, hdone⟩ := exists_pass ht hl hu hfirst
  obtain ⟨found', hscan', hsame⟩ := exists_scan_of_scan hscan content' maxFileSize'?
  have hrun := Pass.scanProject_of_unchanged (p := ⟨last, projectId, found'⟩) (hdone.sound hready) hl
    hu hscan' (hdone.unchanged hready hsame)
  exact ⟨_, hrun, rfl, rfl, rfl, rfl⟩

/-- The later files with two more: nothing is known of one of these, and the other one is a script that
cannot be read. -/
def refusingFiles : Disk :=
  { Disk.holding [.file "b.txt" [98, 98] (2 * defaultTime), .file "c.txt" [99] defaultTime,
      .file "d.php" [59] defaultTime, .file "e.txt" [101] defaultTime] with
    unknown := ["/e.txt"]
    unread := ["/d.php"] }

/-- A scan that adds, refreshes and drops rows, and the scan after it. -/
theorem unchanged_of_refusingFiles : ∃ report after report',
    scanProject .default refusingFiles "p" "/" true none filesDatabase = (.ok report, after) ∧
      (report.totals.added, report.totals.modified, report.totals.deleted) = (2, 1, 1) ∧
      scanProject .default refusingFiles "p" "/" false (some 0) after = (.ok report', after) ∧
      report'.totals.added = 0 ∧ report'.totals.modified = 0 ∧ report'.totals.deleted = 0 ∧
      report'.totals.indexed = 0 := by
  let first := scanProject .default refusingFiles "p" "/" true none
  obtain ⟨report, hfirst⟩ := Process.eq_of_isOk first filesDatabase (by decide +kernel)
  obtain ⟨report', hnext⟩ := unchanged_of_repeated reached_filesDatabase (by decide +kernel)
    (by decide +kernel) hfirst false (some 0)
  have htotals : (first filesDatabase).1.toOption.map (fun report =>
      (report.totals.added, report.totals.modified, report.totals.deleted)) = some (2, 1, 1) := by
    decide +kernel
  rw [hfirst] at htotals
  exact ⟨report, _, report', hfirst, Option.some.inj htotals, hnext⟩

end CodeAtlas.Project
