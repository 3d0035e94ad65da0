import CodeAtlas.Proofs.Project.Stages

/-! # Projects are isolated

The tables of records know nothing of projects, so what keeps projects apart are the numbers of rows. A scan
of a project changes, drops and indexes by number only, and the numbers that it goes by are those of rows that
it has read of this project and of rows that it has made, which are new. Nothing is assumed of the disk or of
what is stored, and a scan may stop anywhere. -/

namespace CodeAtlas.Store

/-- No two rows of the registry have one number, for it is their primary key. -/
def Database.Numbered (db : Database) : Prop :=
  ∀ t, db.tables? = some t → (t.files.map (·.id)).Nodup

/-- Two databases say the same of a project: they list the same files, and the same records of each. -/
structure Database.SameOf (db after : Database) (projectId : String) : Prop where
  files : after.filesOf projectId = db.filesOf projectId
  records : ∀ rows, db.filesOf projectId = .ok rows → ∀ r ∈ rows,
    after.entitiesOf r.fileId = db.entitiesOf r.fileId ∧
    after.importsOf r.fileId = db.importsOf r.fileId ∧
    after.exportsOf r.fileId = db.exportsOf r.fileId

namespace Tables

variable {t now after : Tables} {projectId : String} {id : Nat} {r : FileRecord}

/-- Whether a number is not that of a row of another project. -/
def Apart (t : Tables) (projectId : String) (id : Nat) : Prop :=
  ∀ r ∈ t.files, r.projectId ≠ projectId → r.id ≠ id

/-- The rows of all other projects stay, in their order, and so do their records. -/
structure Spares (t : Tables) (projectId : String) (now : Tables) : Prop where
  rows : now.files.filter (·.projectId != projectId) = t.files.filter (·.projectId != projectId)
  records : ∀ r ∈ t.files, r.projectId ≠ projectId → now.recordsOf r.fileId = t.recordsOf r.fileId

/-- A row of the project has no number in common with a row of another one. -/
theorem apart_of_mem (h : (t.files.map (·.id)).Nodup) (hr : r ∈ t.files) (hp : r.projectId = projectId) :
    t.Apart projectId r.id := by
  intro r' hr' hne he
  rw [eq_of_key_eq h hr' hr he] at hne
  exact hne hp

namespace Spares

theorem refl (t : Tables) (projectId : String) : t.Spares projectId t := ⟨rfl, fun _ _ _ => rfl⟩

theorem mem_files (h : t.Spares projectId now) (hr : r ∈ t.files) (hp : r.projectId ≠ projectId) :
    r ∈ now.files := by
  have hmem : r ∈ t.files.filter (·.projectId != projectId) :=
    List.mem_filter.mpr ⟨hr, by simpa using hp⟩
  exact (List.mem_filter.mp (h.rows ▸ hmem)).1

theorem mem_of_files (h : t.Spares projectId now) (hr : r ∈ now.files) (hp : r.projectId ≠ projectId) :
    r ∈ t.files := by
  have hmem : r ∈ now.files.filter (·.projectId != projectId) :=
    List.mem_filter.mpr ⟨hr, by simpa using hp⟩
  exact (List.mem_filter.mp (h.rows ▸ hmem)).1

/-- The number of a new row is that of no row of another project. -/
theorem apart_next (h : t.Spares projectId now) : t.Apart projectId (Database.nextFileId now) :=
  fun r hr hp => Nat.ne_of_lt (lt_nextFileId now r (h.mem_files hr hp))

/-! ## What a step may do -/

theorem append (h : t.Spares projectId now) (hp : r.projectId = projectId) :
    t.Spares projectId { now with files := now.files ++ [r] } where
  rows := by
    rw [List.filter_append, h.rows, List.filter_cons_of_neg (by simpa using hp), List.filter_nil,
      List.append_nil]
  records := h.records

theorem map (h : t.Spares projectId now) {g : FileRecord → FileRecord}
    (hg : ∀ r : FileRecord, r.Becomes (g r))
    (hothers : ∀ r ∈ t.files, r.projectId ≠ projectId → g r = r) :
    t.Spares projectId { now with files := now.files.map g } where
  rows := by
    have hproject : ((·.projectId != projectId) ∘ g) = fun r => r.projectId != projectId :=
      funext fun r => by rw [Function.comp_apply, (hg r).place.1]
    rw [List.filter_map, hproject, h.rows]
    conv => rhs; rw [← List.map_id (t.files.filter _)]
    refine List.map_congr_left fun r hr => ?_
    obtain ⟨hr, hp⟩ := List.mem_filter.mp hr
    exact hothers r hr (by simpa using hp)
  records := h.records

theorem drop (h : t.Spares projectId now) (hdrops : now.Drops r after) (hid : t.Apart projectId r.id) :
    t.Spares projectId after where
  rows := by
    rw [hdrops.files, List.filter_filter, ← h.rows]
    refine List.filter_congr fun r' hr' => ?_
    cases hp : r'.projectId != projectId with
    | false => rfl
    | true =>
      have hp : r'.projectId ≠ projectId := by simpa using hp
      simpa using hid r' (h.mem_of_files hr' hp) hp
  records r' hr' hp := by
    have hne : r'.fileId ≠ r.fileId := fun he => hid r' hr' hp (FileRecord.fileId_injective he)
    rw [hdrops.others _ hne, h.records r' hr' hp]

theorem touch (h : t.Spares projectId now) (htouches : now.Touches r.fileId after)
    (hid : t.Apart projectId r.id) : t.Spares projectId after where
  rows := by rw [htouches.files, h.rows]
  records r' hr' hp := by
    have hne : r'.fileId ≠ r.fileId := fun he => hid r' hr' hp (FileRecord.fileId_injective he)
    rw [htouches.others _ hne, h.records r' hr' hp]

/-! ## What other projects see -/

theorem rowsOf_eq (h : t.Spares projectId now) {other : String} (hne : other ≠ projectId) :
    now.rowsOf other = t.rowsOf other := by
  -- rows of the other project are among those that are not of this one
  have hfilter (rows : List FileRecord) : rows.filter (·.projectId == other) =
      (rows.filter (·.projectId != projectId)).filter (·.projectId == other) := by
    rw [List.filter_filter]
    refine List.filter_congr fun r _ => ?_
    cases hp : r.projectId == other with
    | false => rfl
    | true =>
      rw [eq_of_beq hp]
      simpa using hne
  rw [rowsOf, rowsOf, hfilter, h.rows, ← hfilter]

end Spares

end Tables

end CodeAtlas.Store

namespace CodeAtlas.Project

open CodeAtlas.Disk CodeAtlas.Scan CodeAtlas.Store
open CodeAtlas.Store.Process (on Ends)

variable {projectId : String} {t now : Tables}

/-! ## The loops of a scan -/

/-- Whether all rows that a loop goes by have numbers of their own project. -/
def AllApart (t : Tables) (projectId : String) (l : List (FileRecord × Metadata)) : Prop :=
  ∀ x ∈ l, t.Apart projectId x.1.id

theorem registerAll_spares (byPath : Keyed Metadata) (ms : List Metadata)
    (h : t.Spares projectId now) :
    (ms.mapM (register projectId byPath)).Ends now
      (fun created after => t.Spares projectId after ∧ AllApart t projectId created)
      (t.Spares projectId) := by
  refine Ends.mapM
    (I := fun _ created mid => t.Spares projectId mid ∧ AllApart t projectId created)
    (fun _ m _ created mid _ hi => ?_) ⟨h, List.forall_mem_nil _⟩
  obtain ⟨hmid, hcreated⟩ := hi
  refine (register_ends projectId byPath m mid).mono ?_ ?_
  · rintro x _ ⟨row, hx, rfl, hid, hp, _⟩
    have hxid : x.1.id = Database.nextFileId mid := by rw [hx, ← hid]; rfl
    refine ⟨hmid.append hp, List.forall_mem_append.mpr ⟨hcreated, ?_⟩⟩
    exact List.forall_mem_singleton.mpr (hxid ▸ hmid.apart_next)
  · rintro _ rfl
    exact hmid

/-- The rows that a loop looks up are rows of the project. -/
def LooksUp (t : Tables) (projectId : String) (rows : Keyed FileRecord) : Prop :=
  ∀ key r, rows.get? key = some r → t.Apart projectId r.id

theorem refreshAll_spares {rows : Keyed FileRecord} (hrows : LooksUp t projectId rows)
    (byPath : Keyed Metadata) (ms : List Metadata) (h : t.Spares projectId now) :
    (ms.mapM (refresh rows byPath)).Ends now
      (fun refreshed after => t.Spares projectId after ∧ AllApart t projectId (refreshed.filterMap id))
      (t.Spares projectId) := by
  refine Ends.mapM
    (I := fun _ refreshed mid => t.Spares projectId mid ∧ AllApart t projectId (refreshed.filterMap id))
    (fun _ m _ refreshed mid _ hi => ?_) ⟨h, List.forall_mem_nil _⟩
  obtain ⟨hmid, hrefreshed⟩ := hi
  refine (refresh_ends rows byPath m mid).mono ?_ ?_
  · rintro x? _ ⟨g, rfl, hg, hothers, hx⟩
    have hapart : ∀ x, x? = some x → t.Apart projectId x.1.id := fun x he => hrows _ _ (hx x he)
    refine ⟨hmid.map hg fun r hr hp => hothers r fun x he => hapart x he r hr hp, ?_⟩
    rw [List.filterMap_append]
    refine List.forall_mem_append.mpr ⟨hrefreshed, fun x hmem => ?_⟩
    obtain ⟨y, hy, hsome⟩ := List.mem_filterMap.mp hmem
    obtain rfl := List.mem_singleton.mp hy
    exact hapart x hsome
  · rintro _ rfl
    exact hmid

theorem removeAll_spares {rows : Keyed FileRecord} (hrows : LooksUp t projectId rows)
    (paths : List String) (h : t.Spares projectId now) :
    (paths.forM (removePath rows)).Ends now (fun _ => t.Spares projectId) (t.Spares projectId) := by
  refine Ends.forM (I := fun _ => t.Spares projectId) (fun _ path _ mid _ hmid => ?_) h
  have hpath : ∀ after, (after = mid ∨ ∃ r, rows.get? (Path.normalize path) = some r ∧
      mid.Drops r after) → t.Spares projectId after := by
    rintro after (rfl | ⟨r, hr, hdrops⟩)
    · exact hmid
    · exact hmid.drop hdrops (hrows _ r hr)
  exact (removePath_ends rows path mid).mono (fun _ => hpath) hpath

theorem reindexAll_spares (d : Disk) {l : List (FileRecord × Metadata)} (hl : AllApart t projectId l)
    (h : t.Spares projectId now) :
    (reindexAll d l).Ends now (fun _ => t.Spares projectId) (t.Spares projectId) := by
  refine Ends.mapM (I := fun _ _ => t.Spares projectId) (fun front x rest _ mid he hmid => ?_) h
  have hx : t.Apart projectId x.1.id := hl x (by rw [he]; simp)
  have hstep : ∀ after, mid.Touches x.1.fileId after → t.Spares projectId after :=
    fun _ htouches => hmid.touch htouches hx
  exact (reindex_ends d x.1 x.2 mid).mono (fun _ => hstep) hstep

/-! ## A scan -/

/-- The rows that a scan finds by their paths are those that it has read of its project. -/
theorem looksUp_rowsByPath (ht : (t.files.map (·.id)).Nodup) :
    LooksUp t projectId (Keyed.ofList
      (((t.rowsOf projectId).map (·.handedOut)).map fun r => (Path.normalize r.path, r))) := by
  intro key r hr
  obtain ⟨_, hmem, he⟩ := List.mem_map.mp (Keyed.mem_of_get?_ofList hr)
  obtain ⟨r₀, hr₀, rfl⟩ := List.mem_map.mp hmem
  obtain ⟨hr₀, hp⟩ := Tables.mem_rowsOf.mp hr₀
  rw [← (Prod.mk.inj he).2]
  have hapart : t.Apart projectId r₀.id := Tables.apart_of_mem ht hr₀ hp
  exact hapart

theorem scanProject_spares (s : Scanner) (d : Disk) (projectId root : String) (content : Bool)
    (maxFileSize? : Option Int) (ht : (t.files.map (·.id)).Nodup) :
    (scanProject s d projectId root content maxFileSize?).Ends t (fun _ => t.Spares projectId)
      (t.Spares projectId) := by
  have hstart : t.Spares projectId t := .refl t projectId
  unfold scanProject
  refine (Ends.expect (Q := fun _ now => t = now) (fun _ _ => rfl) hstart).bind ?_
  rintro found _ rfl
  refine (Ends.query (Q := fun rows now => t = now ∧ rows = (t.rowsOf projectId).map (·.handedOut))
    (fun rows h => ⟨rfl, ?_⟩) hstart).bind ?_
  · cases h
    rfl
  rintro _ _ ⟨rfl, rfl⟩
  refine (Ends.expect (Q := fun _ now => t = now) (fun _ _ => rfl) hstart).bind ?_
  rintro changes _ rfl
  refine (registerAll_spares _ changes.added hstart).bind ?_
  rintro created t₁ ⟨h₁, hcreated⟩
  refine (refreshAll_spares (looksUp_rowsByPath ht) _ changes.modified h₁).bind ?_
  rintro refreshed t₂ ⟨h₂, hrefreshed⟩
  refine (removeAll_spares (looksUp_rowsByPath ht) changes.deleted h₂).bind ?_
  rintro _ t₃ h₃
  have hapart : AllApart t projectId (created ++ refreshed.filterMap id) :=
    List.forall_mem_append.mpr ⟨hcreated, hrefreshed⟩
  exact (reindexAll_spares d hapart h₃).bind fun _ after hafter => Ends.pure hafter

/-- Without tables a scan fails and leaves it at that. -/
theorem scanProject_dropped (s : Scanner) (d : Disk) (projectId root : String) (content : Bool)
    (maxFileSize? : Option Int) :
    (scanProject s d projectId root content maxFileSize? .dropped).2 = .dropped := by
  unfold scanProject
  cases (s.scan d ⟨content, maxFileSize?, [], none⟩ root).mapError IngestionError.scan <;> rfl

/-- However a scan of a project ends, all other projects list the same files as before, and the same
records of each of them. -/
theorem isolated_of_scan {db : Database} (hdb : db.Numbered) (s : Scanner) (d : Disk)
    (projectId root : String) (content : Bool) (maxFileSize? : Option Int) {other : String}
    (hne : other ≠ projectId) :
    db.SameOf (scanProject s d projectId root content maxFileSize? db).2 other := by
  obtain ⟨_ | t⟩ := db
  · have hsame := scanProject_dropped s d projectId root content maxFileSize?
    rw [show (⟨none⟩ : Database) = .dropped from rfl, hsame]
    exact ⟨rfl, fun _ _ _ _ => ⟨rfl, rfl, rfl⟩⟩
  · obtain ⟨now, hnow, hspares⟩ :=
      (scanProject_spares s d projectId root content maxFileSize? (hdb t rfl)).snd
    rw [hnow]
    refine ⟨?_, fun rows hrows r hr => ?_⟩
    · have hlisted (t : Tables) : (on t).filesOf other = .ok ((t.rowsOf other).map (·.handedOut)) := rfl
      rw [hlisted, hlisted, hspares.rowsOf_eq hne]
    · cases hrows
      obtain ⟨r₀, hr₀, rfl⟩ := List.mem_map.mp hr
      obtain ⟨hr₀, hp⟩ := Tables.mem_rowsOf.mp hr₀
      exact Tables.reads_congr (hspares.records r₀ hr₀ (hp ▸ hne))

/-! ## Two projects on one disk -/

/-- The row of a text of one byte. -/
def textRow (id : Nat) (projectId path name : String) : FileRecord :=
  ⟨id, projectId, path, name, .file, 1, ⟨63135596800000000, none⟩, some "txt", none⟩

/-- Two projects that have registered the same path, with records under each of their rows. -/
def sharedTables : Tables where
  files := [textRow 1 "q" "/a.txt" "a.txt", textRow 2 "p" "/a.txt" "a.txt",
    textRow 3 "p" "/b.txt" "b.txt"]
  entities := []
  imports := [⟨1, "2", .ofImport ⟨"x", [], false, false, 1⟩⟩,
    ⟨2, "1", .ofImport ⟨"y", ["z"], true, false, 2⟩⟩]
  exports := [⟨1, "1", .ofExport ⟨"u", true, 1⟩⟩, ⟨2, "2", .ofExport ⟨"v", false, 1⟩⟩,
    ⟨3, "3", .ofExport ⟨"w", false, 1⟩⟩]

/-- The disk once one text is newer, the other is gone, and there is a new one. -/
def sharedDisk : Disk :=
  .holding [.file "a.txt" [97] (2 * defaultTime), .file "c.txt" [99] defaultTime]

theorem isolated_of_sharedPath :
    (scanProject .default sharedDisk "p" "/" false none (on sharedTables)).1.toOption.map (·.totals) =
      some ⟨2, 0, 2, 1, 1, 1, 0⟩ ∧
    (on sharedTables).Numbered ∧ "q" ≠ "p" ∧
    (on sharedTables).SameOf
      (scanProject .default sharedDisk "p" "/" false none (on sharedTables)).2 "q" := by
  have hnumbered : (on sharedTables).Numbered := fun t ht => by
    cases ht
    decide
  exact ⟨by decide +kernel, hnumbered, by decide,
    isolated_of_scan hnumbered .default sharedDisk "p" "/" false none (by decide)⟩

end CodeAtlas.Project
