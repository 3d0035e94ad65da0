import CodeAtlas.Proofs.Project.Indexing
import CodeAtlas.Proofs.Project.Loops
import CodeAtlas.Proofs.Store.Ownership

/-! # The stages of a call

A scan of a project brings the registry in line with the disk and then indexes what it has touched. What
follows holds on every disk and for all tables whose rows own what is stored, also where a call stops half
way: rows keep their numbers, their projects and their paths, new rows get larger numbers than all that
were there when the call began, and a new row owns nothing until it is its turn to be indexed. -/

namespace CodeAtlas.Project

open CodeAtlas.Disk CodeAtlas.Outline CodeAtlas.Scan CodeAtlas.Store
open CodeAtlas.Store.Process (on Ends)

/-! ## Two stages -/

/-- What is known of a call once the registry is in line with the disk. -/
structure Synced where
  found : List Metadata
  changes : ChangeSet
  created : List (FileRecord × Metadata)
  refreshed : List (Option (FileRecord × Metadata))

/-- The files that are to be indexed, with their rows. -/
def Synced.todo (x : Synced) : List (FileRecord × Metadata) := x.created ++ x.refreshed.filterMap id

/-- The part of a call that changes the registry. -/
def syncProject (s : Scanner) (d : Disk) (projectId root : String) (content : Bool)
    (maxFileSize? : Option Int) : Work Synced := do
  let found ← Process.expect ((s.scan d ⟨content, maxFileSize?, [], none⟩ root).mapError .scan)
  let rows ← Process.query (·.filesOf projectId)
  let snapshot : Keyed Time.Moment := Keyed.ofList (rows.map fun r => (r.path, r.modified))
  let changes ← Process.expect ((s.changes d root snapshot).mapError .scan)
  let byPath : Keyed Metadata := Keyed.ofList (found.map fun m => (Path.normalize m.path, m))
  let rowsByPath : Keyed FileRecord := Keyed.ofList (rows.map fun r => (Path.normalize r.path, r))
  let created ← changes.added.mapM (register projectId byPath)
  let refreshed ← changes.modified.mapM (refresh rowsByPath byPath)
  changes.deleted.forM (removePath rowsByPath)
  return ⟨found, changes, created, refreshed⟩

/-- Indexes files one after the other. -/
def reindexAll (d : Disk) (l : List (FileRecord × Metadata)) : Work (List Bool) :=
  l.mapM fun x => reindex d x.1 x.2

/-- The part of a call that changes records. -/
def Synced.index (x : Synced) (d : Disk) : Work Report := do
  let done ← reindexAll d x.todo
  return {
    totals := { Totals.of x.found x.changes with indexed := done.count true }
    entries := x.found.take maxReported }

theorem scanProject_eq (s : Scanner) (d : Disk) (projectId root : String) (content : Bool)
    (maxFileSize? : Option Int) : scanProject s d projectId root content maxFileSize? =
      syncProject s d projectId root content maxFileSize? >>= (·.index d) := by
  simp only [scanProject, syncProject, Synced.index, Synced.todo, reindexAll, bind_assoc, pure_bind]

/-- The entries below a root without their content, or none if the scan of the disk fails. -/
def listing (s : Scanner) (d : Disk) (root : String) : List Metadata :=
  (s.scan d .default root).toOption.getD []

variable {s : Scanner} {d : Disk} {projectId root : String} {content : Bool}
  {maxFileSize? : Option Int} {t now after : Tables} {listed : List Metadata}

/-! ## Steps -/

theorem indexFile_touches (t : Tables) (fileId path source : String) (o : Options) :
    (indexFile fileId path source o).Ends t (fun _ => t.Touches fileId) (t.Touches fileId) :=
  (indexFile_ends t fileId path source o).mono (fun _ _ h => h.2.1.touches) fun _ h => h.1

theorem reindex_ends (d : Disk) (r : FileRecord) (m : Metadata) (t : Tables) :
    (reindex d r m).Ends t (fun _ => t.Touches r.fileId) (t.Touches r.fileId) := by
  unfold reindex
  split
  · exact Ends.pure (.refl t _)
  · split
    · exact Ends.pure (.refl t _)
    · exact (indexFile_touches t r.fileId m.path _ _).bind fun _ after hafter => Ends.pure hafter

/-- However removing a file ends, its row and its records are gone. -/
theorem removeFile_ends (r : FileRecord) (t : Tables) :
    (removeFile r).Ends t (fun _ => t.Drops r) (t.Drops r) := by
  unfold removeFile
  refine ((deleteRecords_yields t r.fileId).ends _).bind fun _ mid hmid => ?_
  have hdrops : t.Drops r { mid with files := mid.files.filter (·.id != r.id) } :=
    ⟨by rw [hmid.files], hmid.own, hmid.others⟩
  refine (deleteFile_ends mid r.id).mono ?_ ?_
  · rintro _ _ rfl
    exact hdrops
  · rintro _ rfl
    exact hdrops

theorem removePath_ends (rows : Keyed FileRecord) (path : String) (t : Tables) :
    let Q := fun after => after = t ∨ ∃ r, rows.get? (Path.normalize path) = some r ∧ t.Drops r after
    (removePath rows path).Ends t (fun _ => Q) Q := by
  unfold removePath
  split
  · exact Ends.pure (Or.inl rfl)
  · next r hr =>
    exact (removeFile_ends r t).mono (fun _ _ h => Or.inr ⟨r, hr, h⟩) fun _ h => Or.inr ⟨r, hr, h⟩

theorem register_ends (projectId : String) (byPath : Keyed Metadata) (m : Metadata) (t : Tables) :
    (register projectId byPath m).Ends t
      (fun x after => ∃ row : FileRecord, x.1 = row.handedOut ∧
        after = { t with files := t.files ++ [row] } ∧ row.id = Database.nextFileId t ∧
        row.projectId = projectId ∧ row.path = (withContent byPath m).path ∧
        row.kind = (withContent byPath m).kind)
      (fun after => after = t) := by
  have hstep : (Process.step (·.registerFile projectId (.ofMetadata (withContent byPath m))) :
      Work FileRecord).Ends t
      (fun r after => ∃ row : FileRecord, r = row.handedOut ∧
        after = { t with files := t.files ++ [row] } ∧ row.id = Database.nextFileId t ∧
        row.projectId = projectId ∧ row.path = (withContent byPath m).path ∧
        row.kind = (withContent byPath m).kind)
      (fun after => after = t) := by
    refine Ends.step (fun r db h => ?_) rfl
    obtain ⟨row, hr, hdb, hrow⟩ := exists_row_of_registerFile h
    exact ⟨_, hdb, row, hr, rfl, hrow⟩
  unfold register
  exact hstep.bind fun r after hafter => Ends.pure hafter

theorem refresh_ends (rows : Keyed FileRecord) (byPath : Keyed Metadata) (m : Metadata) (t : Tables) :
    (refresh rows byPath m).Ends t
      (fun x? after => ∃ g : FileRecord → FileRecord, after = { t with files := t.files.map g } ∧
        (∀ r : FileRecord, r.Becomes (g r)) ∧
        (∀ r : FileRecord, (∀ x, x? = some x → r.id ≠ x.1.id) → g r = r) ∧
        ∀ x, x? = some x → rows.get? (Path.normalize m.path) = some x.1)
      (fun after => after = t) := by
  unfold refresh
  split
  · exact Ends.pure ⟨id, by simp, .refl, fun _ _ => rfl, fun _ h => by cases h⟩
  · next r hr =>
    have hstep : (Process.update (·.updateFile (r.id : Int) (.ofMetadata (withContent byPath m))) :
        Work Unit).Ends t
        (fun _ after => ∃ g : FileRecord → FileRecord, after = { t with files := t.files.map g } ∧
          (∀ r : FileRecord, r.Becomes (g r)) ∧ ∀ r' : FileRecord, r'.id ≠ r.id → g r' = r')
        (fun after => after = t) := by
      refine Ends.update (fun db h => ?_) fun _ _ => rfl
      obtain ⟨g, hdb, hg⟩ := exists_map_of_updateFile h
      exact ⟨_, hdb, g, rfl, hg⟩
    refine hstep.bind fun _ after hafter => Ends.pure ?_
    obtain ⟨g, hfiles, hg, hothers⟩ := hafter
    refine ⟨g, hfiles, hg, fun r' hne => hothers r' (hne _ rfl), ?_⟩
    rintro _ ⟨⟩
    exact hr

/-! ## What a call keeps -/

/-- A row as a scan makes it: for a file that is listed, but with the path and the kind of an entry that
only has to agree with the file in the normal form of its path. -/
def Stems (listed : List Metadata) (r : FileRecord) : Prop :=
  ∃ file ∈ listed, file.isFile = true ∧
    ∃ m ∈ listed, m.key = file.key ∧ r.path = m.path ∧ r.kind = m.kind

theorem Stems.becomes {r r' : FileRecord} (h : Stems listed r) (hr : r.Becomes r') :
    Stems listed r' := by
  obtain ⟨file, hfile, hkind, m, hm, hkey, hrow⟩ := h
  refine ⟨file, hfile, hkind, m, hm, hkey, ?_⟩
  rwa [hr.place.2, hr.kind]

/-- How far a call has come: each row is an earlier one, or a new one with a larger number than all of
these. -/
structure Advances (t : Tables) (listed : List Metadata) (now : Tables) : Prop where
  owned : now.Owned
  rows : ∀ r ∈ now.files, (∃ r₀ ∈ t.files, r₀.Becomes r) ∨
    Stems listed r ∧ ∀ r₀ ∈ t.files, r₀.id < r.id

/-- How far a call has come before it indexes anything: new rows own nothing. -/
structure Prepares (t : Tables) (listed : List Metadata) (now : Tables) : Prop
    extends Advances t listed now where
  fresh : ∀ r ∈ now.files, (∀ r₀ ∈ t.files, r₀.id ≠ r.id) → now.recordsOf r.fileId = .none

namespace Prepares

theorem start (ht : t.Owned) (listed : List Metadata) : Prepares t listed t where
  owned := ht
  rows r hr := Or.inl ⟨r, hr, .refl r⟩
  fresh r hr hnew := absurd rfl (hnew r hr)

theorem register (h : Prepares t listed now) (hold : ∀ r ∈ t.files, r ∈ now.files) {row : FileRecord}
    (hid : row.id = Database.nextFileId now) (hstems : Stems listed row) :
    Prepares t listed { now with files := now.files ++ [row] } where
  owned := h.owned.append fun r hr => hid ▸ lt_nextFileId now r hr
  rows r hr := by
    rcases List.mem_append.mp hr with hr | hr
    · exact h.rows r hr
    · obtain rfl := List.mem_singleton.mp hr
      exact Or.inr ⟨hstems, fun r₀ hr₀ => hid ▸ lt_nextFileId now r₀ (hold r₀ hr₀)⟩
  fresh r hr hnew := by
    rcases List.mem_append.mp hr with hr | hr
    · exact h.fresh r hr hnew
    · obtain rfl := List.mem_singleton.mp hr
      exact h.owned.recordsOf_eq_none fun r' hr' => by
        have := lt_nextFileId now r' hr'
        omega

theorem refresh (h : Prepares t listed now) {g : FileRecord → FileRecord}
    (hg : ∀ r : FileRecord, r.Becomes (g r)) :
    Prepares t listed { now with files := now.files.map g } where
  owned := h.owned.map hg
  rows r' hr' := by
    obtain ⟨r, hr, rfl⟩ := List.mem_map.mp hr'
    rcases h.rows r hr with ⟨r₀, hr₀, hold⟩ | ⟨hstems, hlarger⟩
    · exact Or.inl ⟨r₀, hr₀, hold.trans (hg r)⟩
    · exact Or.inr ⟨hstems.becomes (hg r), by rwa [(hg r).id]⟩
  fresh r' hr' hnew := by
    obtain ⟨r, hr, rfl⟩ := List.mem_map.mp hr'
    rw [(hg r).id] at hnew
    rw [FileRecord.fileId_eq (hg r).id]
    exact h.fresh r hr hnew

theorem drop (h : Prepares t listed now) {r : FileRecord} (hdrops : now.Drops r after) :
    Prepares t listed after where
  owned := hdrops.owned h.owned
  rows r' hr' := h.rows r' (List.mem_filter.mp (hdrops.files ▸ hr')).1
  fresh r' hr' hnew :=
    hdrops.recordsOf_eq_none (h.fresh r' (List.mem_filter.mp (hdrops.files ▸ hr')).1 hnew)

end Prepares

/-- The rows that a call has made so far, which have numbers of their own. -/
structure Creates (t : Tables) (created : List (FileRecord × Metadata)) (now : Tables) : Prop where
  distinct : (created.map (·.1.id)).Nodup
  larger : ∀ x ∈ created, ∀ r₀ ∈ t.files, r₀.id < x.1.id
  rows : ∀ x ∈ created, ∃ r ∈ now.files, r.id = x.1.id

theorem Creates.register {created : List (FileRecord × Metadata)} (h : Creates t created now)
    (hold : ∀ r ∈ t.files, r ∈ now.files) {row : FileRecord} (hid : row.id = Database.nextFileId now)
    {x : FileRecord × Metadata} (hx : row.id = x.1.id) :
    Creates t (created ++ [x]) { now with files := now.files ++ [row] } where
  distinct := by
    rw [List.map_append, List.nodup_append]
    refine ⟨h.distinct, List.pairwise_singleton .., ?_⟩
    simp only [List.map_singleton, List.mem_singleton, forall_eq, List.forall_mem_map]
    intro y hy
    obtain ⟨r, hr, hrid⟩ := h.rows y hy
    have := lt_nextFileId now r hr
    omega
  larger := by
    simp only [List.forall_mem_append, List.forall_mem_singleton]
    exact ⟨h.larger, fun r₀ hr₀ => hx ▸ hid ▸ lt_nextFileId now r₀ (hold r₀ hr₀)⟩
  rows := by
    simp only [List.forall_mem_append, List.forall_mem_singleton]
    refine ⟨fun y hy => ?_, row, by simp, hx⟩
    obtain ⟨r, hr, hrid⟩ := h.rows y hy
    exact ⟨r, List.mem_append_left _ hr, hrid⟩

theorem Creates.refresh {created : List (FileRecord × Metadata)} (h : Creates t created now)
    {g : FileRecord → FileRecord} (hg : ∀ r : FileRecord, r.Becomes (g r)) :
    Creates t created { now with files := now.files.map g } where
  distinct := h.distinct
  larger := h.larger
  rows x hx := by
    obtain ⟨r, hr, hid⟩ := h.rows x hx
    exact ⟨g r, List.mem_map_of_mem hr, (hg r).id.trans hid⟩

/-- Whether every listed row is still there, whatever it says now. -/
def Remain (l : List FileRecord) (now : Tables) : Prop := ∀ r ∈ l, ∃ r' ∈ now.files, r'.id = r.id

theorem Remain.refresh {l : List FileRecord} (h : Remain l now) {g : FileRecord → FileRecord}
    (hg : ∀ r : FileRecord, r.Becomes (g r)) :
    Remain l { now with files := now.files.map g } := by
  intro r hr
  obtain ⟨r', hr', hid⟩ := h r hr
  exact ⟨g r', List.mem_map_of_mem hr', (hg r').id.trans hid⟩

/-! ## The loops -/

namespace Pass

variable {p : Pass}

theorem mem_rows {r : FileRecord} (hr : r ∈ p.rows) : ∃ r₀ ∈ p.tables.files, r = r₀.handedOut := by
  obtain ⟨r₀, hr₀, rfl⟩ := List.mem_map.mp hr
  exact ⟨r₀, (Tables.mem_rowsOf.mp hr₀).1, rfl⟩

theorem eq_of_rows (ht : p.tables.Owned) {r r' : FileRecord} (hr : r ∈ p.rows) (hr' : r' ∈ p.rows)
    (he : r.id = r'.id) : r = r' := by
  obtain ⟨r₀, hr₀, rfl⟩ := mem_rows hr
  obtain ⟨r₁, hr₁, rfl⟩ := mem_rows hr'
  rw [ht.eq_of_id_eq hr₀ hr₁ he]

theorem mem_rows_of_get? {key : String} {r : FileRecord} (h : p.rowsByPath.get? key = some r) :
    r ∈ p.rows ∧ r.key = key := by
  obtain ⟨r', hr', he⟩ := List.mem_map.mp (Keyed.mem_of_get?_ofList h)
  cases he
  exact ⟨hr', rfl⟩

/-- What a pass is told to change, whether or not rows are told apart by their keys. -/
def differences (p : Pass) : ChangeSet := ChangeSet.between p.snapshot (p.found.map Metadata.bare)

theorem exists_file_of_added {m : Metadata} (h : m ∈ p.differences.added) :
    ∃ file ∈ p.found, file.isFile = true ∧ m = file.bare := by
  obtain ⟨hm, hkind⟩ := List.mem_filter.mp (List.mem_filter.mp h).1
  obtain ⟨file, hfile, rfl⟩ := List.mem_map.mp hm
  exact ⟨file, hfile, hkind, rfl⟩

theorem key_mem_of_modified {m : Metadata} (h : m ∈ p.differences.modified) :
    m.key ∈ p.found.map Metadata.key := by
  obtain ⟨hm, _⟩ := List.mem_filter.mp (List.mem_filter.mp h).1
  obtain ⟨file, hfile, rfl⟩ := List.mem_map.mp hm
  exact List.mem_map.mpr ⟨file, hfile, rfl⟩

theorem key_not_mem_of_deleted {path : String} (h : path ∈ p.differences.deleted) :
    Path.normalize path ∉ p.found.map Metadata.key := by
  intro hmem
  obtain ⟨file, hfile, hkey⟩ := List.mem_map.mp hmem
  have hgone := (List.mem_filter.mp h).2
  rw [Bool.not_eq_true', ← hkey, List.map_map, ← Bool.not_eq_true, List.contains_iff_mem] at hgone
  exact hgone (List.mem_map.mpr ⟨file, hfile, rfl⟩)

/-- A row that is made for a listed file stems from the listing. -/
theorem stems_withContent {file : Metadata} (hfile : file ∈ p.found) (hkind : file.isFile = true)
    {row : FileRecord} (hpath : row.path = (withContent p.byPath file.bare).path)
    (hrow : row.kind = (withContent p.byPath file.bare).kind) :
    Stems (p.found.map Metadata.bare) row := by
  refine ⟨file.bare, List.mem_map_of_mem hfile, hkind, ?_⟩
  unfold withContent at hpath hrow
  cases hget : p.byPath.get? (Path.normalize file.bare.path) with
  | none =>
    rw [hget] at hpath hrow
    exact ⟨file.bare, List.mem_map_of_mem hfile, rfl, hpath, hrow⟩
  | some m =>
    rw [hget] at hpath hrow
    obtain ⟨m', hm', he⟩ := List.mem_map.mp (Keyed.mem_of_get?_ofList hget)
    obtain ⟨hkey, rfl⟩ := Prod.mk.inj he
    exact ⟨m'.bare, List.mem_map_of_mem hm', hkey, hpath, hrow⟩

theorem registerAll_ends (ht : p.tables.Owned) :
    let listed := p.found.map Metadata.bare
    (p.differences.added.mapM (register p.projectId p.byPath)).Ends p.tables
      (fun created now => Prepares p.tables listed now ∧ (∀ r ∈ p.tables.files, r ∈ now.files) ∧
        Creates p.tables created now)
      (Prepares p.tables listed) := by
  intro listed
  refine Ends.mapM (I := fun _ created now => Prepares p.tables listed now ∧
    (∀ r ∈ p.tables.files, r ∈ now.files) ∧ Creates p.tables created now)
    (fun front m rest created now hl hi => ?_) ⟨.start ht listed, fun _ hr => hr, ?_⟩
  · obtain ⟨hnow, hold, hcreated⟩ := hi
    obtain ⟨file, hfile, hkind, rfl⟩ := exists_file_of_added (m := m) (by rw [hl]; simp)
    refine (register_ends p.projectId p.byPath file.bare now).mono ?_ ?_
    · rintro x _ ⟨row, hx, rfl, hid, _, hpath, hrow⟩
      have hxid : row.id = x.1.id := by rw [hx]; rfl
      exact ⟨hnow.register hold hid (stems_withContent hfile hkind hpath hrow),
        fun r hr => List.mem_append_left _ (hold r hr), hcreated.register hold hid hxid⟩
    · rintro _ rfl
      exact hnow
  · exact ⟨List.nodup_nil, List.forall_mem_nil _, List.forall_mem_nil _⟩

/-- The rows of the project whose paths lead to something. -/
def present (p : Pass) : List FileRecord :=
  p.rows.filter fun r => (p.found.map Metadata.key).contains r.key

theorem refreshAll_ends {created : List (FileRecord × Metadata)}
    (hnow : Prepares p.tables listed now) (hcreated : Creates p.tables created now)
    (hremain : Remain p.tables.files now) :
    (p.differences.modified.mapM (refresh p.rowsByPath p.byPath)).Ends now
      (fun xs after => Prepares p.tables listed after ∧ Creates p.tables created after ∧
        Remain p.tables.files after ∧ ∀ x ∈ xs.filterMap id, x.1 ∈ p.present)
      (Prepares p.tables listed) := by
  refine Ends.mapM (I := fun _ xs mid => Prepares p.tables listed mid ∧ Creates p.tables created mid ∧
    Remain p.tables.files mid ∧ ∀ x ∈ xs.filterMap id, Prod.fst x ∈ p.present)
    (fun front m rest xs mid hl hi => ?_) ⟨hnow, hcreated, hremain, List.forall_mem_nil _⟩
  obtain ⟨hmid, hcreated, hremain, hpresent⟩ := hi
  refine (refresh_ends p.rowsByPath p.byPath m mid).mono ?_ ?_
  · rintro x? _ ⟨g, rfl, hg, _, hx⟩
    refine ⟨hmid.refresh hg, hcreated.refresh hg, hremain.refresh hg, ?_⟩
    rw [List.filterMap_append]
    refine List.forall_mem_append.mpr ⟨hpresent, fun x hmem => ?_⟩
    obtain ⟨y, hy, hsome⟩ := List.mem_filterMap.mp hmem
    obtain rfl := List.mem_singleton.mp hy
    obtain ⟨hrow, hkey⟩ := mem_rows_of_get? (hx x hsome)
    refine List.mem_filter.mpr ⟨hrow, ?_⟩
    rw [hkey]
    exact List.contains_iff_mem.mpr (key_mem_of_modified (by rw [hl]; simp))
  · rintro _ rfl
    exact hmid

/-- Rows are dropped by their numbers. Only rows that the call has read are dropped, so the new rows stay,
and so do all rows whose paths lead to something. -/
theorem removeAll_ends (ht : p.tables.Owned) {created : List (FileRecord × Metadata)}
    (hnow : Prepares p.tables listed now) (hcreated : Creates p.tables created now)
    (hremain : Remain p.tables.files now) :
    (p.differences.deleted.forM (removePath p.rowsByPath)).Ends now
      (fun _ after => Prepares p.tables listed after ∧ Creates p.tables created after ∧
        Remain p.present after)
      (Prepares p.tables listed) := by
  refine Ends.forM (I := fun _ mid => Prepares p.tables listed mid ∧ Creates p.tables created mid ∧
    Remain p.present mid) (fun front path rest mid hl hi => ?_) ⟨hnow, hcreated, ?_⟩
  · obtain ⟨hmid, hcreated, hremain⟩ := hi
    have hpath : path ∈ p.differences.deleted := by rw [hl]; simp
    refine (removePath_ends p.rowsByPath path mid).mono ?_ ?_
    · rintro _ after (rfl | ⟨r, hget, hdrops⟩)
      · exact ⟨hmid, hcreated, hremain⟩
      · obtain ⟨hr, hkey⟩ := mem_rows_of_get? hget
        obtain ⟨r₀, hr₀, he⟩ := mem_rows hr
        refine ⟨hmid.drop hdrops, ⟨hcreated.distinct, hcreated.larger, fun x hx => ?_⟩, fun r' hr' => ?_⟩
        · obtain ⟨row, hrow, hid⟩ := hcreated.rows x hx
          have hlarger := hcreated.larger x hx r₀ hr₀
          have hold : r.id = r₀.id := he ▸ rfl
          exact ⟨row, hdrops.mem_files hrow (by omega), hid⟩
        · obtain ⟨row, hrow, hid⟩ := hremain r' hr'
          obtain ⟨hr', hthere⟩ := List.mem_filter.mp hr'
          refine ⟨row, hdrops.mem_files hrow fun hsame => key_not_mem_of_deleted hpath ?_, hid⟩
          obtain rfl := eq_of_rows ht hr' hr (hid.symm.trans hsame)
          exact hkey ▸ List.contains_iff_mem.mp hthere
    · rintro after (rfl | ⟨r, _, hdrops⟩)
      · exact hmid
      · exact hmid.drop hdrops
  · intro r hr
    obtain ⟨r₀, hr₀, rfl⟩ := mem_rows (List.mem_filter.mp hr).1
    exact hremain r₀ hr₀

end Pass

/-- Indexing changes nothing but the records of the files that it goes through. -/
structure Indexes (now : Tables) (l : List (FileRecord × Metadata)) (after : Tables) : Prop where
  files : after.files = now.files
  owned : after.Owned
  others : ∀ fileId, (∀ x ∈ l, x.1.fileId ≠ fileId) → after.recordsOf fileId = now.recordsOf fileId

theorem reindexAll_ends (d : Disk) {l : List (FileRecord × Metadata)} (hnow : now.Owned)
    (hrows : Remain (l.map Prod.fst) now) :
    (reindexAll d l).Ends now (fun _ => Indexes now l) (Indexes now l) := by
  refine Ends.mapM (I := fun _ _ => Indexes now l) (fun front x rest _ mid hl hi => ?_)
    ⟨rfl, hnow, fun _ _ => rfl⟩
  have hx : x ∈ l := by rw [hl]; simp
  have hstep : ∀ after, mid.Touches x.1.fileId after → Indexes now l after := by
    intro after htouches
    refine ⟨htouches.files.trans hi.files, htouches.owned hi.owned ?_, fun fileId hno => ?_⟩
    · rw [hi.files]
      exact hrows x.1 (List.mem_map_of_mem hx)
    · rw [htouches.others fileId (Ne.symm (hno x hx)), hi.others fileId hno]
  exact (reindex_ends d x.1 x.2 mid).mono (fun _ => hstep) hstep

/-! ## A call -/

/-- What the first stage leaves for the second one. -/
structure Synced.Ready (x : Synced) (t : Tables) (listed : List Metadata) (now : Tables) : Prop
    extends Prepares t listed now where
  created : Creates t x.created now
  rows_todo : Remain (x.todo.map Prod.fst) now

/-- What a call's own scan of the disk finds is what is listed, with its content. -/
theorem scan_default_of_scan {found : List Metadata}
    (h : s.scan d ⟨content, maxFileSize?, [], none⟩ root = .ok found) :
    s.scan d .default root = .ok (found.map Metadata.bare) := by
  have hbare := scan_bare s d ⟨content, maxFileSize?, [], none⟩ root
  rw [h] at hbare
  exact hbare

theorem listing_of_scan {found : List Metadata}
    (h : s.scan d ⟨content, maxFileSize?, [], none⟩ root = .ok found) :
    listing s d root = found.map Metadata.bare := by
  rw [listing, scan_default_of_scan h]
  rfl

/-- What is done to the registry once it is known what was found. -/
def Pass.sync (p : Pass) : Work Synced := do
  let created ← p.differences.added.mapM (register p.projectId p.byPath)
  let refreshed ← p.differences.modified.mapM (refresh p.rowsByPath p.byPath)
  p.differences.deleted.forM (removePath p.rowsByPath)
  return ⟨p.found, p.differences, created, refreshed⟩

/-- The first stage reads the registry and the disk, and then it is a pass over what it has found. -/
theorem syncProject_ends_of {Q : Synced → Tables → Prop} {E : Tables → Prop} (hstart : E t)
    (h : ∀ found, s.scan d ⟨content, maxFileSize?, [], none⟩ root = .ok found →
      (Pass.sync ⟨t, projectId, found⟩).Ends t Q E) :
    (syncProject s d projectId root content maxFileSize?).Ends t Q E := by
  unfold syncProject
  refine (Ends.expect (Q := fun found now => now = t ∧
    s.scan d ⟨content, maxFileSize?, [], none⟩ root = .ok found) (fun found h => ⟨rfl, ?_⟩) hstart).bind ?_
  · cases hscan : s.scan d ⟨content, maxFileSize?, [], none⟩ root with
    | error e =>
      rw [hscan] at h
      cases h
    | ok found' =>
      rw [hscan] at h
      cases h
      rfl
  rintro found now ⟨rfl, hscan⟩
  let p : Pass := ⟨now, projectId, found⟩
  refine (Ends.query (Q := fun rows mid => mid = now ∧ rows = p.rows) (fun rows h => ⟨rfl, ?_⟩)
    hstart).bind ?_
  · cases h
    rfl
  rintro _ now ⟨rfl, rfl⟩
  refine (Ends.expect (Q := fun changes mid => mid = now ∧ changes = p.differences)
    (fun changes h => ⟨rfl, ?_⟩) hstart).bind ?_
  · rw [show s.changes d root (Keyed.ofList (p.rows.map fun r => (r.path, r.modified))) =
      (s.scan d .default root).map (ChangeSet.between p.snapshot) from rfl,
      scan_default_of_scan hscan] at h
    cases h
    rfl
  rintro _ now ⟨rfl, rfl⟩
  exact h found hscan

theorem syncProject_ends (ht : t.Owned) :
    (syncProject s d projectId root content maxFileSize?).Ends t
      (fun x now => x.Ready t (listing s d root) now) (Prepares t (listing s d root)) := by
  refine syncProject_ends_of (.start ht _) fun found hscan => ?_
  rw [listing_of_scan hscan]
  unfold Pass.sync
  refine (Pass.registerAll_ends ht).bind ?_
  rintro created t₁ ⟨h₁, hold, hcreated₁⟩
  refine (Pass.refreshAll_ends h₁ hcreated₁ fun r hr => ⟨r, hold r hr, rfl⟩).bind ?_
  rintro refreshed t₂ ⟨h₂, hcreated₂, hremain₂, hpresent⟩
  refine (Pass.removeAll_ends ht h₂ hcreated₂ hremain₂).bind ?_
  rintro _ t₃ ⟨h₃, hcreated₃, hremain₃⟩
  refine Ends.pure ⟨h₃, hcreated₃, ?_⟩
  rw [Synced.todo, List.map_append]
  intro r hr
  rcases List.mem_append.mp hr with hr | hr
  · obtain ⟨x, hx, rfl⟩ := List.mem_map.mp hr
    exact hcreated₃.rows x hx
  · obtain ⟨x, hx, rfl⟩ := List.mem_map.mp hr
    exact hremain₃ x.1 (hpresent x hx)

theorem Advances.index (h : Advances t listed now) {l : List (FileRecord × Metadata)}
    (hindexes : Indexes now l after) : Advances t listed after where
  owned := hindexes.owned
  rows := hindexes.files ▸ h.rows

/-- However a call ends, the rows that it leaves own what is stored. -/
theorem scanProject_ends (ht : t.Owned) :
    (scanProject s d projectId root content maxFileSize?).Ends t
      (fun _ => Advances t (listing s d root)) (Advances t (listing s d root)) := by
  rw [scanProject_eq]
  refine ((syncProject_ends ht).mono (fun _ _ h => h) fun _ h => h.toAdvances).bind fun x now hx => ?_
  have hindex := (reindexAll_ends d hx.owned hx.rows_todo).mono
    (fun _ _ h => hx.toAdvances.index h) (fun _ h => hx.toAdvances.index h)
  exact hindex.bind fun _ after hafter => Ends.pure hafter

/-- A new row owns nothing until all that are indexed before it have had their turn. -/
theorem Synced.Ready.unowned {x : Synced} (h : x.Ready t listed now)
    {front rest : List (FileRecord × Metadata)} {y : FileRecord × Metadata}
    (hy : x.created = front ++ y :: rest) (d : Disk) :
    let Q := fun after => (∃ r ∈ after.files, r.id = y.1.id) ∧ after.recordsOf y.1.fileId = .none
    (reindexAll d front).Ends now (fun _ => Q) Q := by
  intro Q
  have hmem : y ∈ x.created := by rw [hy]; simp
  obtain ⟨r, hr, hid⟩ := h.created.rows y hmem
  have hfresh : now.recordsOf y.1.fileId = .none := by
    rw [← FileRecord.fileId_eq hid]
    refine h.fresh r hr fun r₀ hr₀ => ?_
    have := h.created.larger y hmem r₀ hr₀
    omega
  have hother : ∀ z ∈ front, z.1.fileId ≠ y.1.fileId := by
    intro z hz he
    have hdistinct := h.created.distinct
    rw [hy, List.map_append, List.map_cons] at hdistinct
    exact (List.nodup_append.mp hdistinct).2.2 _ (List.mem_map_of_mem hz) _ List.mem_cons_self
      (FileRecord.fileId_injective he)
  have hrows : Remain (front.map Prod.fst) now := by
    refine fun r' hr' => h.rows_todo r' ?_
    rw [Synced.todo, hy, List.map_append, List.map_append]
    exact List.mem_append_left _ (List.mem_append_left _ hr')
  have hkept : ∀ after, Indexes now front after → Q after := fun after hafter =>
    ⟨hafter.files ▸ ⟨r, hr, hid⟩, (hafter.others _ hother).trans hfresh⟩
  exact (reindexAll_ends d h.owned hrows).mono (fun _ => hkept) hkept

end CodeAtlas.Project
