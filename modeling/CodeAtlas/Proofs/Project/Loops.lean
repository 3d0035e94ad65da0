import CodeAtlas.Proofs.Outline.Places
import CodeAtlas.Proofs.Project.Pass

/-! # The loops of a pass

A pass registers what is new, refreshes what has become newer, drops what is gone and then indexes all
that it has touched. Each loop is followed entry by entry: what one round does to the row of its entry,
and that it does nothing else. -/

namespace CodeAtlas.Project

open CodeAtlas.Disk CodeAtlas.Outline CodeAtlas.Scan CodeAtlas.Store
open CodeAtlas.Store.Process (Yields)

namespace Pass

/-- What a scan found by the normal forms of the paths. -/
def byPath (p : Pass) : Keyed Metadata := Keyed.ofList (p.found.map fun m => (m.key, m))

/-- The rows of the project by the normal forms of their paths. -/
def rowsByPath (p : Pass) : Keyed FileRecord := Keyed.ofList (p.rows.map fun r => (r.key, r))

/-- What a pass can rely on: tables that only scans have made, and a scan whose entries are told
apart by the normal forms of their paths and fit into rows. -/
structure Ready (p : Pass) : Prop where
  sound : p.tables.Sound
  distinct : (p.found.map Metadata.key).Nodup
  fits : ∀ m ∈ p.found, m.isFile = true → FitsRow m

variable {p : Pass}

theorem withContent_bare (h : p.Ready) {m : Metadata} (hm : m ∈ p.found) :
    withContent p.byPath m.bare = m := by
  have hget : p.byPath.get? m.key = some m := by
    rw [byPath, Keyed.get?_ofList_map h.distinct, (find?_key_eq_some h.distinct).mpr ⟨hm, rfl⟩]
    rfl
  unfold withContent
  rw [show Path.normalize m.bare.path = m.key from rfl, hget]
  rfl

theorem get?_rowsByPath (h : p.Ready) (key : String) :
    p.rowsByPath.get? key = (p.tables.rowAt? p.projectId key).map (·.handedOut) := by
  have hmap : (p.rows.map fun r => (r.key, r)) =
      (p.tables.rowsOf p.projectId).map fun r => (r.key, r.handedOut) := by
    simp only [rows, List.map_map]
    rfl
  rw [rowsByPath, hmap, Keyed.get?_ofList_map (Tables.nodup_keys_rowsOf h.sound.rows p.projectId)]
  rfl

/-! ## New files -/

/-- The rows of new files, which are numbered on from the largest number in the registry. -/
def createdFor (p : Pass) (ms : List Metadata) : List (FileRecord × Metadata) :=
  (ms.zipIdx (Database.nextFileId p.tables)).map fun (m, id) =>
    (FileRecord.ofMetadata p.projectId id m, m)

def created (p : Pass) : List (FileRecord × Metadata) := p.createdFor p.added

theorem createdFor_append (p : Pass) (ms : List Metadata) (m : Metadata) :
    p.createdFor (ms ++ [m]) = p.createdFor ms ++
      [(FileRecord.ofMetadata p.projectId (Database.nextFileId p.tables + ms.length) m, m)] := by
  simp [createdFor, List.zipIdx_append]

theorem mem_createdFor {ms : List Metadata} {x : FileRecord × Metadata}
    (h : x ∈ p.createdFor ms) : x.2 ∈ ms ∧ ∃ id, Database.nextFileId p.tables ≤ id ∧
      x.1 = FileRecord.ofMetadata p.projectId id x.2 := by
  obtain ⟨⟨m, id⟩, hm, rfl⟩ := List.mem_map.mp h
  obtain ⟨hle, _, hget⟩ := List.mem_zipIdx hm
  exact ⟨hget ▸ List.getElem_mem _, id, hle, rfl⟩

theorem nodup_keys_added (h : p.Ready) : (p.added.map Metadata.key).Nodup :=
  h.distinct.sublist ((List.filter_sublist.trans List.filter_sublist).map _)

/-- A new file is registered behind all other rows. -/
theorem register_yields (h : p.Ready) {now : Tables} {m : Metadata} (hm : m ∈ p.added)
    (hnew : ∀ r ∈ now.files, r.projectId = p.projectId → r.key ≠ m.key) :
    let row := FileRecord.ofMetadata p.projectId (Database.nextFileId now) m
    (register p.projectId p.byPath m.bare).Yields now fun x after =>
      x = (row.handedOut, m) ∧ after = { now with files := now.files ++ [row] } := by
  obtain ⟨hfound, hfile, _⟩ := mem_added.mp hm
  have hpath : ∀ r ∈ now.files, r.projectId = p.projectId → r.path ≠ m.path :=
    fun r hr hp he => hnew r hr hp (congrArg Path.normalize he)
  intro row
  have hrow : (Process.step (·.registerFile p.projectId (.ofMetadata m)) : Work FileRecord).Yields
      now fun r after => r = row.handedOut ∧ after = { now with files := now.files ++ [row] } :=
    Yields.step (registerFile_on p.projectId (h.fits m hfound hfile) hpath) ⟨rfl, rfl⟩
  unfold register
  rw [withContent_bare h hfound]
  refine hrow.bind fun r after hr => ?_
  obtain ⟨rfl, rfl⟩ := hr
  exact Yields.pure ⟨rfl, rfl⟩

/-- Neither the rows that there were nor those that the first loop has made so far are of the file that
comes next. -/
theorem key_ne_of_next (h : p.Ready) {front rest : List Metadata} {m : Metadata}
    (hl : p.added = front ++ m :: rest) :
    ∀ r ∈ p.tables.files ++ (p.createdFor front).map Prod.fst,
      r.projectId = p.projectId → r.key ≠ m.key := by
  have hm : m ∈ p.added := by rw [hl]; simp
  intro r hr hp he
  rcases List.mem_append.mp hr with hr | hr
  · exact (mem_added.mp hm).2.2 r hr hp he
  · obtain ⟨x, hx, rfl⟩ := List.mem_map.mp hr
    obtain ⟨hx, _, _, hrow⟩ := mem_createdFor hx
    have hkeys := nodup_keys_added h
    rw [hl, List.map_append, List.map_cons] at hkeys
    have hne := (List.nodup_append.mp hkeys).2.2 x.2.key (List.mem_map_of_mem hx) m.key
      List.mem_cons_self
    rw [hrow] at he
    exact hne he

/-- The first loop appends the rows of all new files. -/
theorem registerAll_yields (h : p.Ready) :
    ((p.added.map Metadata.bare).mapM (register p.projectId p.byPath)).Yields p.tables
      fun xs after => xs = p.created.map (fun x => (x.1.handedOut, x.2)) ∧
        after = { p.tables with files := p.tables.files ++ p.created.map Prod.fst } ∧
        SoundRows after.files := by
  rw [List.mapM_map]
  refine (Yields.mapM
    (I := fun front xs now => (xs = (p.createdFor front).map fun x => (x.1.handedOut, x.2)) ∧
      now = { p.tables with files := p.tables.files ++ (p.createdFor front).map Prod.fst } ∧
      SoundRows now.files ∧
      Database.nextFileId now = Database.nextFileId p.tables + front.length)
    (fun front m rest xs now hl hi => ?_) ?_).mono fun xs after hxs => ⟨hxs.1, hxs.2.1, hxs.2.2.1⟩
  · obtain ⟨hxs, hnow, hrows, hnext⟩ := hi
    have hm : m ∈ p.added := by rw [hl]; simp
    have hnew : ∀ r ∈ now.files, r.projectId = p.projectId → r.key ≠ m.key := by
      rw [hnow]
      exact key_ne_of_next h hl
    refine (register_yields h hm hnew).mono fun x after hx => ?_
    obtain ⟨rfl, rfl⟩ := hx
    rw [hnext, createdFor_append, List.map_append, List.map_append, hxs]
    refine ⟨rfl, by rw [hnow, List.append_assoc]; rfl, hrows.append ?_ ?_ rfl, ?_⟩
    · intro r hr
      have hlt := lt_nextFileId now r hr
      rwa [hnext] at hlt
    · intro r hr he
      exact hnew r hr (congrArg Prod.fst he) (congrArg Prod.snd he)
    · rw [nextFileId_append hnext.symm, hnext, List.length_append]
      rfl
  · exact ⟨rfl, by simp [createdFor], by simpa [createdFor] using h.sound.rows, rfl⟩

/-! ## Newer files -/

/-- What a row becomes when the listed files are found to be newer. -/
def renewedBy (p : Pass) (ms : List Metadata) (r : FileRecord) : FileRecord :=
  match ms.find? fun m => r.projectId == p.projectId && m.key == r.key with
  | some m => r.refreshed m
  | none => r

@[simp] theorem renewedBy_id (p : Pass) (ms : List Metadata) (r : FileRecord) :
    (p.renewedBy ms r).id = r.id := by
  unfold renewedBy
  split <;> rfl

@[simp] theorem renewedBy_place (p : Pass) (ms : List Metadata) (r : FileRecord) :
    (p.renewedBy ms r).place = r.place := by
  unfold renewedBy
  split <;> rfl

theorem renewedBy_naive (p : Pass) (ms : List Metadata) {r : FileRecord}
    (h : r.modified.offset? = none) : (p.renewedBy ms r).modified.offset? = none := by
  unfold renewedBy
  split
  · rfl
  · exact h

/-- A row that is not compared with any of the files stays as it is. -/
theorem renewedBy_of_ne {ms : List Metadata} {r : FileRecord}
    (h : r.projectId = p.projectId → ∀ m ∈ ms, m.key ≠ r.key) : p.renewedBy ms r = r := by
  have hnone : (ms.find? fun m => r.projectId == p.projectId && m.key == r.key) = none := by
    simpa using fun m hm hp => h hp m hm
  rw [renewedBy, hnone]

/-- A row takes over what is found of its file. -/
theorem renewedBy_of_mem {ms : List Metadata} (hd : (ms.map Metadata.key).Nodup) {m : Metadata}
    (hm : m ∈ ms) {r : FileRecord} (hp : r.projectId = p.projectId) (hk : r.key = m.key) :
    p.renewedBy ms r = r.refreshed m := by
  have hsome : (ms.find? fun m => r.projectId == p.projectId && m.key == r.key) = some m := by
    simpa [hp] using (find?_key_eq_some hd).mpr ⟨hm, hk.symm⟩
  rw [renewedBy, hsome]

theorem nodup_keys_modified (h : p.Ready) : (p.modified.map Metadata.key).Nodup :=
  h.distinct.sublist ((List.filter_sublist.trans List.filter_sublist).map _)

/-- The rows of newer files with what is found of them. -/
def renewed (p : Pass) : List (FileRecord × Metadata) :=
  p.modified.filterMap fun m => (p.rowOf? m).map fun r => (r, m)

theorem mem_renewed (h : SoundRows p.tables.files) {r : FileRecord} {m : Metadata} :
    (r, m) ∈ p.renewed ↔
      m ∈ p.modified ∧ r ∈ p.tables.files ∧ r.projectId = p.projectId ∧ r.key = m.key := by
  simp only [renewed, List.mem_filterMap, Option.map_eq_some_iff, Prod.mk.injEq, ← rowOf?_eq_some h]
  constructor
  · rintro ⟨m', hm, r', hr, rfl, rfl⟩
    exact ⟨hm, hr⟩
  · rintro ⟨hm, hr⟩
    exact ⟨m, hm, r, hr, rfl, rfl⟩

/-- The row of a newer file is refreshed, and no other row is changed. -/
theorem refresh_yields (h : p.Ready) {now : Tables} {m : Metadata}
    (hm : m ∈ p.modified) {r r' : FileRecord} (hr : p.rowOf? m = some r) (hr' : r' ∈ now.files)
    (hid : r'.id = r.id) :
    (refresh p.rowsByPath p.byPath m.bare).Yields now fun x after =>
      x = some (r.handedOut, m) ∧ after = { now with
        files := now.files.map fun r' => if r'.id == r.id then r'.refreshed m else r' } := by
  obtain ⟨hfound, hfile, _⟩ := (mem_modified h.sound.rows).mp hm
  have hget : p.rowsByPath.get? (Path.normalize m.bare.path) = some r.handedOut := by
    rw [get?_rowsByPath h]
    exact congrArg (Option.map (·.handedOut)) hr
  have hupdate := updateFile_on hr' (h.fits m hfound hfile)
  rw [hid] at hupdate
  have hrow : (Process.update (·.updateFile (r.id : Int) (.ofMetadata m)) : Work Unit).Yields now
      fun _ after => after = { now with
        files := now.files.map fun r' => if r'.id == r.id then r'.refreshed m else r' } :=
    Yields.update hupdate rfl
  unfold refresh
  rw [hget, withContent_bare h hfound]
  refine hrow.bind fun _ after hafter => ?_
  subst hafter
  exact Yields.pure ⟨rfl, rfl⟩

theorem renewedBy_append {rows : List FileRecord} (hrows : SoundRows rows)
    {front : List Metadata} {m : Metadata} (hd : ((front ++ [m]).map Metadata.key).Nodup)
    {r r' : FileRecord} (hr : r ∈ rows) (hp : r.projectId = p.projectId) (hk : r.key = m.key)
    (hr' : r' ∈ rows) :
    (if r'.id == r.id then (p.renewedBy front r').refreshed m else p.renewedBy front r') =
      p.renewedBy (front ++ [m]) r' := by
  have hfront : ∀ m' ∈ front, m'.key ≠ m.key := by
    intro m' hm' he
    rw [List.map_append] at hd
    exact (List.nodup_append.mp hd).2.2 _ (List.mem_map_of_mem hm') _ List.mem_cons_self he
  by_cases hid : r'.id = r.id
  · obtain rfl := hrows.eq_of_id_eq hr' hr hid
    rw [if_pos (by simp), renewedBy_of_mem hd (by simp) hp hk,
      renewedBy_of_ne fun _ m' hm' he => hfront m' hm' (he.trans hk)]
  · rw [if_neg (by simpa using hid)]
    -- the file of another row is found among the files that came before, or not at all
    have hother : (r'.projectId == p.projectId && m.key == r'.key) = false := by
      refine Bool.eq_false_iff.mpr fun hc => hid ?_
      have hc : r'.projectId = p.projectId ∧ m.key = r'.key := by simpa using hc
      have he := hrows.eq_of_key_eq hr' hr (hc.1.trans hp.symm) (hc.2.symm.trans hk.symm)
      exact congrArg FileRecord.id he
    unfold renewedBy
    rw [List.find?_append, List.find?_cons_of_neg (by simpa using hother), List.find?_nil,
      Option.or_none]

/-- The second loop refreshes the rows of all newer files. -/
theorem refreshAll_yields (h : p.Ready) {now : Tables} (hnow : SoundRows now.files)
    (hold : ∀ r ∈ p.tables.files, r ∈ now.files) :
    ((p.modified.map Metadata.bare).mapM (refresh p.rowsByPath p.byPath)).Yields now
      fun xs after => xs.filterMap id = p.renewed.map (fun x => (x.1.handedOut, x.2)) ∧
        after = { now with files := now.files.map (p.renewedBy p.modified) } := by
  rw [List.mapM_map]
  refine (Yields.mapM
    (I := fun front xs mid =>
      xs = front.map (fun m => (p.rowOf? m).map fun r => (r.handedOut, m)) ∧
      mid = { now with files := now.files.map (p.renewedBy front) })
    (fun front m rest xs mid hl hi => ?_) ?_).mono fun xs after hxs => ⟨?_, hxs.2⟩
  · obtain ⟨rfl, rfl⟩ := hi
    have hm : m ∈ p.modified := by rw [hl]; simp
    obtain ⟨_, _, r, hr, hp, hk, _⟩ := (mem_modified h.sound.rows).mp hm
    have hrow : p.rowOf? m = some r := (rowOf?_eq_some h.sound.rows).mpr ⟨hr, hp, hk⟩
    have hd : ((front ++ [m]).map Metadata.key).Nodup := by
      have hkeys := nodup_keys_modified h
      rw [hl] at hkeys
      exact hkeys.sublist (List.Sublist.map _ (by simp))
    refine (refresh_yields h hm hrow (List.mem_map_of_mem (hold r hr))
      (renewedBy_id p front r)).mono fun x after hx => ?_
    obtain ⟨rfl, rfl⟩ := hx
    refine ⟨by simp [hrow], ?_⟩
    rw [List.map_map]
    congr 1
    refine List.map_congr_left fun r' hr' => ?_
    simpa using renewedBy_append hnow hd (hold r hr) hp hk hr'
  · refine ⟨rfl, ?_⟩
    have hsame : now.files.map (p.renewedBy []) = now.files := by
      conv => rhs; rw [← List.map_id now.files]
      exact List.map_congr_left fun r _ => rfl
    rw [hsame]
  · rw [hxs.1, renewed, List.map_filterMap, List.filterMap_map]
    congr 1
    funext m
    simp [Function.comp_def]

/-! ## Paths that lead to nothing -/

theorem mem_gone {r : FileRecord} : r ∈ p.gone ↔ r ∈ p.tables.files ∧ p.drops r = true :=
  List.mem_filter

/-- A row that is gone takes its records with it. -/
theorem removePath_yields (h : p.Ready) {now : Tables}
    {r r' : FileRecord} (hr : r ∈ p.gone) (hr' : r' ∈ now.files) (hid : r'.id = r.id) :
    (removePath p.rowsByPath r.path).Yields now fun _ after =>
      after.files = now.files.filter (·.id != r.id) ∧
      ∀ fileId, after.recordsOf fileId =
        if fileId = r.fileId then .none else now.recordsOf fileId := by
  obtain ⟨hrow, hdrops⟩ := mem_gone.mp hr
  have hget : p.rowsByPath.get? (Path.normalize r.path) = some r.handedOut := by
    rw [get?_rowsByPath h]
    have hat := (Tables.rowAt?_eq_some h.sound.rows).mpr ⟨hrow, (drops_iff.mp hdrops).1, rfl⟩
    exact congrArg (Option.map (·.handedOut)) hat
  unfold removePath removeFile
  rw [hget]
  refine (deleteRecords_yields now r.fileId).bind fun _ mid hmid => ?_
  have hdelete := deleteFile_of_mem (t := mid) (hmid.files ▸ hr')
  rw [hid] at hdelete
  refine Yields.update hdelete ⟨by rw [hmid.files], fun fileId => ?_⟩
  split
  · next he =>
    rw [he]
    exact hmid.own
  · next hne => exact hmid.others fileId hne

/-- The third loop drops all rows whose paths lead to nothing. -/
theorem removeAll_yields (h : p.Ready) {now : Tables}
    (hold : ∀ r ∈ p.tables.files, ∃ r' ∈ now.files, r'.id = r.id) :
    ((p.gone.map (·.path)).forM (removePath p.rowsByPath)).Yields now fun _ after =>
      after.files = now.files.filter (fun r => !(p.gone.map (·.id)).contains r.id) ∧
      ∀ fileId, after.recordsOf fileId =
        if fileId ∈ p.gone.map (·.fileId) then .none else now.recordsOf fileId := by
  have hmap : (p.gone.map (·.path)).forM (removePath p.rowsByPath) =
      p.gone.forM fun r => removePath p.rowsByPath r.path := List.forM_map
  rw [hmap]
  refine Yields.forM
    (I := fun (front : List FileRecord) mid =>
      mid.files = now.files.filter (fun r => !(front.map (·.id)).contains r.id) ∧
      ∀ fileId, mid.recordsOf fileId =
        if fileId ∈ front.map (·.fileId) then .none else now.recordsOf fileId)
    (fun front r rest mid hl hi => ?_) ⟨?_, by simp⟩
  · obtain ⟨hfiles, hrecords⟩ := hi
    have hr : r ∈ p.gone := by rw [hl]; simp
    obtain ⟨r', hr', hid⟩ := hold r (mem_gone.mp hr).1
    have hfresh : r.id ∉ front.map (·.id) := by
      have hids : (p.gone.map (·.id)).Nodup :=
        (h.sound.rows.filter p.drops).ascending.imp fun hlt => Nat.ne_of_lt hlt
      rw [hl, List.map_append, List.map_cons] at hids
      exact fun hmem => (List.nodup_append.mp hids).2.2 _ hmem _ List.mem_cons_self rfl
    have hstill : r' ∈ mid.files := by
      rw [hfiles]
      exact List.mem_filter.mpr ⟨hr', by simpa [hid] using hfresh⟩
    refine (removePath_yields h hr hstill hid).mono fun _ after hafter => ?_
    obtain ⟨hafter, hrest⟩ := hafter
    refine ⟨?_, fun fileId => ?_⟩
    · rw [hafter, hfiles, List.filter_filter]
      refine List.filter_congr fun x _ => ?_
      by_cases he : x.id = r.id <;> simp [he]
    · rw [hrest, hrecords, List.map_append, List.map_singleton]
      by_cases he : fileId = r.fileId <;> simp [he]
  · exact (List.filter_eq_self.mpr (by simp)).symm

end Pass

end CodeAtlas.Project
