import CodeAtlas.Proofs.Project.Completion

/-! # What becomes of each row

After a pass every row of the registry is an old one that nothing was found to be newer than, an old
one that was refreshed, or a new one. Each comes with what is stored under it, and all of them together
are sound again. -/

namespace CodeAtlas.Project

open CodeAtlas.Disk CodeAtlas.Outline CodeAtlas.Scan CodeAtlas.Store

namespace Pass

variable {p : Pass} {d : Disk} {after : Tables} {r r' : FileRecord} {m : Metadata}

/-- Whether a pass leaves a row as it is. -/
structure Keeps (p : Pass) (r : FileRecord) : Prop where
  row : r ∈ p.tables.files
  found : r.projectId = p.projectId → ∃ m ∈ p.found, m.key = r.key
  current : r.projectId = p.projectId → ∀ m ∈ p.modified, m.key ≠ r.key

theorem drops_eq_false : p.drops r = false ↔
    (r.projectId = p.projectId → ∃ m ∈ p.found, m.key = r.key) := by
  rw [Bool.eq_false_iff, ne_eq, drops_iff]
  constructor
  · intro h hp
    by_cases he : ∃ m ∈ p.found, m.key = r.key
    · exact he
    · exact absurd ⟨hp, fun m hm hk => he ⟨m, hm, hk⟩⟩ h
  · rintro h ⟨hp, hne⟩
    obtain ⟨m, hm, hk⟩ := h hp
    exact hne m hm hk

/-- A row of something that was found is kept, unless this is a file and newer. -/
theorem keeps_of_current (h : p.Ready) (hr : r ∈ p.tables.files) (hp : r.projectId = p.projectId)
    (hm : m ∈ p.found) (hk : r.key = m.key)
    (hcurrent : m.isFile = true → m.modified.isAfter r.modified = false) : p.Keeps r where
  row := hr
  found _ := ⟨m, hm, hk.symm⟩
  current _ m' hm' hk' := by
    obtain ⟨hfound, hfile, r', hr', hp', hkey', hafter⟩ := (mem_modified h.sound.rows).mp hm'
    obtain rfl := eq_of_key_eq h.distinct hfound hm (hk'.trans hk)
    obtain rfl := h.sound.rows.eq_of_key_eq hr' hr (hp'.trans hp.symm) (hkey'.trans hk.symm)
    rw [hcurrent hfile] at hafter
    cases hafter

namespace Done

/-! ## Records -/

theorem records_touched (hd : p.Done d after) (h : p.Ready) {x : FileRecord × Metadata}
    (hx : x ∈ p.touched) : after.recordsOf x.1.fileId =
      if indexes d x.2 then recordsFor d x.2 else p.tables.recordsOf x.1.fileId := by
  split
  · next hi => exact hd.indexed x hx hi
  · next hi =>
    refine hd.others _ (fun y hy he => ?_) fun r hr he => fileId_ne_of_touched h hx hr he.symm
    rw [eq_of_key_eq (nodup_touched h) hy hx (FileRecord.fileId_injective he)]
    simpa using hi

theorem records_kept (hd : p.Done d after) (h : p.Ready) (hk : p.Keeps r) :
    after.recordsOf r.fileId = p.tables.recordsOf r.fileId := by
  refine hd.others _ (fun x hx he => ?_) fun r' hr' he => ?_
  · exfalso
    rcases List.mem_append.mp hx with hx | hx
    · exact (registers_of_created hx).fileId_ne hk.row he.symm
    · obtain ⟨hm, hold, hp, hkey⟩ := (mem_renewed h.sound.rows).mp hx
      obtain rfl := h.sound.rows.eq_of_fileId_eq hold hk.row he
      exact hk.current hp x.2 hm hkey.symm
  · obtain ⟨hrow, hdrops⟩ := mem_gone.mp hr'
    obtain rfl := h.sound.rows.eq_of_fileId_eq hrow hk.row he
    rw [drops_eq_false.mpr hk.found] at hdrops
    cases hdrops

theorem records_created (hd : p.Done d after) (h : p.Ready) {x : FileRecord × Metadata}
    (hx : x ∈ p.created) : after.recordsOf x.1.fileId =
      if indexes d x.2 then recordsFor d x.2 else .none := by
  rw [hd.records_touched h (List.mem_append_left _ hx)]
  -- nothing is stored yet under the number of a new row
  have hnone : p.tables.recordsOf x.1.fileId = .none := by
    by_cases hne : p.tables.recordsOf x.1.fileId = .none
    · exact hne
    · obtain ⟨r, hr, he⟩ := h.sound.owned _ hne
      exact absurd he ((registers_of_created hx).fileId_ne hr)
  rw [hnone]

/-! ## Rows -/

theorem mem_of_keeps (hd : p.Done d after) (hk : p.Keeps r) : r ∈ after.files := by
  rw [hd.files]
  refine List.mem_append_left _ (List.mem_map.mpr ⟨r, ?_, renewedBy_of_ne hk.current⟩)
  exact List.mem_filter.mpr ⟨hk.row, by rw [drops_eq_false.mpr hk.found]; rfl⟩

theorem mem_of_renewed (hd : p.Done d after) (h : p.Ready) (hx : (r, m) ∈ p.renewed) :
    r.refreshed m ∈ after.files := by
  obtain ⟨hm, hr, hp, hk⟩ := (mem_renewed h.sound.rows).mp hx
  have hfound := ((mem_modified h.sound.rows).mp hm).1
  rw [hd.files]
  refine List.mem_append_left _ (List.mem_map.mpr ⟨r, ?_, ?_⟩)
  · exact List.mem_filter.mpr ⟨hr, by rw [drops_eq_false.mpr fun _ => ⟨m, hfound, hk.symm⟩]; rfl⟩
  · exact renewedBy_of_mem (nodup_keys_modified h) hm hp hk

theorem mem_of_created (hd : p.Done d after) {x : FileRecord × Metadata} (hx : x ∈ p.created) :
    x.1 ∈ after.files := by
  rw [hd.files]
  exact List.mem_append_right _ (List.mem_map_of_mem hx)

/-- Every row after a pass was kept, refreshed or made by it. -/
theorem row_cases (hd : p.Done d after) (h : p.Ready) (hr : r' ∈ after.files) :
    p.Keeps r' ∨ (∃ r m, (r, m) ∈ p.renewed ∧ r' = r.refreshed m) ∨ ∃ m, (r', m) ∈ p.created := by
  rw [hd.files] at hr
  rcases List.mem_append.mp hr with hr | hr
  · obtain ⟨r, hold, rfl⟩ := List.mem_map.mp hr
    obtain ⟨hrow, hdrops⟩ := List.mem_filter.mp hold
    have hfound := drops_eq_false.mp (by simpa using hdrops)
    by_cases hm : r.projectId = p.projectId ∧ ∃ m ∈ p.modified, m.key = r.key
    · obtain ⟨hp, m, hm, hk⟩ := hm
      refine Or.inr (Or.inl ⟨r, m, (mem_renewed h.sound.rows).mpr ⟨hm, hrow, hp, hk.symm⟩, ?_⟩)
      exact renewedBy_of_mem (nodup_keys_modified h) hm hp hk.symm
    · have hcurrent : r.projectId = p.projectId → ∀ m ∈ p.modified, m.key ≠ r.key :=
        fun hp m hmem hk => hm ⟨hp, m, hmem, hk⟩
      rw [renewedBy_of_ne hcurrent]
      exact Or.inl ⟨hrow, hfound, hcurrent⟩
  · obtain ⟨x, hx, rfl⟩ := List.mem_map.mp hr
    exact Or.inr (Or.inr ⟨x.2, hx⟩)

/-- Every row of the project is of something that was found; a row of something that is no file now
was kept. -/
theorem exists_found (hd : p.Done d after) (h : p.Ready) (hr : r ∈ after.files)
    (hp : r.projectId = p.projectId) :
    ∃ m ∈ p.found, m.key = r.key ∧ (m.isFile = true ∨ p.Keeps r) := by
  rcases hd.row_cases h hr with hkeep | ⟨r₀, m, hx, rfl⟩ | ⟨m, hx⟩
  · obtain ⟨m, hm, hk⟩ := hkeep.found hp
    exact ⟨m, hm, hk, Or.inr hkeep⟩
  · obtain ⟨hm, _, _, hk⟩ := (mem_renewed h.sound.rows).mp hx
    obtain ⟨hfound, hfile, _⟩ := (mem_modified h.sound.rows).mp hm
    exact ⟨m, hfound, hk.symm, Or.inl hfile⟩
  · have hnew := registers_of_created hx
    exact ⟨m, hnew.found.1, hnew.key.symm, Or.inl hnew.found.2⟩

/-- What a pass touches has a row afterwards, under the number of the row that was touched. -/
theorem exists_row_of_touched (hd : p.Done d after) (h : p.Ready) {x : FileRecord × Metadata}
    (hx : x ∈ p.touched) : ∃ r ∈ after.files,
      r.projectId = p.projectId ∧ r.key = x.2.key ∧ r.fileId = x.1.fileId := by
  rcases List.mem_append.mp hx with hx | hx
  · have hnew := registers_of_created hx
    exact ⟨x.1, hd.mem_of_created hx, hnew.projectId, hnew.key, rfl⟩
  · obtain ⟨_, _, hp, hk⟩ := (mem_renewed h.sound.rows).mp hx
    exact ⟨x.1.refreshed x.2, hd.mem_of_renewed h hx, hp, hk, rfl⟩

/-- A row of something that was found stays under its path. -/
theorem exists_row_of_found (hd : p.Done d after) (h : p.Ready) (hr : r ∈ p.tables.files)
    (hp : r.projectId = p.projectId) (hm : m ∈ p.found) (hk : r.key = m.key) :
    ∃ r' ∈ after.files, r'.projectId = p.projectId ∧ r'.path = r.path := by
  by_cases hmodified : m ∈ p.modified
  · have hx := (mem_renewed h.sound.rows).mpr ⟨hmodified, hr, hp, hk⟩
    exact ⟨r.refreshed m, hd.mem_of_renewed h hx, hp, rfl⟩
  · refine ⟨r, hd.mem_of_keeps (keeps_of_current h hr hp hm hk fun hf => ?_), hp, rfl⟩
    exact Bool.eq_false_iff.mpr fun hnewer =>
      hmodified ((mem_modified h.sound.rows).mpr ⟨hm, hf, r, hr, hp, hk, hnewer⟩)

/-- The files that a scan lists all have rows afterwards. -/
theorem exists_row (hd : p.Done d after) (h : p.Ready) (hm : m ∈ p.found)
    (hf : m.isFile = true) : ∃ r ∈ after.files, r.projectId = p.projectId ∧ r.key = m.key := by
  cases hrow : p.rowOf? m with
  | none =>
    have hadded : m ∈ p.added :=
      mem_added.mpr ⟨hm, hf, fun r hr hp => Tables.rowAt?_eq_none.mp hrow r hr hp⟩
    obtain ⟨x, hx, rfl⟩ := exists_created hadded
    have hnew := registers_of_created hx
    exact ⟨x.1, hd.mem_of_created hx, hnew.projectId, hnew.key⟩
  | some r =>
    obtain ⟨hr, hp, hk⟩ := (rowOf?_eq_some h.sound.rows).mp hrow
    obtain ⟨r', hr', hp', hpath⟩ := hd.exists_row_of_found h hr hp hm hk
    exact ⟨r', hr', hp', (congrArg Path.normalize hpath).trans hk⟩

/-- No file that was listed is newer than its row. -/
theorem current (hd : p.Done d after) (h : p.Ready) (hr : r ∈ after.files)
    (hp : r.projectId = p.projectId) (hm : m ∈ p.found) (hf : m.isFile = true)
    (hk : r.key = m.key) : m.modified.isAfter r.modified = false := by
  have hsame {r : FileRecord} (ht : r.modified = ⟨m.modified.wall, none⟩) :
      m.modified.isAfter r.modified = false := by
    have hi := (h.fits m hm hf).instant
    have hr : r.modified.instant = m.modified.wall := by
      rw [ht]
      exact Int.sub_zero _
    simp [Time.Moment.isAfter, hi, hr]
  rcases hd.row_cases h hr with hkeep | ⟨r₀, m', hx, rfl⟩ | ⟨m', hx⟩
  · refine Bool.eq_false_iff.mpr fun hnewer => ?_
    have hmod := (mem_modified h.sound.rows).mpr ⟨hm, hf, r, hkeep.row, hp, hk, hnewer⟩
    exact hkeep.current hp m hmod hk.symm
  · obtain ⟨hm', _, _, hk'⟩ := (mem_renewed h.sound.rows).mp hx
    have hfound := ((mem_modified h.sound.rows).mp hm').1
    obtain rfl := eq_of_key_eq h.distinct hfound hm (hk'.symm.trans hk)
    exact hsame rfl
  · have hnew := registers_of_created hx
    obtain rfl := eq_of_key_eq h.distinct hnew.found.1 hm (hnew.key.symm.trans hk)
    exact hsame hnew.modified

theorem renewedBy_projectId (p : Pass) (ms : List Metadata) (r : FileRecord) :
    (p.renewedBy ms r).projectId = r.projectId := congrArg Prod.fst (renewedBy_place p ms r)

/-- The rows of a project after a pass: those of another one stay as they are. -/
theorem rowsOf_eq (hd : p.Done d after) (projectId : String) :
    after.rowsOf projectId =
      if projectId = p.projectId then
        ((p.tables.rowsOf projectId).filter fun r => !p.drops r).map (p.renewedBy p.modified) ++
          p.created.map Prod.fst
      else p.tables.rowsOf projectId := by
  have hold : ((p.tables.files.filter fun r => !p.drops r).map (p.renewedBy p.modified)).filter
      (·.projectId == projectId) =
      ((p.tables.rowsOf projectId).filter fun r => !p.drops r).map (p.renewedBy p.modified) := by
    rw [List.filter_map, Tables.rowsOf, List.filter_filter, List.filter_filter]
    congr 1
    refine List.filter_congr fun r _ => ?_
    simp only [Function.comp_apply, renewedBy_projectId, Bool.and_comm]
  rw [Tables.rowsOf, hd.files, List.filter_append, hold]
  split
  · next he =>
    congr 1
    refine List.filter_eq_self.mpr fun r hr => ?_
    obtain ⟨x, hx, rfl⟩ := List.mem_map.mp hr
    simp [(registers_of_created hx).projectId, he]
  · next hne =>
    have hnew : (p.created.map Prod.fst).filter (·.projectId == projectId) = [] := by
      refine List.filter_eq_nil_iff.mpr fun r hr => ?_
      obtain ⟨x, hx, rfl⟩ := List.mem_map.mp hr
      simpa [(registers_of_created hx).projectId] using Ne.symm hne
    have hall : ((p.tables.rowsOf projectId).filter fun r => !p.drops r) =
        p.tables.rowsOf projectId := by
      refine List.filter_eq_self.mpr fun r hr => ?_
      have hp := (Tables.mem_rowsOf.mp hr).2
      rw [drops_eq_false.mpr fun he => absurd (hp.symm.trans he) hne]
      rfl
    have hsame : (p.tables.rowsOf projectId).map (p.renewedBy p.modified) =
        p.tables.rowsOf projectId := by
      conv => rhs; rw [← List.map_id (p.tables.rowsOf projectId)]
      refine List.map_congr_left fun r hr => ?_
      have hp := (Tables.mem_rowsOf.mp hr).2
      exact renewedBy_of_ne fun he => absurd (hp.symm.trans he) hne
    rw [hnew, hall, hsame, List.append_nil]

/-- A pass makes as many rows as there are new files and drops as many as there are paths that lead
to nothing. -/
theorem length_rowsOf (hd : p.Done d after) :
    (after.rowsOf p.projectId).length + p.gone.length =
      (p.tables.rowsOf p.projectId).length + p.added.length := by
  have hgone : p.gone = (p.tables.rowsOf p.projectId).filter p.drops := by
    rw [gone, Tables.rowsOf, List.filter_filter]
    refine List.filter_congr fun r _ => ?_
    cases hp : r.projectId == p.projectId <;> simp [drops, hp]
  have hsplit := List.length_eq_countP_add_countP p.drops (l := p.tables.rowsOf p.projectId)
  have hcreated : p.created.length = p.added.length := by simp [created, createdFor]
  rw [hd.rowsOf_eq, if_pos rfl, List.length_append, List.length_map, List.length_map, hcreated,
    hgone, ← List.countP_eq_length_filter, ← List.countP_eq_length_filter]
  simp only [Bool.not_eq_true, Bool.decide_eq_false] at hsplit
  omega

/-- No records are left without a row. -/
theorem sound (hd : p.Done d after) (h : p.Ready) : after.Sound where
  rows := hd.rows
  owned fileId hne := by
    by_cases ht : ∃ x ∈ p.touched, x.1.fileId = fileId
    · obtain ⟨x, hx, rfl⟩ := ht
      rcases List.mem_append.mp hx with hx | hx
      · exact ⟨x.1, hd.mem_of_created hx, rfl⟩
      · exact ⟨x.1.refreshed x.2, hd.mem_of_renewed h hx, rfl⟩
    · have hsame : (∀ r ∈ p.gone, r.fileId ≠ fileId) →
          after.recordsOf fileId = p.tables.recordsOf fileId :=
        hd.others fileId fun x hx he => absurd ⟨x, hx, he⟩ ht
      have hgone : ∀ r ∈ p.gone, r.fileId ≠ fileId :=
        fun r hr he => hne (he ▸ hd.dropped r hr)
      obtain ⟨r, hr, rfl⟩ := h.sound.owned fileId (hsame hgone ▸ hne)
      refine ⟨r, hd.mem_of_keeps ⟨hr, drops_eq_false.mp ?_, fun hp m hm hk => ?_⟩, rfl⟩
      · exact Bool.eq_false_iff.mpr fun hdrops => hgone r (mem_gone.mpr ⟨hr, hdrops⟩) rfl
      · have hx := (mem_renewed h.sound.rows).mpr ⟨hm, hr, hp, hk.symm⟩
        exact ht ⟨(r, m), List.mem_append_right _ hx, rfl⟩

end Done

end Pass

end CodeAtlas.Project
