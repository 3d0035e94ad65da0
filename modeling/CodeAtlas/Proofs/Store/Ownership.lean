import CodeAtlas.Proofs.Store.Rows

/-! # Who owns what is stored

Records belong to a row by its number alone, so they are in order as long as rows have numbers of their own
and nothing is stored under a number that no row has. That much does not depend on what the rows say: it
is kept by every step of the work on a project, on any disk, and also where a step fails. -/

namespace CodeAtlas.Store

open CodeAtlas.Outline CodeAtlas.Scan
open CodeAtlas.Store.Process (on Ends Yields)

/-- Rows have numbers of their own, and whatever is stored belongs to one of them. -/
structure Tables.Owned (t : Tables) : Prop where
  distinct : (t.files.map (·.id)).Nodup
  owner : ∀ fileId, t.recordsOf fileId ≠ .none → ∃ r ∈ t.files, r.fileId = fileId

theorem owned_empty : Tables.empty.Owned := ⟨List.nodup_nil, fun _ h => absurd rfl h⟩

/-- A row whose size, content and time may have changed, but nothing else. -/
def FileRecord.Becomes (r after : FileRecord) : Prop :=
  ∃ size content? modified, after = { r with size, content?, modified }

namespace FileRecord.Becomes

variable {r r' r'' : FileRecord}

theorem refl (r : FileRecord) : r.Becomes r := ⟨_, _, _, rfl⟩

theorem symm (h : r.Becomes r') : r'.Becomes r := by
  obtain ⟨_, _, _, rfl⟩ := h
  exact ⟨_, _, _, rfl⟩

theorem trans (h : r.Becomes r') (h' : r'.Becomes r'') : r.Becomes r'' := by
  obtain ⟨_, _, _, rfl⟩ := h
  obtain ⟨_, _, _, rfl⟩ := h'
  exact ⟨_, _, _, rfl⟩

theorem id (h : r.Becomes r') : r'.id = r.id := by
  obtain ⟨_, _, _, rfl⟩ := h
  rfl

theorem place (h : r.Becomes r') : r'.projectId = r.projectId ∧ r'.path = r.path := by
  obtain ⟨_, _, _, rfl⟩ := h
  exact ⟨rfl, rfl⟩

theorem kind (h : r.Becomes r') : r'.kind = r.kind := by
  obtain ⟨_, _, _, rfl⟩ := h
  rfl

end FileRecord.Becomes

theorem FileRecord.becomes_written (r : FileRecord) (d : FileDraft) : r.Becomes (r.written d) := by
  unfold written
  split
  · exact ⟨_, _, _, rfl⟩
  · exact .refl r

theorem FileRecord.becomes_stored_written (r : FileRecord) (d : FileDraft) :
    r.Becomes (r.handedOut.written d).stored := by
  obtain ⟨size, content?, modified, hwritten⟩ := r.handedOut.becomes_written d
  rw [hwritten]
  exact ⟨_, _, _, rfl⟩

theorem FileRecord.fileId_eq {r r' : FileRecord} (h : r.id = r'.id) : r.fileId = r'.fileId :=
  congrArg toString h

namespace Tables

variable {t now after : Tables} {fileId : String} {r : FileRecord}

/-- What the rows of the three tables of records say of their files. -/
def owners (t : Tables) : List String :=
  t.entities.map (·.fileId) ++ t.imports.map (·.fileId) ++ t.exports.map (·.fileId)

theorem recordsOf_ne_none_of_owners (h : fileId ∈ t.owners) : t.recordsOf fileId ≠ .none := by
  simp only [owners, List.mem_append, List.mem_map] at h
  obtain (⟨row, hrow, rfl⟩ | ⟨row, hrow, rfl⟩) | ⟨row, hrow, rfl⟩ := h
  · exact recordsOf_ne_none_of_entity hrow
  · exact recordsOf_ne_none_of_import hrow
  · exact recordsOf_ne_none_of_export hrow

namespace Owned

/-- Nothing is stored under a number that no row has. -/
theorem recordsOf_eq_none (h : t.Owned) (hno : ∀ r' ∈ t.files, r'.id ≠ r.id) :
    t.recordsOf r.fileId = .none := by
  refine Decidable.byContradiction fun hne => ?_
  obtain ⟨r', hr', he⟩ := h.owner r.fileId hne
  exact hno r' hr' (FileRecord.fileId_injective he)

theorem eq_of_id_eq (h : t.Owned) {r' : FileRecord} (hr : r ∈ t.files) (hr' : r' ∈ t.files)
    (he : r.id = r'.id) : r = r' := eq_of_key_eq h.distinct hr hr' he

end Owned

/-! ## Steps that leave the rows alone -/

/-- The records of a file that has a row may change as they like. -/
theorem Touches.owned (h : t.Touches r.fileId after) (ht : t.Owned) (hr : ∃ r' ∈ t.files, r'.id = r.id) :
    after.Owned where
  distinct := h.files ▸ ht.distinct
  owner fileId hne := by
    rw [h.files]
    by_cases he : fileId = r.fileId
    · obtain ⟨r', hr', hid⟩ := hr
      exact ⟨r', hr', (FileRecord.fileId_eq hid).trans he.symm⟩
    · exact ht.owner fileId (h.others fileId he ▸ hne)

/-! ## Steps that change rows -/

/-- A row is dropped with all its records. -/
structure Drops (t : Tables) (r : FileRecord) (after : Tables) : Prop where
  files : after.files = t.files.filter (·.id != r.id)
  own : after.recordsOf r.fileId = .none
  others : ∀ other, other ≠ r.fileId → after.recordsOf other = t.recordsOf other

theorem Drops.recordsOf_eq_none (h : t.Drops r after) (hnone : t.recordsOf fileId = .none) :
    after.recordsOf fileId = .none := by
  by_cases he : fileId = r.fileId
  · rw [he, h.own]
  · rw [h.others fileId he, hnone]

theorem Drops.mem_files (h : t.Drops r after) {r' : FileRecord} (hr' : r' ∈ t.files)
    (hid : r'.id ≠ r.id) : r' ∈ after.files :=
  h.files ▸ List.mem_filter.mpr ⟨hr', by simpa using hid⟩

theorem Drops.owned (h : t.Drops r after) (ht : t.Owned) : after.Owned where
  distinct := h.files ▸ ht.distinct.sublist (List.filter_sublist.map _)
  owner fileId hne := by
    have hother : fileId ≠ r.fileId := fun he => hne (he ▸ h.own)
    obtain ⟨r', hr', he⟩ := ht.owner fileId (h.others fileId hother ▸ hne)
    have hid : r'.id ≠ r.id := fun hid => hother (he.symm.trans (FileRecord.fileId_eq hid))
    exact ⟨r', h.mem_files hr' hid, he⟩

/-- A row with a new number owns nothing yet. -/
theorem Owned.append (h : t.Owned) (hnew : ∀ r' ∈ t.files, r'.id < r.id) :
    Owned { t with files := t.files ++ [r] } where
  distinct := by
    rw [List.map_append, List.nodup_append]
    refine ⟨h.distinct, List.pairwise_singleton .., ?_⟩
    simpa using fun r' hr' => Nat.ne_of_lt (hnew r' hr')
  owner fileId hne := by
    obtain ⟨r', hr', he⟩ := h.owner fileId hne
    exact ⟨r', List.mem_append_left _ hr', he⟩

theorem Owned.map (h : t.Owned) {g : FileRecord → FileRecord} (hg : ∀ r : FileRecord, r.Becomes (g r)) :
    Owned { t with files := t.files.map g } where
  distinct := by
    have hid : (fun r => (g r).id) = (·.id) := funext fun r => (hg r).id
    simpa [Function.comp_def, hid] using h.distinct
  owner fileId hne := by
    obtain ⟨r', hr', he⟩ := h.owner fileId hne
    exact ⟨g r', List.mem_map_of_mem hr', (FileRecord.fileId_eq (hg r').id).trans he⟩

end Tables

/-! ## The steps of the store -/

section

variable {ε : Type} [Coe StoreError ε] {t : Tables} {db : Database} {fileId : String}

/-- A new row comes last and gets a number of its own. -/
theorem exists_row_of_registerFile {projectId : String} {m : Metadata} {r : FileRecord}
    (h : (on t).registerFile projectId (.ofMetadata m) = .ok (r, db)) :
    ∃ row, r = row.handedOut ∧ db = on { t with files := t.files ++ [row] } ∧
      row.id = Database.nextFileId t ∧ row.projectId = projectId ∧ row.path = m.path ∧
      row.kind = m.kind := by
  obtain ⟨hd, hid, _, hdb⟩ := registerFile_eq_ok.mp h
  exact ⟨r.stored, hd.handedOut_stored.symm, hdb, hid, (Option.some.inj hd.project).symm,
    (Option.some.inj hd.path).symm, hd.kind.symm⟩

/-- Refreshing a row leaves its other columns and all other rows as they are. -/
theorem exists_map_of_updateFile {id : Nat} {m : Metadata}
    (h : (on t).updateFile (id : Int) (.ofMetadata m) = .ok db) :
    ∃ g : FileRecord → FileRecord, db = on { t with files := t.files.map g } ∧
      (∀ r : FileRecord, r.Becomes (g r)) ∧ ∀ r : FileRecord, r.id ≠ id → g r = r := by
  by_cases hpresent : ∃ r ∈ t.files, r.id = id
  · obtain ⟨r, hr, rfl⟩ := hpresent
    refine ⟨_, ((updateFile_eq_ok hr).mp h).2, fun r' => ?_, fun r' hne => if_neg hne⟩
    split
    · exact r'.becomes_stored_written _
    · exact .refl r'
  · have hno : ∀ r ∈ t.files, (r.id : Int) ≠ id := fun r hr he =>
      hpresent ⟨r, hr, Int.natCast_inj.mp he⟩
    rw [updateFile_of_absent hno h]
    exact ⟨fun r => r, by rw [List.map_id'], .refl, fun _ _ => rfl⟩

/-- Dropping a row that is not there changes nothing, whether or not it fails. -/
theorem deleteFile_ends (t : Tables) (id : Nat) :
    (Process.update (·.deleteFile (id : Int)) : Process ε Unit).Ends t
      (fun _ after => after = { t with files := t.files.filter (·.id != id) })
      (fun after => after = { t with files := t.files.filter (·.id != id) }) := by
  by_cases hpresent : ∃ r ∈ t.files, r.id = id
  · obtain ⟨r, hr, rfl⟩ := hpresent
    exact (Yields.update (deleteFile_of_mem hr) rfl).ends _
  · have hno : ∀ r ∈ t.files, r.id ≠ id := fun r hr he => hpresent ⟨r, hr, he⟩
    have hrows : t = { t with files := t.files.filter (·.id != id) } := by
      rw [List.filter_eq_self.mpr fun r hr => by simpa using hno r hr]
    refine Ends.update (fun db h => ⟨t, ?_, hrows⟩) fun _ _ => hrows
    exact deleteFile_of_absent (fun r hr he => hno r hr (Int.natCast_inj.mp he)) h

end

end CodeAtlas.Store
