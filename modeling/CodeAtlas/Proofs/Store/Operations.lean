import CodeAtlas.Proofs.Store.Drafts
import CodeAtlas.Proofs.Store.Ends

/-! # What the functions of the store do

For each function that stores, registers, changes or drops something: when it succeeds, and what it makes of
the tables then. -/

namespace CodeAtlas.Store

open CodeAtlas.Outline CodeAtlas.Scan
open CodeAtlas.Store.Process (on)

variable {t : Tables} {db : Database}

/-! ## Records -/

/-- What all sorts of records have in common: something is stored exactly if its file is given and it is
the draft of a record that fits into a row. -/
theorem store_eq_ok {α β : Type} {table : TableName} {integers : α → List Int}
    {complete : α → Except StoreError β} {draft : β → α}
    (hcomplete : ∀ d r, complete d = .ok r ↔ d = draft r) (put : Tables → String → β → Tables)
    {fileId? : Option String} {d : α} :
    (do
      let t ← (on t).tables table
      checkIntegers (integers d)
      let fileId ← required table "file_id" fileId?
      let r ← complete d
      return on (put t fileId r)) = .ok db ↔
    ∃ fileId r, fileId? = some fileId ∧ d = draft r ∧
      (∀ n ∈ integers (draft r), isStorable n = true) ∧ db = on (put t fileId r) := by
  simp only [bind_eq_ok, required_eq_ok, checkIntegers_eq_ok, hcomplete]
  constructor
  · rintro ⟨_, ht, _, hfits, fileId, hfile, r, rfl, hdb⟩
    cases ht
    cases hdb
    exact ⟨fileId, r, hfile, rfl, hfits, rfl⟩
  · rintro ⟨fileId, r, hfile, rfl, hfits, rfl⟩
    exact ⟨t, rfl, (), hfits, fileId, hfile, r, rfl, rfl⟩

/-- The draft of a record is stored if the record fits into a row. -/
theorem store_draft_eq_ok {α β : Type} {table : TableName} {integers : α → List Int}
    {complete : α → Except StoreError β} {draft : β → α}
    (hcomplete : ∀ d r, complete d = .ok r ↔ d = draft r) (put : Tables → String → β → Tables)
    {fileId : String} {r : β} :
    (do
      let t ← (on t).tables table
      checkIntegers (integers (draft r))
      let fileId ← required table "file_id" (some fileId)
      let r ← complete (draft r)
      return on (put t fileId r)) = .ok db ↔
    (∀ n ∈ integers (draft r), isStorable n = true) ∧ db = on (put t fileId r) := by
  rw [store_eq_ok hcomplete put]
  constructor
  · rintro ⟨_, r', hfile, hd, hfits, hdb⟩
    cases hfile
    obtain rfl : r' = r :=
      Except.ok.inj (((hcomplete _ r').mpr hd).symm.trans ((hcomplete _ r).mpr rfl))
    exact ⟨hfits, hdb⟩
  · rintro ⟨hfits, hdb⟩
    exact ⟨fileId, r, rfl, rfl, hfits, hdb⟩

theorem storeEntity_eq_ok {fileId? : Option String} {d : EntityDraft} :
    (on t).storeEntity fileId? d = .ok db ↔ ∃ fileId e, fileId? = some fileId ∧ d = .ofEntity e ∧
      (∀ n ∈ (EntityDraft.ofEntity e).integers, isStorable n = true) ∧
      db = on { t with entities := t.entities.add fileId (.ofEntity e) } :=
  store_eq_ok (fun _ _ => EntityDraft.complete_eq_ok)
    fun t fileId e => { t with entities := t.entities.add fileId (.ofEntity e) }

theorem storeImport_eq_ok {fileId? : Option String} {d : ImportDraft} :
    (on t).storeImport fileId? d = .ok db ↔ ∃ fileId i, fileId? = some fileId ∧ d = .ofImport i ∧
      (∀ n ∈ (ImportDraft.ofImport i).integers, isStorable n = true) ∧
      db = on { t with imports := t.imports.add fileId (.ofImport i) } :=
  store_eq_ok (fun _ _ => ImportDraft.complete_eq_ok)
    fun t fileId i => { t with imports := t.imports.add fileId (.ofImport i) }

theorem storeExport_eq_ok {fileId? : Option String} {d : ExportDraft} :
    (on t).storeExport fileId? d = .ok db ↔ ∃ fileId e, fileId? = some fileId ∧ d = .ofExport e ∧
      (∀ n ∈ (ExportDraft.ofExport e).integers, isStorable n = true) ∧
      db = on { t with exports := t.exports.add fileId (.ofExport e) } :=
  store_eq_ok (fun _ _ => ExportDraft.complete_eq_ok)
    fun t fileId e => { t with exports := t.exports.add fileId (.ofExport e) }

theorem storeEntity_ofEntity {fileId : String} {e : Entity} :
    (on t).storeEntity fileId (.ofEntity e) = .ok db ↔
      (∀ n ∈ (EntityDraft.ofEntity e).integers, isStorable n = true) ∧
        db = on { t with entities := t.entities.add fileId (.ofEntity e) } :=
  store_draft_eq_ok (fun _ _ => EntityDraft.complete_eq_ok)
    fun t fileId e => { t with entities := t.entities.add fileId (.ofEntity e) }

theorem storeImport_ofImport {fileId : String} {i : Import} :
    (on t).storeImport fileId (.ofImport i) = .ok db ↔
      (∀ n ∈ (ImportDraft.ofImport i).integers, isStorable n = true) ∧
        db = on { t with imports := t.imports.add fileId (.ofImport i) } :=
  store_draft_eq_ok (fun _ _ => ImportDraft.complete_eq_ok)
    fun t fileId i => { t with imports := t.imports.add fileId (.ofImport i) }

theorem storeExport_ofExport {fileId : String} {e : Export} :
    (on t).storeExport fileId (.ofExport e) = .ok db ↔
      (∀ n ∈ (ExportDraft.ofExport e).integers, isStorable n = true) ∧
        db = on { t with exports := t.exports.add fileId (.ofExport e) } :=
  store_draft_eq_ok (fun _ _ => ExportDraft.complete_eq_ok)
    fun t fileId e => { t with exports := t.exports.add fileId (.ofExport e) }

/-! ## Files -/

variable {projectId? : Option String} {d : FileDraft} {r : FileRecord} {id : Int}

namespace FileRecord

/-- What no two files share. -/
def address (r : FileRecord) : String × String := (r.projectId, r.path)

/-- The row of a record. -/
def stored (r : FileRecord) : FileRecord := { r with modified := ⟨r.modified.wall, none⟩ }

theorem handedOut_stored (h : r.modified.offset? = some 0) : r.stored.handedOut = r := by
  obtain ⟨id, projectId, path, name, kind, size, ⟨wall, offset?⟩, extension?, content?⟩ := r
  cases h
  rfl

theorem stored_handedOut (h : r.modified.offset? = none) : r.handedOut.stored = r := by
  obtain ⟨id, projectId, path, name, kind, size, ⟨wall, offset?⟩, extension?, content?⟩ := r
  cases h
  rfl

/-- A record with the size, the time and the content of a draft. -/
def written (r : FileRecord) (d : FileDraft) : FileRecord :=
  match d.values? with
  | some (size, modified) => { r with size, content? := d.content?, modified }
  | none => r

end FileRecord

theorem FileDraft.Describes.handedOut_stored (h : d.Describes projectId? r) :
    r.stored.handedOut = r :=
  FileRecord.handedOut_stored (Time.Moment.toUtc_offset (values?_eq_some.mp h.values).1)

theorem addFile_eq (t : Tables) (r : FileRecord) : Database.addFile t r =
    if ∃ f ∈ t.files, f.address = r.address then .error .duplicatePath
    else .ok (on { t with files := t.files ++ [r] }) := by
  simp only [Database.addFile, List.any_eq_true, Bool.and_eq_true, beq_iff_eq, FileRecord.address,
    Prod.mk.injEq]

theorem addFile_eq_ok : Database.addFile t r = .ok db ↔
    (∀ f ∈ t.files, f.address ≠ r.address) ∧ db = on { t with files := t.files ++ [r] } := by
  rw [addFile_eq]
  split
  · next h =>
    obtain ⟨f, hf, he⟩ := h
    constructor
    · intro h
      cases h
    · rintro ⟨hfree, _⟩
      exact absurd he (hfree f hf)
  · next h =>
    constructor
    · intro hdb
      cases hdb
      exact ⟨fun f hf he => h ⟨f, hf, he⟩, rfl⟩
    · rintro ⟨_, rfl⟩
      rfl

theorem registerFile_of_describes (h : d.Describes projectId? r) (hid : r.id = Database.nextFileId t) :
    (on t).registerFile projectId? d = (Database.addFile t r.stored).map fun db => (r, db) := by
  obtain ⟨htime, hsize, hfits⟩ := FileDraft.values?_eq_some.mp h.values
  have hnaive := Time.Moment.toNaiveUtc_of_toUtc htime
  have hcheck : checkIntegers (some r.size).toList = .ok () :=
    checkIntegers_eq_ok.mpr (List.forall_mem_singleton.mpr hfits)
  have hrow : (⟨Database.nextFileId t, r.projectId, r.path, r.name, d.kind, r.size,
      ⟨r.modified.wall, none⟩, d.extension?, d.content?⟩ : FileRecord) = r.stored := by
    rw [← hid, h.kind, h.extension?, h.content?]
    rfl
  have htables : (on t).tables .files = .ok t := rfl
  simp only [Database.registerFile, hnaive, mapError_ok, htables, hcheck, h.project, h.path, h.name,
    hsize, required, bind, Except.bind, hrow, h.handedOut_stored]
  cases Database.addFile t r.stored <;> rfl

theorem registerFile_eq_ok : (on t).registerFile projectId? d = .ok (r, db) ↔
    d.Describes projectId? r ∧ r.id = Database.nextFileId t ∧
      (∀ f ∈ t.files, f.address ≠ r.address) ∧
      db = on { t with files := t.files ++ [r.stored] } := by
  constructor
  · intro h
    simp only [Database.registerFile, bind_eq_ok, mapError_eq_ok, required_eq_ok,
      checkIntegers_eq_ok] at h
    obtain ⟨modified, htime, _, ht, _, hfits, projectId, hproject, path, hpath, name, hname, size,
      hsize, db', hadd, hpair⟩ := h
    cases ht
    cases hpair
    obtain ⟨hutc, hnaive⟩ := Time.Moment.toNaiveUtc_eq_ok.mp htime
    obtain ⟨hfree, rfl⟩ := addFile_eq_ok.mp hadd
    have hvalues : d.values? = some (size, modified.assumeUtc) :=
      FileDraft.values?_eq_some.mpr ⟨hutc, hsize, hfits size (by simp [hsize])⟩
    refine ⟨⟨hproject, hpath, hname, rfl, hvalues, rfl, rfl⟩, rfl, hfree, ?_⟩
    rw [FileRecord.stored_handedOut hnaive]
  · rintro ⟨hd, hid, hfree, rfl⟩
    have hadd : Database.addFile t r.stored = .ok (on { t with files := t.files ++ [r.stored] }) :=
      addFile_eq_ok.mpr ⟨hfree, rfl⟩
    rw [registerFile_of_describes hd hid, hadd]
    rfl

theorem mem_of_findFile? (h : (on t).findFile? id = .ok (some r)) : r ∈ t.files ∧ (r.id : Int) = id := by
  simp only [Database.findFile?, Database.tables, bind, Except.bind, pure, Except.pure] at h
  split at h
  · next r' hr' =>
    cases h
    exact ⟨List.mem_of_find?_eq_some hr', by simpa using List.find?_some hr'⟩
  · split at h <;> cases h

/-- A number that a row has is found, though perhaps with another row. -/
theorem findFile?_of_mem (hr : r ∈ t.files) :
    ∃ found, (on t).findFile? r.id = .ok (some found) ∧ found.id = r.id := by
  have hfound : ∃ found, (on t).findFile? r.id = .ok (some found) := by
    simp only [Database.findFile?, Database.tables, bind, Except.bind, pure, Except.pure]
    split
    · next found _ => exact ⟨found, rfl⟩
    · next hnone => simpa using List.find?_eq_none.mp hnone r hr
  obtain ⟨found, hfound⟩ := hfound
  exact ⟨found, hfound, Int.natCast_inj.mp (mem_of_findFile? hfound).2⟩

theorem findFile?_of_absent (h : ∀ r ∈ t.files, (r.id : Int) ≠ id) :
    (on t).findFile? id = .ok none ∨ ∃ e, (on t).findFile? id = .error e := by
  match hfind : (on t).findFile? id with
  | .ok none => exact Or.inl rfl
  | .error e => exact Or.inr ⟨e, rfl⟩
  | .ok (some r) =>
    obtain ⟨hr, hid⟩ := mem_of_findFile? hfind
    exact absurd hid (h r hr)

/-- A file whose size and time can be stored is written over in its row. -/
theorem updateFile_eq_ok (hr : r ∈ t.files) :
    (on t).updateFile (some (r.id : Int)) d = .ok db ↔ d.values?.isSome = true ∧
      db = on { t with files := t.files.map fun r' =>
        if r'.id = r.id then (r'.handedOut.written d).stored else r' } := by
  obtain ⟨found, hfound, hid⟩ := findFile?_of_mem hr
  have htables : (on t).tables .files = .ok t := rfl
  have hupdate : (on t).updateFile (some (r.id : Int)) d = (do
      let modified ← d.modified.toNaiveUtc.mapError .time
      checkIntegers d.size?.toList
      let size ← required .files "size" d.size?
      return on { t with files := t.files.map fun r' =>
        if r'.id == r.id then { r' with size, content? := d.content?, modified } else r' }) := by
    simp only [Database.updateFile, htables, hfound, bind, Except.bind, hid]
  rw [hupdate]
  simp only [bind_eq_ok, mapError_eq_ok, required_eq_ok, checkIntegers_eq_ok, beq_iff_eq]
  constructor
  · rintro ⟨modified, htime, _, hfits, size, hsize, hdb⟩
    obtain ⟨hutc, hnaive⟩ := Time.Moment.toNaiveUtc_eq_ok.mp htime
    have hvalues : d.values? = some (size, modified.assumeUtc) :=
      FileDraft.values?_eq_some.mpr ⟨hutc, hsize, hfits size (by simp [hsize])⟩
    obtain ⟨wall, offset?⟩ := modified
    cases hnaive
    cases hdb
    simp only [hvalues, FileRecord.written]
    exact ⟨rfl, rfl⟩
  · rintro ⟨hsome, rfl⟩
    obtain ⟨⟨size, modified⟩, hvalues⟩ := Option.isSome_iff_exists.mp hsome
    obtain ⟨hutc, hsize, hfits⟩ := FileDraft.values?_eq_some.mp hvalues
    refine ⟨⟨modified.wall, none⟩, Time.Moment.toNaiveUtc_of_toUtc hutc, (), by simpa [hsize] using hfits,
      size, hsize, ?_⟩
    simp only [hvalues, FileRecord.written]
    rfl

theorem updateFile_of_absent (h : ∀ r ∈ t.files, (r.id : Int) ≠ id)
    (hdb : (on t).updateFile (some id) d = .ok db) : db = on t := by
  have htables : (on t).tables .files = .ok t := rfl
  rcases findFile?_of_absent h with hfind | ⟨e, hfind⟩
  all_goals
    simp only [Database.updateFile, htables, hfind, bind, Except.bind] at hdb
    cases hdb
  rfl

theorem deleteFile_of_mem (hr : r ∈ t.files) : (on t).deleteFile (some (r.id : Int)) =
    .ok (on { t with files := t.files.filter (·.id != r.id) }) := by
  obtain ⟨found, hfound, hid⟩ := findFile?_of_mem hr
  have htables : (on t).tables .files = .ok t := rfl
  simp only [Database.deleteFile, htables, hfound, bind, Except.bind, hid]
  rfl

theorem deleteFile_of_absent (h : ∀ r ∈ t.files, (r.id : Int) ≠ id)
    (hdb : (on t).deleteFile (some id) = .ok db) : db = on t := by
  have htables : (on t).tables .files = .ok t := rfl
  rcases findFile?_of_absent h with hfind | ⟨e, hfind⟩
  all_goals
    simp only [Database.deleteFile, htables, hfind, bind, Except.bind] at hdb
    cases hdb
  rfl

end CodeAtlas.Store
