import CodeAtlas.Proofs.Keyed
import CodeAtlas.Proofs.Scan.Found
import CodeAtlas.Proofs.Store.Records

/-! # Rows of the registry

The rows that scans make: numbered upwards in the order of the table, no two of a project with one
normal form, all in universal time, and with no records left of a file that has no row. Registering,
refreshing and dropping a row change that row alone. -/

namespace CodeAtlas.Store

open CodeAtlas.Scan

namespace FileRecord

/-- The normal form of the path of a row. -/
def key (r : FileRecord) : String := Path.normalize r.path

/-- What no two rows share. -/
def place (r : FileRecord) : String × String := (r.projectId, r.key)

/-- The row of a newly registered file. -/
def ofMetadata (projectId : String) (id : Nat) (m : Metadata) : FileRecord where
  id := id
  projectId := projectId
  path := m.path
  name := m.name
  kind := m.kind
  size := m.size
  modified := ⟨m.modified.wall, none⟩
  extension? := m.extension?
  content? := m.content?

/-- The row of a file that has become newer. -/
def refreshed (r : FileRecord) (m : Metadata) : FileRecord :=
  { r with size := m.size, content? := m.content?, modified := ⟨m.modified.wall, none⟩ }

theorem fileId_injective {r r' : FileRecord} (h : r.fileId = r'.fileId) : r.id = r'.id := by
  have hlist := congrArg String.toList h
  have hnum := congrArg (fun ds => Nat.ofDigitChars 10 ds 0) hlist
  simpa [fileId, Nat.toString_eq_ofList_toDigits] using hnum

end FileRecord

/-! ## Sound tables -/

/-- What holds of the rows of a registry that only scans have changed. -/
structure SoundRows (rows : List FileRecord) : Prop where
  ascending : (rows.map (·.id)).Pairwise (· < ·)
  distinct : (rows.map FileRecord.place).Nodup
  naive : ∀ r ∈ rows, r.modified.offset? = none

/-- What holds of the tables that only scans have changed. -/
structure Tables.Sound (t : Tables) : Prop where
  rows : SoundRows t.files
  owned : ∀ fileId, t.recordsOf fileId ≠ .none → ∃ r ∈ t.files, r.fileId = fileId

theorem sound_empty : Tables.empty.Sound where
  rows := ⟨List.Pairwise.nil, List.nodup_nil, List.forall_mem_nil _⟩
  owned _ h := absurd rfl h

namespace SoundRows

variable {rows : List FileRecord} {r r' : FileRecord}

theorem eq_of_id_eq (h : SoundRows rows) (hr : r ∈ rows) (hr' : r' ∈ rows) (he : r.id = r'.id) :
    r = r' :=
  eq_of_key_eq (h.ascending.imp fun hlt => Nat.ne_of_lt hlt) hr hr' he

theorem eq_of_fileId_eq (h : SoundRows rows) (hr : r ∈ rows) (hr' : r' ∈ rows)
    (he : r.fileId = r'.fileId) : r = r' :=
  h.eq_of_id_eq hr hr' (FileRecord.fileId_injective he)

theorem eq_of_key_eq (h : SoundRows rows) (hr : r ∈ rows) (hr' : r' ∈ rows)
    (hp : r.projectId = r'.projectId) (hk : r.key = r'.key) : r = r' :=
  CodeAtlas.eq_of_key_eq h.distinct hr hr' (Prod.ext hp hk)

theorem filter (h : SoundRows rows) (q : FileRecord → Bool) : SoundRows (rows.filter q) where
  ascending := h.ascending.sublist (List.filter_sublist.map _)
  distinct := h.distinct.sublist (List.filter_sublist.map _)
  naive r hr := h.naive r (List.mem_filter.mp hr).1

theorem map (h : SoundRows rows) {g : FileRecord → FileRecord} (hid : ∀ r, (g r).id = r.id)
    (hplace : ∀ r, (g r).place = r.place)
    (hnaive : ∀ r ∈ rows, (g r).modified.offset? = none) : SoundRows (rows.map g) where
  ascending := by simpa [Function.comp_def, hid] using h.ascending
  distinct := by simpa [Function.comp_def, hplace] using h.distinct
  naive := by simpa using hnaive

theorem append (h : SoundRows rows) (hid : ∀ r' ∈ rows, r'.id < r.id)
    (hplace : ∀ r' ∈ rows, r'.place ≠ r.place) (hnaive : r.modified.offset? = none) :
    SoundRows (rows ++ [r]) where
  ascending := by
    rw [List.map_append, List.pairwise_append]
    exact ⟨h.ascending, List.pairwise_singleton .., by simpa using hid⟩
  distinct := by
    rw [List.map_append, List.nodup_append]
    exact ⟨h.distinct, List.pairwise_singleton .., by simpa using hplace⟩
  naive r' hr' := by
    rcases List.mem_append.mp hr' with hr' | hr'
    · exact h.naive r' hr'
    · rwa [List.mem_singleton.mp hr']

end SoundRows

/-! ## Numbers -/

theorem le_foldl_max (ids : List Nat) (m : Nat) :
    m ≤ ids.foldl max m ∧ ∀ n ∈ ids, n ≤ ids.foldl max m := by
  induction ids generalizing m with
  | nil => simp
  | cons i ids ih =>
    obtain ⟨hm, hall⟩ := ih (max m i)
    simp only [List.foldl_cons, List.forall_mem_cons]
    exact ⟨by omega, by omega, hall⟩

theorem lt_nextFileId (t : Tables) : ∀ r ∈ t.files, r.id < Database.nextFileId t := by
  intro r hr
  have := (le_foldl_max (t.files.map (·.id)) 0).2 r.id (List.mem_map_of_mem hr)
  unfold Database.nextFileId nextId
  omega

theorem nextId_append (ids : List Nat) : nextId (ids ++ [nextId ids]) = nextId ids + 1 := by
  simp only [nextId, List.foldl_append, List.foldl_cons, List.foldl_nil]
  omega

theorem nextFileId_append {t : Tables} {r : FileRecord} (h : r.id = Database.nextFileId t) :
    Database.nextFileId { t with files := t.files ++ [r] } = Database.nextFileId t + 1 := by
  rw [Database.nextFileId, List.map_append, List.map_singleton, h]
  exact nextId_append _

/-! ## Rows of a project -/

/-- Rows keep universal time without saying so, and are handed out with a time that does. -/
theorem FileRecord.handedOut_modified {r : FileRecord} (h : r.modified.offset? = none) :
    r.handedOut.modified = ⟨r.modified.wall, some 0⟩ := by
  simp [handedOut, Time.Moment.assumeUtc, h]

namespace Tables

variable {t : Tables} {projectId key : String} {r : FileRecord}

def rowsOf (t : Tables) (projectId : String) : List FileRecord :=
  t.files.filter (·.projectId == projectId)

/-- The row of a project whose path has a certain normal form. -/
def rowAt? (t : Tables) (projectId key : String) : Option FileRecord :=
  (t.rowsOf projectId).find? (·.key == key)

theorem mem_rowsOf : r ∈ t.rowsOf projectId ↔ r ∈ t.files ∧ r.projectId = projectId := by
  simp [rowsOf]

theorem nodup_keys_rowsOf (h : SoundRows t.files) (projectId : String) :
    ((t.rowsOf projectId).map FileRecord.key).Nodup := by
  have hd := (h.filter (·.projectId == projectId)).distinct
  refine List.pairwise_map.mpr ((List.pairwise_map.mp hd).imp_of_mem fun {a b} ha hb hne he => hne ?_)
  exact Prod.ext ((mem_rowsOf.mp ha).2.trans (mem_rowsOf.mp hb).2.symm) he

theorem nodup_paths_rowsOf (h : SoundRows t.files) (projectId : String) :
    ((t.rowsOf projectId).map (·.path)).Nodup := by
  have hk := List.pairwise_map.mp (nodup_keys_rowsOf h projectId)
  exact List.pairwise_map.mpr (hk.imp fun hne he => hne (congrArg Path.normalize he))

/-- A row is the only one that is handed out with its path, or with the normal form of it. -/
theorem filter_handedOut {label : FileRecord → String} (hl : ∀ r, label r.handedOut = label r)
    (hd : ((t.rowsOf projectId).map label).Nodup) (hr : r ∈ t.rowsOf projectId) :
    ((t.rowsOf projectId).map (·.handedOut)).filter (label · == label r) = [r.handedOut] := by
  have hone := filter_key_eq_singleton hd hr
  rw [List.filter_map, show ((label · == label r) ∘ (·.handedOut)) = (label · == label r) from
    funext fun r' => by rw [Function.comp_apply, hl r'], hone]
  rfl

theorem rowAt?_eq_some (h : SoundRows t.files) :
    t.rowAt? projectId key = some r ↔ r ∈ t.files ∧ r.projectId = projectId ∧ r.key = key := by
  rw [rowAt?, find?_key_eq_some (nodup_keys_rowsOf h projectId), mem_rowsOf, and_assoc]

theorem rowAt?_eq_none :
    t.rowAt? projectId key = none ↔ ∀ r ∈ t.files, r.projectId = projectId → r.key ≠ key := by
  simp [rowAt?, mem_rowsOf]

end Tables

/-! ## Changing rows -/

/-- What a scan reports of an entry fits into a row. -/
structure FitsRow (m : Metadata) : Prop where
  size : isStorable m.size = true
  universal : m.modified.offset? = some 0
  onCalendar : Time.onCalendar m.modified.wall = true

theorem FitsRow.instant {m : Metadata} (h : FitsRow m) : m.modified.instant = m.modified.wall := by
  simp [Time.Moment.instant, h.universal]

theorem FitsRow.modified_eq {m : Metadata} (h : FitsRow m) : m.modified = ⟨m.modified.wall, some 0⟩ := by
  rw [← h.universal]

/-- The size and the time of such an entry are stored as they are. -/
theorem FitsRow.values {m : Metadata} (h : FitsRow m) :
    (FileDraft.ofMetadata m).values? = some (m.size, m.modified) := by
  have hutc : m.modified.toUtc = .ok m.modified := by
    rw [Time.Moment.toUtc, h.universal, h.instant]
    simp only [h.onCalendar, if_true]
    exact congrArg Except.ok h.modified_eq.symm
  exact FileDraft.values?_eq_some.mpr ⟨hutc, rfl, h.size⟩

theorem FitsRow.describes {m : Metadata} (h : FitsRow m) (projectId : String) (id : Nat) :
    (FileDraft.ofMetadata m).Describes projectId (FileRecord.ofMetadata projectId id m).handedOut where
  project := rfl
  path := rfl
  name := rfl
  kind := rfl
  values := by
    rw [h.values, h.modified_eq]
    rfl
  extension? := rfl
  content? := rfl

section

open Process

variable {t : Tables} {m : Metadata} {r : FileRecord}

theorem registerFile_on (projectId : String) (hm : FitsRow m)
    (hnew : ∀ r ∈ t.files, r.projectId = projectId → r.path ≠ m.path) :
    let row := FileRecord.ofMetadata projectId (Database.nextFileId t) m
    (on t).registerFile projectId (.ofMetadata m) =
      .ok (row.handedOut, on { t with files := t.files ++ [row] }) := by
  refine registerFile_eq_ok.mpr ⟨hm.describes projectId _, rfl, fun f hf he => ?_, rfl⟩
  exact hnew f hf (congrArg Prod.fst he) (congrArg Prod.snd he)

/-- A path that a project has already is refused. -/
theorem registerFile_of_taken (hm : FitsRow m) {projectId : String}
    (h : ∃ r ∈ t.files, r.projectId = projectId ∧ r.path = m.path) :
    (on t).registerFile projectId (.ofMetadata m) = .error .duplicatePath := by
  obtain ⟨r, hr, hproject, hpath⟩ := h
  have hd := hm.describes projectId (Database.nextFileId t)
  rw [registerFile_of_describes hd rfl, addFile_eq, if_pos ⟨r, hr, Prod.ext hproject hpath⟩]
  rfl

/-- A row that is found by its number is refreshed, and no other row is changed. -/
theorem updateFile_on (hr : r ∈ t.files) (hm : FitsRow m) :
    (on t).updateFile (r.id : Int) (.ofMetadata m) = .ok (on { t with
      files := t.files.map fun r' => if r'.id == r.id then r'.refreshed m else r' }) := by
  refine (updateFile_eq_ok hr).mpr ⟨by rw [hm.values]; rfl, ?_⟩
  simp only [FileRecord.written, hm.values, beq_iff_eq]
  rfl

end

end CodeAtlas.Store
