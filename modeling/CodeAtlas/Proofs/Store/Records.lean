import CodeAtlas.Proofs.Store.Operations
import CodeAtlas.Proofs.Store.Yields

/-! # The records of one file

What is stored about a file besides its row, seen as a whole. Dropping and creating records touch those
of one file only, and creating them stores exactly what was parsed. -/

namespace CodeAtlas.Store

open CodeAtlas.Outline

theorem Table.ofFile_ne_nil {α : Type} {t : Table α} {row : Row α} (h : row ∈ t) :
    t.ofFile row.fileId ≠ [] := by
  intro hnil
  simp only [Table.ofFile, List.map_eq_nil_iff, List.filter_eq_nil_iff] at hnil
  exact hnil row h (by simp)

theorem mapM_read_ofEntity (es : List Entity) :
    (es.map StoredEntity.ofEntity).mapM StoredEntity.read = .ok es := by
  induction es with
  | nil => rfl
  | cons e es ih =>
    rw [List.map_cons, List.mapM_cons, StoredEntity.read_ofEntity, ih]
    rfl

theorem map_read_ofImport (is : List Import) :
    (is.map StoredImport.ofImport).map StoredImport.read = is := by simp [Function.comp_def]

theorem map_read_ofExport (es : List Export) :
    (es.map StoredExport.ofExport).map StoredExport.read = es := by simp [Function.comp_def]

/-- What is stored about a file. -/
structure Records where
  entities : List StoredEntity
  imports : List StoredImport
  exports : List StoredExport
  deriving Repr, DecidableEq

namespace Records

def none : Records := ⟨[], [], []⟩

/-- The records of what a file declares. -/
def ofParsed (f : ParsedFile) : Records :=
  ⟨f.entities.map .ofEntity, f.imports.map .ofImport, f.exports.map .ofExport⟩

theorem eq_nil_of_ofParsed {f : ParsedFile} (h : ofParsed f = none) :
    f.entities = [] ∧ f.imports = [] ∧ f.exports = [] :=
  ⟨List.map_eq_nil_iff.mp (congrArg entities h), List.map_eq_nil_iff.mp (congrArg imports h),
    List.map_eq_nil_iff.mp (congrArg exports h)⟩

end Records

/-- Whether a database says of a file exactly what was parsed. -/
def Database.Stores (db : Database) (fileId : String) (f : ParsedFile) : Prop :=
  db.entitiesOf fileId = .ok f.entities ∧ db.importsOf fileId = .ok f.imports ∧
    db.exportsOf fileId = .ok f.exports

/-- What a database answers when it is asked for the records of a file. -/
def Database.answers (db : Database) (fileId : String) :
    Except StoreError (List Entity) × Except StoreError (List Import) × Except StoreError (List Export) :=
  (db.entitiesOf fileId, db.importsOf fileId, db.exportsOf fileId)

namespace Tables

variable {t now after : Tables} {fileId : String} {r r' : Records}

def recordsOf (t : Tables) (fileId : String) : Records :=
  ⟨t.entities.ofFile fileId, t.imports.ofFile fileId, t.exports.ofFile fileId⟩

/-- Nothing but the records of one file changes, and these become `r`. -/
structure Rewrites (t : Tables) (fileId : String) (r : Records) (after : Tables) : Prop where
  files : after.files = t.files
  own : after.recordsOf fileId = r
  others : ∀ other, other ≠ fileId → after.recordsOf other = t.recordsOf other

theorem Rewrites.trans (h : t.Rewrites fileId r now) (h' : now.Rewrites fileId r' after) :
    t.Rewrites fileId r' after where
  files := h'.files.trans h.files
  own := h'.own
  others other ho := (h'.others other ho).trans (h.others other ho)

/-- The rows stay, and so do the records of all files but one. -/
structure Touches (t : Tables) (fileId : String) (after : Tables) : Prop where
  files : after.files = t.files
  others : ∀ other, other ≠ fileId → after.recordsOf other = t.recordsOf other

theorem Touches.refl (t : Tables) (fileId : String) : t.Touches fileId t := ⟨rfl, fun _ _ => rfl⟩

theorem Touches.trans (h : t.Touches fileId now) (h' : now.Touches fileId after) :
    t.Touches fileId after where
  files := h'.files.trans h.files
  others other ho := (h'.others other ho).trans (h.others other ho)

theorem Rewrites.touches (h : t.Rewrites fileId r after) : t.Touches fileId after :=
  ⟨h.files, h.others⟩

/-- The tables without the records of a file. -/
def without (t : Tables) (fileId : String) : Tables :=
  { t with
    entities := t.entities.erase fileId
    imports := t.imports.erase fileId
    exports := t.exports.erase fileId }

theorem rewrites_without (t : Tables) (fileId : String) :
    t.Rewrites fileId .none (t.without fileId) where
  files := rfl
  own := by
    simp only [recordsOf, without, Table.ofFile_erase_self]
    rfl
  others other ho := by
    simp only [recordsOf, without, Table.ofFile_erase_of_ne _ (Ne.symm ho)]

theorem rewrites_entity (t : Tables) (fileId : String) (e : StoredEntity) :
    t.Rewrites fileId
      { t.recordsOf fileId with entities := (t.recordsOf fileId).entities ++ [e] }
      { t with entities := t.entities.add fileId e } where
  files := rfl
  own := by simp only [recordsOf, Table.ofFile_add_self]
  others other ho := by simp only [recordsOf, Table.ofFile_add_of_ne _ e (Ne.symm ho)]

theorem rewrites_import (t : Tables) (fileId : String) (i : StoredImport) :
    t.Rewrites fileId
      { t.recordsOf fileId with imports := (t.recordsOf fileId).imports ++ [i] }
      { t with imports := t.imports.add fileId i } where
  files := rfl
  own := by simp only [recordsOf, Table.ofFile_add_self]
  others other ho := by simp only [recordsOf, Table.ofFile_add_of_ne _ i (Ne.symm ho)]

theorem rewrites_export (t : Tables) (fileId : String) (e : StoredExport) :
    t.Rewrites fileId
      { t.recordsOf fileId with exports := (t.recordsOf fileId).exports ++ [e] }
      { t with exports := t.exports.add fileId e } where
  files := rfl
  own := by simp only [recordsOf, Table.ofFile_add_self]
  others other ho := by simp only [recordsOf, Table.ofFile_add_of_ne _ e (Ne.symm ho)]

/-- Whatever is stored is among the records of some file. -/
theorem recordsOf_ne_none_of_entity {row : Row StoredEntity} (h : row ∈ t.entities) :
    t.recordsOf row.fileId ≠ .none :=
  fun he => Table.ofFile_ne_nil h (congrArg Records.entities he)

theorem recordsOf_ne_none_of_import {row : Row StoredImport} (h : row ∈ t.imports) :
    t.recordsOf row.fileId ≠ .none :=
  fun he => Table.ofFile_ne_nil h (congrArg Records.imports he)

theorem recordsOf_ne_none_of_export {row : Row StoredExport} (h : row ∈ t.exports) :
    t.recordsOf row.fileId ≠ .none :=
  fun he => Table.ofFile_ne_nil h (congrArg Records.exports he)

/-! ## Reading records -/

theorem stores_of_recordsOf {f : ParsedFile} (h : t.recordsOf fileId = .ofParsed f) :
    (Process.on t).Stores fileId f := by
  have hentities : t.entities.ofFile fileId = f.entities.map .ofEntity := congrArg Records.entities h
  have himports : t.imports.ofFile fileId = f.imports.map .ofImport := congrArg Records.imports h
  have hexports : t.exports.ofFile fileId = f.exports.map .ofExport := congrArg Records.exports h
  refine ⟨?_, ?_, ?_⟩
  · rw [← mapM_read_ofEntity f.entities, ← hentities]
    rfl
  · rw [← map_read_ofImport f.imports, ← himports]
    rfl
  · rw [← map_read_ofExport f.exports, ← hexports]
    rfl

/-- Nothing but the records of a file is read. -/
theorem reads_congr (h : now.recordsOf fileId = t.recordsOf fileId) :
    (Process.on now).entitiesOf fileId = (Process.on t).entitiesOf fileId ∧
      (Process.on now).importsOf fileId = (Process.on t).importsOf fileId ∧
      (Process.on now).exportsOf fileId = (Process.on t).exportsOf fileId :=
  ⟨congrArg (·.entities.mapM StoredEntity.read) h,
    congrArg (Except.ok ∘ List.map StoredImport.read ∘ Records.imports) h,
    congrArg (Except.ok ∘ List.map StoredExport.read ∘ Records.exports) h⟩

theorem answers_congr (h : now.recordsOf fileId = t.recordsOf fileId) :
    (Process.on now).answers fileId = (Process.on t).answers fileId := by
  obtain ⟨hentities, himports, hexports⟩ := reads_congr h
  simp only [Database.answers, hentities, himports, hexports]

theorem stores_congr {f : ParsedFile} (h : now.recordsOf fileId = t.recordsOf fileId) :
    (Process.on now).Stores fileId f ↔ (Process.on t).Stores fileId f := by
  obtain ⟨hentities, himports, hexports⟩ := reads_congr h
  rw [Database.Stores, hentities, himports, hexports]
  rfl

theorem stores_of_none {f : ParsedFile} (h : t.recordsOf fileId = .none) :
    (Process.on t).Stores fileId f ↔ f.entities = [] ∧ f.imports = [] ∧ f.exports = [] := by
  have hempty : t.recordsOf fileId = Tables.empty.recordsOf fileId := h
  have hread : (Process.on .empty).Stores fileId f ↔ (.ok [] : Except StoreError _) = .ok f.entities ∧
    (.ok [] : Except StoreError _) = .ok f.imports ∧
    (.ok [] : Except StoreError _) = .ok f.exports := Iff.rfl
  rw [stores_congr hempty, hread]
  simp only [Except.ok.injEq, eq_comm]

end Tables

/-! ## Writing records -/

/-- All integers of an entity fit into a row. -/
def FitsEntity (e : Entity) : Prop := ∀ n ∈ (EntityDraft.ofEntity e).integers, isStorable n = true

/-- All integers of what a file declares fit into rows. -/
structure FitsRows (f : ParsedFile) : Prop where
  entities : ∀ e ∈ f.entities, FitsEntity e
  imports : ∀ i ∈ f.imports, isStorable i.line = true
  exports : ∀ e ∈ f.exports, isStorable e.line = true

section

variable {ε : Type} [Coe StoreError ε] {t : Tables} {fileId : String}

open Process

theorem deleteRecords_yields (t : Tables) (fileId : String) :
    (deleteRecords fileId : Process ε Unit).Yields t fun _ after =>
      t.Rewrites fileId .none after :=
  Yields.intro rfl (t.rewrites_without fileId)

/-- A loop stores records in the order of its list. `acc` says what is stored about the file after a part of
the list. The loop stops at a record that does not fit into a row, and then the ones before it are there. -/
theorem storeAll_ends {α : Type} {l : List α} {store : α → Database → Except StoreError Database}
    (fits : α → Prop) (put : α → Tables → Tables) (acc : List α → Records)
    (hstore : ∀ a now db, store a (on now) = .ok db ↔ fits a ∧ db = on (put a now))
    (hput : ∀ front a (now : Tables), now.recordsOf fileId = acc front →
      now.Rewrites fileId (acc (front ++ [a])) (put a now))
    (hstart : t.recordsOf fileId = acc []) :
    (l.forM fun a => (Process.update (store a) : Process ε Unit)).Ends t
      (fun _ after => t.Rewrites fileId (acc l) after ∧ ∀ a ∈ l, fits a)
      (fun after => t.Touches fileId after ∧ ∃ a ∈ l, ¬ fits a) := by
  refine Ends.forM (I := fun front now => t.Rewrites fileId (acc front) now ∧ ∀ a ∈ front, fits a)
    (fun front a rest now hl hi => Ends.update (fun db hdb => ?_) fun e he => ⟨hi.1.touches, a, ?_, ?_⟩)
    ⟨⟨rfl, hstart, fun _ _ => rfl⟩, List.forall_mem_nil _⟩
  · obtain ⟨hfits, rfl⟩ := (hstore a now db).mp hdb
    refine ⟨put a now, rfl, hi.1.trans (hput front a now hi.1.own), ?_⟩
    exact List.forall_mem_append.mpr ⟨hi.2, List.forall_mem_singleton.mpr hfits⟩
  · rw [hl]
    simp
  · intro hfits
    rw [(hstore a now _).mpr ⟨hfits, rfl⟩] at he
    cases he

/-- Either everything that a file declares is stored, in the order in which it was found, or something of
it does not fit into a row. -/
theorem createRecords_ends (f : ParsedFile) (hnone : t.recordsOf fileId = .none) :
    (createRecords fileId f : Process ε Unit).Ends t
      (fun _ after => t.Rewrites fileId (.ofParsed f) after ∧ FitsRows f)
      (fun after => t.Touches fileId after ∧ ¬ FitsRows f) := by
  unfold createRecords
  -- each loop keeps what the loops before it have stored and appends to one of the lists
  have hentities : (f.entities.forM (createEntity fileId) : Process ε Unit).Ends t
      (fun _ after => t.Rewrites fileId ⟨f.entities.map StoredEntity.ofEntity, [], []⟩ after ∧
        ∀ e ∈ f.entities, FitsEntity e)
      (fun after => t.Touches fileId after ∧ ¬ FitsRows f) := by
    refine (storeAll_ends FitsEntity
      (fun e now => { now with entities := now.entities.add fileId (.ofEntity e) })
      (fun front => ⟨front.map StoredEntity.ofEntity, [], []⟩)
      (fun _ _ _ => storeEntity_ofEntity) (fun front e now hnow => ?_) hnone).mono
      (fun _ _ h => h) fun after h => ⟨h.1, fun hf => ?_⟩
    · simpa [hnow] using now.rewrites_entity fileId (.ofEntity e)
    · obtain ⟨_, e, he, hno⟩ := h
      exact hno (hf.entities e he)
  refine hentities.bind fun _ t₁ ⟨h₁, hfirst⟩ => ?_
  have himports : (f.imports.forM (createImport fileId) : Process ε Unit).Ends t₁
      (fun _ after => t.Rewrites fileId
        ⟨f.entities.map StoredEntity.ofEntity, f.imports.map StoredImport.ofImport, []⟩ after ∧
        ∀ i ∈ f.imports, isStorable i.line = true)
      (fun after => t.Touches fileId after ∧ ¬ FitsRows f) := by
    refine (storeAll_ends (fun i => isStorable i.line = true)
      (fun i now => { now with imports := now.imports.add fileId (.ofImport i) })
      (fun front => ⟨f.entities.map StoredEntity.ofEntity, front.map StoredImport.ofImport, []⟩)
      (fun _ _ _ => storeImport_ofImport.trans (and_congr_left' List.forall_mem_singleton))
      (fun front i now hnow => ?_) h₁.own).mono
      (fun _ _ h => ⟨h₁.trans h.1, h.2⟩) fun after h => ⟨h₁.touches.trans h.1, fun hf => ?_⟩
    · simpa [hnow] using now.rewrites_import fileId (.ofImport i)
    · obtain ⟨_, i, hi, hno⟩ := h
      exact hno (hf.imports i hi)
  refine himports.bind fun _ t₂ ⟨h₂, hsecond⟩ => ?_
  refine (storeAll_ends (fun e => isStorable e.line = true)
    (fun e now => { now with exports := now.exports.add fileId (.ofExport e) })
    (fun front => ⟨f.entities.map StoredEntity.ofEntity, f.imports.map StoredImport.ofImport,
      front.map StoredExport.ofExport⟩)
    (fun _ _ _ => storeExport_ofExport.trans (and_congr_left' List.forall_mem_singleton))
    (fun front e now hnow => ?_) h₂.own).mono
    (fun _ _ h => ⟨h₂.trans h.1, hfirst, hsecond, h.2⟩) fun after h => ⟨h₂.touches.trans h.1, fun hf => ?_⟩
  · simpa [hnow] using now.rewrites_export fileId (.ofExport e)
  · obtain ⟨_, e, he, hno⟩ := h
    exact hno (hf.exports e he)

end

end CodeAtlas.Store
