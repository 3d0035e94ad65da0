import CodeAtlas.Proofs.Keyed
import CodeAtlas.Proofs.Store.Drafts
import CodeAtlas.Proofs.Store.Rows
import Mathlib.Data.List.DropRight

/-! # The index as dictionaries of lists

The records of all files share a table for each sort, and numbers of rows that are gone are given again.
What the index says of a file is all the same what dictionaries of lists say that were asked the same: the
records stored under the file since they were last deleted, one after the other and each of them as it was
given. A call that fails leaves nothing behind. -/

namespace CodeAtlas.Store

open CodeAtlas.Outline
open CodeAtlas.Store.Process (on)

/-! ## Records of all sorts -/

inductive RecordSort
  | entities
  | imports
  | exports
  deriving Repr, DecidableEq

inductive IndexRecord
  | entity (e : Entity)
  | imported (i : Import)
  | exported (e : Export)
  deriving Repr, DecidableEq

inductive IndexDraft
  | entity (d : EntityDraft)
  | imported (d : ImportDraft)
  | exported (d : ExportDraft)
  deriving Repr, DecidableEq

def IndexDraft.sort : IndexDraft → RecordSort
  | entity _ => .entities
  | imported _ => .imports
  | exported _ => .exports

def IndexDraft.integers : IndexDraft → List Int
  | entity d => d.integers
  | imported d => d.integers
  | exported d => d.integers

def IndexDraft.complete : IndexDraft → Except StoreError IndexRecord
  | entity d => d.complete.map .entity
  | imported d => d.complete.map .imported
  | exported d => d.complete.map .exported

namespace IndexRecord

def sort : IndexRecord → RecordSort
  | entity _ => .entities
  | imported _ => .imports
  | exported _ => .exports

/-- The draft with all fields of a record. -/
def draft : IndexRecord → IndexDraft
  | entity e => .entity (.ofEntity e)
  | imported i => .imported (.ofImport i)
  | exported e => .exported (.ofExport e)

/-- All integers of a record fit into a row. -/
def Fits (r : IndexRecord) : Prop := ∀ n ∈ r.draft.integers, isStorable n = true

end IndexRecord

/-- What is stored of a draft, if it can be stored. -/
def IndexDraft.record? (d : IndexDraft) : Option IndexRecord :=
  (checkIntegers d.integers).toOption.bind fun _ => d.complete.toOption

theorem IndexDraft.complete_eq_ok {d : IndexDraft} {r : IndexRecord} :
    d.complete = .ok r ↔ d = r.draft := by
  constructor
  · intro h
    cases d with
    | entity d =>
      obtain ⟨e, he, rfl⟩ := exists_of_map_ok h
      rw [EntityDraft.complete_eq_ok.mp he, IndexRecord.draft]
    | imported d =>
      obtain ⟨i, hi, rfl⟩ := exists_of_map_ok h
      rw [ImportDraft.complete_eq_ok.mp hi, IndexRecord.draft]
    | exported d =>
      obtain ⟨e, he, rfl⟩ := exists_of_map_ok h
      rw [ExportDraft.complete_eq_ok.mp he, IndexRecord.draft]
  · rintro rfl
    cases r <;> rfl

theorem IndexDraft.record?_eq_some {d : IndexDraft} {r : IndexRecord} :
    d.record? = some r ↔ d = r.draft ∧ r.Fits := by
  rw [record?, Option.bind_eq_some_iff]
  constructor
  · rintro ⟨_, hfits, hcomplete⟩
    obtain rfl := complete_eq_ok.mp (eq_ok_of_toOption hcomplete)
    exact ⟨rfl, checkIntegers_eq_ok.mp (eq_ok_of_toOption hfits)⟩
  · rintro ⟨rfl, hfits⟩
    rw [checkIntegers_eq_ok.mpr hfits, complete_eq_ok.mpr rfl]
    exact ⟨(), rfl, rfl⟩

/-! ## Calls of the index -/

namespace Database

def create (db : Database) (fileId? : Option String) : IndexDraft → Except StoreError Database
  | .entity d => db.storeEntity fileId? d
  | .imported d => db.storeImport fileId? d
  | .exported d => db.storeExport fileId? d

def delete (db : Database) (sort : RecordSort) (fileId : String) : Except StoreError Database :=
  match sort with
  | .entities => db.deleteEntities fileId
  | .imports => db.deleteImports fileId
  | .exports => db.deleteExports fileId

def list (db : Database) (sort : RecordSort) (fileId : String) :
    Except StoreError (List IndexRecord) :=
  match sort with
  | .entities => (db.entitiesOf fileId).map (·.map .entity)
  | .imports => (db.importsOf fileId).map (·.map .imported)
  | .exports => (db.exportsOf fileId).map (·.map .exported)

end Database

/-- A call of the index. A file may be missing where something is created. -/
inductive IndexCall
  | create (fileId? : Option String) (d : IndexDraft)
  | delete (sort : RecordSort) (fileId : String)
  | list (sort : RecordSort) (fileId : String)
  deriving Repr, DecidableEq

namespace IndexCall

/-- The database after a call, which stays as it was if the call fails. -/
def serve (call : IndexCall) (db : Database) : Database :=
  match call with
  | create fileId? d => (db.create fileId? d).toOption.getD db
  | delete sort fileId => (db.delete sort fileId).toOption.getD db
  | list _ _ => db

end IndexCall

/-- For each sort of records a dictionary with the lists of all files. -/
def Shelves : Type := RecordSort → Keyed (List IndexRecord)

namespace Shelves

def empty : Shelves := fun _ => []

def create (s : Shelves) (fileId : String) (r : IndexRecord) : Shelves := fun sort =>
  if sort = r.sort then (s sort).alter fileId fun rs? => rs?.getD [] ++ [r] else s sort

def delete (s : Shelves) (sort : RecordSort) (fileId : String) : Shelves := fun other =>
  if other = sort then (s other).filter (·.1 != fileId) else s other

def list (s : Shelves) (sort : RecordSort) (fileId : String) : List IndexRecord :=
  ((s sort).get? fileId).getD []

/-- The dictionaries after a call. They take what the index accepts. -/
def serve (s : Shelves) : IndexCall → Shelves
  | .create (some fileId) d => match d.record? with
    | some r => s.create fileId r
    | none => s
  | .create none _ => s
  | .delete sort fileId => s.delete sort fileId
  | .list _ _ => s

theorem list_create (s : Shelves) (fileId : String) (r : IndexRecord) (sort : RecordSort)
    (other : String) : (s.create fileId r).list sort other =
      if r.sort = sort ∧ fileId = other then s.list sort other ++ [r] else s.list sort other := by
  unfold list create
  by_cases hs : r.sort = sort
  · by_cases ho : fileId = other
    · simp [hs, ho, Keyed.get?_alter_self]
    · simp [hs, ho, Keyed.get?_alter_of_ne _ _ ho]
  · simp [hs, Ne.symm hs]

theorem list_delete (s : Shelves) (sort : RecordSort) (fileId : String) (sort' : RecordSort)
    (other : String) : (s.delete sort fileId).list sort' other =
      if sort = sort' ∧ fileId = other then [] else s.list sort' other := by
  unfold list delete
  by_cases hs : sort = sort'
  · by_cases ho : fileId = other
    · simp [hs, ho, Keyed.get?_filter_self]
    · simp [hs, ho, Keyed.get?_filter_of_ne _ (Ne.symm ho)]
  · simp [hs, Ne.symm hs]

end Shelves

namespace Table

variable {α : Type} {t : Table α}

/-- Rows are stored with ever larger numbers. -/
def Ascending (t : Table α) : Prop := (t.map (·.id)).Pairwise (· < ·)

theorem Ascending.add (h : t.Ascending) (fileId : String) (record : α) :
    (t.add fileId record).Ascending := by
  rw [Ascending, Table.add, List.map_append, List.map_singleton, List.pairwise_append]
  refine ⟨h, List.pairwise_singleton .., fun id hid n hn => ?_⟩
  obtain rfl := List.mem_singleton.mp hn
  exact Nat.lt_succ_of_le ((le_foldl_max (t.map (·.id)) 0).2 id hid)

theorem Ascending.erase (h : t.Ascending) (fileId : String) : (t.erase fileId).Ascending :=
  h.sublist (List.filter_sublist.map _)

end Table

namespace Tables

variable {t : Tables}

structure Ascending (t : Tables) : Prop where
  entities : t.entities.Ascending
  imports : t.imports.Ascending
  exports : t.exports.Ascending

/-- The tables with a new record of a file. -/
def put (t : Tables) (fileId : String) : IndexRecord → Tables
  | .entity e => { t with entities := t.entities.add fileId (.ofEntity e) }
  | .imported i => { t with imports := t.imports.add fileId (.ofImport i) }
  | .exported e => { t with exports := t.exports.add fileId (.ofExport e) }

/-- The tables without the records of one sort of a file. -/
def clear (t : Tables) (sort : RecordSort) (fileId : String) : Tables :=
  match sort with
  | .entities => { t with entities := t.entities.erase fileId }
  | .imports => { t with imports := t.imports.erase fileId }
  | .exports => { t with exports := t.exports.erase fileId }

theorem Ascending.put (h : t.Ascending) (fileId : String) (r : IndexRecord) :
    (t.put fileId r).Ascending := by
  cases r with
  | entity e => exact { h with entities := h.entities.add fileId _ }
  | imported i => exact { h with imports := h.imports.add fileId _ }
  | exported e => exact { h with exports := h.exports.add fileId _ }

theorem Ascending.clear (h : t.Ascending) (sort : RecordSort) (fileId : String) :
    (t.clear sort fileId).Ascending := by
  cases sort with
  | entities => exact { h with entities := h.entities.erase fileId }
  | imports => exact { h with imports := h.imports.erase fileId }
  | exports => exact { h with exports := h.exports.erase fileId }

/-! ## What the index answers -/

/-- Something is stored exactly if its file is given and it is a record that fits into a row. -/
theorem create_eq_ok {fileId? : Option String} {d : IndexDraft} {db : Database} :
    (on t).create fileId? d = .ok db ↔
      ∃ fileId r, fileId? = some fileId ∧ d = r.draft ∧ r.Fits ∧ db = on (t.put fileId r) := by
  constructor
  · intro h
    cases d with
    | entity d =>
      obtain ⟨fileId, e, hfile, rfl, hfits, hdb⟩ := storeEntity_eq_ok.mp h
      exact ⟨fileId, .entity e, hfile, rfl, hfits, hdb⟩
    | imported d =>
      obtain ⟨fileId, i, hfile, rfl, hfits, hdb⟩ := storeImport_eq_ok.mp h
      exact ⟨fileId, .imported i, hfile, rfl, hfits, hdb⟩
    | exported d =>
      obtain ⟨fileId, e, hfile, rfl, hfits, hdb⟩ := storeExport_eq_ok.mp h
      exact ⟨fileId, .exported e, hfile, rfl, hfits, hdb⟩
  · rintro ⟨fileId, r, hfile, rfl, hfits, hdb⟩
    cases r with
    | entity e => exact storeEntity_eq_ok.mpr ⟨fileId, e, hfile, rfl, hfits, hdb⟩
    | imported i => exact storeImport_eq_ok.mpr ⟨fileId, i, hfile, rfl, hfits, hdb⟩
    | exported e => exact storeExport_eq_ok.mpr ⟨fileId, e, hfile, rfl, hfits, hdb⟩

theorem delete_eq_ok (t : Tables) (sort : RecordSort) (fileId : String) :
    (on t).delete sort fileId = .ok (on (t.clear sort fileId)) := by
  cases sort <;> rfl

theorem list_entities (t : Tables) (fileId : String) : (on t).list .entities fileId =
    ((t.entities.ofFile fileId).mapM StoredEntity.read).map (·.map .entity) := rfl

theorem list_imports (t : Tables) (fileId : String) :
    (on t).list .imports fileId =
    .ok (((t.imports.ofFile fileId).map (·.read)).map .imported) := rfl

theorem list_exports (t : Tables) (fileId : String) :
    (on t).list .exports fileId =
    .ok (((t.exports.ofFile fileId).map (·.read)).map .exported) := rfl

/-- A new record comes last among those of its sort and its file. -/
theorem list_put_self {fileId : String} {r : IndexRecord} {rs : List IndexRecord}
    (hrs : (on t).list r.sort fileId = .ok rs) :
    (on (t.put fileId r)).list r.sort fileId = .ok (rs ++ [r]) := by
  cases r with
  | entity e =>
    rw [IndexRecord.sort, list_entities] at hrs
    obtain ⟨es, hes, rfl⟩ := exists_of_map_ok hrs
    have hread : (t.entities.ofFile fileId ++ [StoredEntity.ofEntity e]).mapM StoredEntity.read =
        .ok (es ++ [e]) := by
      rw [List.mapM_append, hes, List.mapM_cons, StoredEntity.read_ofEntity]
      rfl
    rw [IndexRecord.sort, list_entities, put, Table.ofFile_add_self, hread]
    exact congrArg Except.ok List.map_append
  | imported i =>
    cases hrs
    rw [IndexRecord.sort, list_imports, put, Table.ofFile_add_self]
    simp
  | exported e =>
    cases hrs
    rw [IndexRecord.sort, list_exports, put, Table.ofFile_add_self]
    simp

theorem list_put_of_ne {fileId other : String} {sort : RecordSort} (t : Tables) (r : IndexRecord)
    (h : ¬ (r.sort = sort ∧ fileId = other)) :
    (on (t.put fileId r)).list sort other = (on t).list sort other := by
  by_cases hs : r.sort = sort
  · subst hs
    have ho : fileId ≠ other := fun ho => h ⟨rfl, ho⟩
    cases r with
    | entity e =>
      rw [IndexRecord.sort, list_entities, put, Table.ofFile_add_of_ne _ _ ho, list_entities]
    | imported i =>
      rw [IndexRecord.sort, list_imports, put, Table.ofFile_add_of_ne _ _ ho, list_imports]
    | exported e =>
      rw [IndexRecord.sort, list_exports, put, Table.ofFile_add_of_ne _ _ ho, list_exports]
  · cases r <;> cases sort <;> first | rfl | exact absurd rfl hs

theorem list_clear_self (t : Tables) (sort : RecordSort) (fileId : String) :
    (on (t.clear sort fileId)).list sort fileId = .ok [] := by
  cases sort with
  | entities =>
    rw [list_entities, clear, Table.ofFile_erase_self]
    rfl
  | imports =>
    rw [list_imports, clear, Table.ofFile_erase_self]
    rfl
  | exports =>
    rw [list_exports, clear, Table.ofFile_erase_self]
    rfl

theorem list_clear_of_ne {sort sort' : RecordSort} {fileId other : String} (t : Tables)
    (h : ¬ (sort = sort' ∧ fileId = other)) :
    (on (t.clear sort fileId)).list sort' other = (on t).list sort' other := by
  by_cases hs : sort = sort'
  · subst hs
    have ho : fileId ≠ other := fun ho => h ⟨rfl, ho⟩
    cases sort with
    | entities => rw [list_entities, clear, Table.ofFile_erase_of_ne _ ho, list_entities]
    | imports => rw [list_imports, clear, Table.ofFile_erase_of_ne _ ho, list_imports]
    | exports => rw [list_exports, clear, Table.ofFile_erase_of_ne _ ho, list_exports]
  · cases sort <;> cases sort' <;> first | rfl | exact absurd rfl hs

/-- Tables in which rows are numbered upwards and which say of every file what dictionaries say. -/
structure Holds (t : Tables) (s : Shelves) : Prop where
  ascending : t.Ascending
  lists : ∀ sort fileId, (on t).list sort fileId = .ok (s.list sort fileId)

/-- A call does the same to the tables as to the dictionaries. -/
theorem Holds.serve {s : Shelves} (h : t.Holds s) (call : IndexCall) :
    ∃ after, call.serve (on t) = on after ∧ after.Holds (s.serve call) := by
  cases call with
  | list sort fileId => exact ⟨t, rfl, h⟩
  | delete sort fileId =>
    refine ⟨t.clear sort fileId, by rw [IndexCall.serve, delete_eq_ok]; rfl,
      h.ascending.clear sort fileId, fun sort' other => ?_⟩
    rw [Shelves.serve, Shelves.list_delete]
    split
    · next he =>
      obtain ⟨rfl, rfl⟩ := he
      exact t.list_clear_self sort fileId
    · next hne => rw [t.list_clear_of_ne hne, h.lists]
  | create fileId? d =>
    rw [IndexCall.serve]
    cases hdb : (on t).create fileId? d with
    | ok db =>
      obtain ⟨fileId, r, rfl, rfl, hfits, rfl⟩ := create_eq_ok.mp hdb
      have hserve : s.serve (.create (some fileId) r.draft) = s.create fileId r := by
        rw [Shelves.serve, IndexDraft.record?_eq_some.mpr ⟨rfl, hfits⟩]
      rw [hserve]
      refine ⟨t.put fileId r, rfl, h.ascending.put fileId r, fun sort other => ?_⟩
      rw [Shelves.list_create]
      split
      · next he =>
        obtain ⟨rfl, rfl⟩ := he
        exact list_put_self (h.lists r.sort fileId)
      · next hne => rw [t.list_put_of_ne r hne, h.lists]
    | error e =>
      refine ⟨t, rfl, ?_⟩
      cases fileId? with
      | none => exact h
      | some fileId =>
        have hnone : d.record? = none := by
          refine Option.eq_none_iff_forall_ne_some.mpr fun r hr => ?_
          obtain ⟨hd, hfits⟩ := IndexDraft.record?_eq_some.mp hr
          have hok : (on t).create (some fileId) d = .ok (on (t.put fileId r)) :=
            create_eq_ok.mpr ⟨fileId, r, rfl, hd, hfits, rfl⟩
          cases hdb.symm.trans hok
        rw [Shelves.serve, hnone]
        exact h

end Tables

end CodeAtlas.Store
