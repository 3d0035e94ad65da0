import CodeAtlas.Proofs.Store.Records
import Mathlib.Data.List.Forall2

/-! # Databases without content

The content of a file is a column on which nothing else depends. So what a function of the store does to a
database without content is what it does to the database, without content. Processes that are built from such
functions may work on metadata with and without content; `x.Bares R y` says that `y` ends on every database
without content as `x` does on the database, and with `R` between their results. -/

namespace CodeAtlas.Store

open CodeAtlas.Outline

/-! ## Leaving content out -/

def FileRecord.bare (r : FileRecord) : FileRecord := { r with content? := none }

def FileDraft.bare (d : FileDraft) : FileDraft := { d with content? := none }

/-- The tables with the column of contents empty. -/
def Tables.bare (t : Tables) : Tables := { t with files := t.files.map FileRecord.bare }

def Database.bare (db : Database) : Database := ⟨db.tables?.map Tables.bare⟩

namespace Database

open Process (on)

variable (db : Database)

end Database

/-! ## Processes -/

namespace Process

variable {ε α α' β β' : Type}

/-- What `x` does to a database, `y` does to the database without content, and `R` relates what they
yield. Both stop with the same error or do not stop at all. -/
def SameBare (x : Process ε α) (R : α → α' → Prop) (y : Process ε α') : Prop :=
  ∀ db, (∃ a a' after, x db = (.ok a, after) ∧ y db.bare = (.ok a', after.bare) ∧ R a a') ∨
    ∃ e after, x db = (.error e, after) ∧ y db.bare = (.error e, after.bare)

namespace SameBare

variable {x : Process ε α} {y : Process ε α'} {R : α → α' → Prop}

theorem pure {a : α} {a' : α'} (h : R a a') :
    (Pure.pure a : Process ε α).SameBare R (Pure.pure a') :=
  fun db => Or.inl ⟨a, a', db, rfl, rfl, h⟩

theorem bind {f : α → Process ε β} {g : α' → Process ε β'} {S : β → β' → Prop}
    (h : x.SameBare R y) (hf : ∀ a a', R a a' → (f a).SameBare S (g a')) :
    (x >>= f).SameBare S (y >>= g) := by
  intro db
  rcases h db with ⟨a, a', after, hx, hy, hr⟩ | ⟨e, after, hx, hy⟩
  · rw [bind_of_ok hx, bind_of_ok hy]
    exact hf a a' hr after
  · exact Or.inr ⟨e, after, bind_of_error hx, bind_of_error hy⟩

theorem expect {result : Except ε α} {result' : Except ε α'} {k : α → α'}
    (h : result' = result.map k) :
    (Process.expect result).SameBare (fun a a' => result = .ok a ∧ a' = k a)
      (Process.expect result') := by
  intro db
  rw [h]
  cases result with
  | ok a => exact Or.inl ⟨a, k a, db, rfl, rfl, rfl, rfl⟩
  | error e => exact Or.inr ⟨e, db, rfl, rfl⟩

section Steps

variable [Coe StoreError ε]

theorem query {f : Database → Except StoreError α} {g : Database → Except StoreError α'} {k : α → α'}
    (h : ∀ db, g db.bare = (f db).map k) :
    (Process.query f : Process ε α).SameBare (fun a a' => a' = k a) (Process.query g) := by
  intro db
  rw [Process.query, Process.query, h]
  cases f db with
  | ok a => exact Or.inl ⟨a, k a, db, rfl, rfl, rfl⟩
  | error e => exact Or.inr ⟨(e : ε), db, rfl, rfl⟩

theorem step {f : Database → Except StoreError (α × Database)}
    {g : Database → Except StoreError (α' × Database)} {k : α → α'}
    (h : ∀ db, g db.bare = (f db).map fun r => (k r.1, r.2.bare)) :
    (Process.step f : Process ε α).SameBare (fun a a' => a' = k a) (Process.step g) := by
  intro db
  rw [Process.step, Process.step, h]
  cases f db with
  | ok r => exact Or.inl ⟨r.1, k r.1, r.2, rfl, rfl, rfl⟩
  | error e => exact Or.inr ⟨(e : ε), db, rfl, rfl⟩

theorem update {f g : Database → Except StoreError Database}
    (h : ∀ db, g db.bare = (f db).map Database.bare) :
    (Process.update f : Process ε Unit).SameBare (fun _ _ => True) (Process.update g) := by
  intro db
  rw [Process.update, Process.update, h]
  cases f db with
  | ok after => exact Or.inl ⟨(), (), after, rfl, rfl, trivial⟩
  | error e => exact Or.inr ⟨(e : ε), db, rfl, rfl⟩

end Steps

/-- Two loops over lists whose elements belong together. -/
theorem mapM {f : α → Process ε β} {g : α' → Process ε β'} {S : β → β' → Prop} {l : List α}
    {l' : List α'} (h : ∀ a a', R a a' → (f a).SameBare S (g a')) (hl : List.Forall₂ R l l') :
    (l.mapM f).SameBare (List.Forall₂ S) (l'.mapM g) := by
  induction hl with
  | nil => exact pure .nil
  | cons ha _ ih =>
    rw [List.mapM_cons, List.mapM_cons]
    refine (h _ _ ha).bind fun b b' hb => ?_
    exact ih.bind fun bs bs' hbs => pure (.cons hb hbs)

/-- Two loops over one list. -/
theorem forM {f g : α → Process ε Unit} (l : List α)
    (h : ∀ a ∈ l, (f a).SameBare (fun _ _ => True) (g a)) :
    (l.forM f).SameBare (fun _ _ => True) (l.forM g) := by
  induction l with
  | nil => exact pure trivial
  | cons a l ih =>
    obtain ⟨ha, hl⟩ := List.forall_mem_cons.mp h
    exact ha.bind fun _ _ _ => ih hl

end SameBare

section

variable [Coe StoreError ε] (fileId : String) (f : ParsedFile)

end

end Process

end CodeAtlas.Store
