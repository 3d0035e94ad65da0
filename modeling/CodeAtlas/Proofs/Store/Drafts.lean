import CodeAtlas.Proofs.Attempts
import CodeAtlas.Store.Database

/-! # Which drafts are stored

A draft is stored exactly if it is that of a record, with all fields that a row must have, and its integers
are those of a row. What is stored then is this record, times being kept as universal ones. -/

namespace CodeAtlas.Time.Moment

theorem toUtc_offset {m u : Moment} (h : m.toUtc = .ok u) : u.offset? = some 0 := by
  unfold toUtc at h
  split at h
  · cases h
    rfl
  · split at h
    · cases h
      rfl
    · cases h

/-- Universal time is stored without saying so, and read as what it is. -/
theorem toNaiveUtc_eq_ok {m n : Moment} :
    m.toNaiveUtc = .ok n ↔ m.toUtc = .ok n.assumeUtc ∧ n.offset? = none := by
  obtain ⟨wall, offset?⟩ := m
  obtain ⟨wall', offset?'⟩ := n
  cases offset? with
  | none => cases offset?' <;> simp [toNaiveUtc, toUtc, assumeUtc]
  | some offset =>
    simp only [toNaiveUtc, toUtc, ofInstant]
    split
    · cases offset?' <;> simp [assumeUtc]
    · simp

theorem toNaiveUtc_of_toUtc {m u : Moment} (h : m.toUtc = .ok u) :
    m.toNaiveUtc = .ok ⟨u.wall, none⟩ := by
  refine toNaiveUtc_eq_ok.mpr ⟨?_, rfl⟩
  rw [h, assumeUtc, Option.getD_none, ← toUtc_offset h]

end CodeAtlas.Time.Moment

namespace CodeAtlas.Store

open CodeAtlas.Outline

theorem required_eq_ok {α : Type} {table : TableName} {column : String} {a? : Option α} {a : α} :
    required table column a? = .ok a ↔ a? = some a := by
  cases a? <;> simp [required]

theorem checkIntegers_eq_ok {ns : List Int} {u : Unit} :
    checkIntegers ns = .ok u ↔ ∀ n ∈ ns, isStorable n = true := by
  rw [checkIntegers, ← List.all_eq_true]
  split <;> simp [*]

/-- A draft has all fields that a row must have only if it is the draft of an entity. -/
theorem EntityDraft.complete_eq_ok {d : EntityDraft} {e : Entity} :
    d.complete = .ok e ↔ d = .ofEntity e := by
  constructor
  · intro h
    simp only [complete, bind_eq_ok, required_eq_ok] at h
    obtain ⟨id, hid, name, hname, startLine, hstart, endLine, hend, startColumn, hcolumn,
      endColumn, hlast, h⟩ := h
    cases d
    cases h
    simp_all [ofEntity]
  · rintro rfl
    rfl

theorem ImportDraft.complete_eq_ok {d : ImportDraft} {i : Import} :
    d.complete = .ok i ↔ d = .ofImport i := by
  constructor
  · intro h
    simp only [complete, bind_eq_ok, required_eq_ok] at h
    obtain ⟨source, hsource, isDefault, hdefault, isNamespace, hnamespace, line, hline, h⟩ := h
    cases d
    cases h
    simp_all [ofImport]
  · rintro rfl
    rfl

theorem ExportDraft.complete_eq_ok {d : ExportDraft} {e : Export} :
    d.complete = .ok e ↔ d = .ofExport e := by
  constructor
  · intro h
    simp only [complete, bind_eq_ok, required_eq_ok] at h
    obtain ⟨name, hname, isDefault, hdefault, line, hline, h⟩ := h
    cases d
    cases h
    simp_all [ofExport]
  · rintro rfl
    rfl

/-! ## Files -/

section

variable {d : FileDraft}

/-- The size and the universal time that a draft gives to a file, if they can be stored. -/
def FileDraft.values? (d : FileDraft) : Option (Int × Time.Moment) := do
  let modified ← d.modified.toUtc.toOption
  let size ← d.size?
  if isStorable size then some (size, modified) else none

/-- What a project has of a file is what the draft says, and the draft can be stored. -/
structure FileDraft.Describes (d : FileDraft) (projectId? : Option String) (r : FileRecord) :
    Prop where
  project : projectId? = some r.projectId
  path : d.path? = some r.path
  name : d.name? = some r.name
  kind : d.kind = r.kind
  values : d.values? = some (r.size, r.modified)
  extension? : d.extension? = r.extension?
  content? : d.content? = r.content?

theorem FileDraft.values?_eq_some {size : Int} {modified : Time.Moment} :
    d.values? = some (size, modified) ↔
      d.modified.toUtc = .ok modified ∧ d.size? = some size ∧ isStorable size = true := by
  simp only [values?, Option.bind_eq_bind, Option.bind_eq_some_iff]
  constructor
  · rintro ⟨m, hm, n, hn, h⟩
    split at h
    · next hfits =>
      cases h
      exact ⟨eq_ok_of_toOption hm, hn, hfits⟩
    · cases h
  · rintro ⟨hm, hn, hfits⟩
    exact ⟨modified, by rw [hm]; rfl, size, hn, by rw [if_pos hfits]⟩

end

end CodeAtlas.Store
