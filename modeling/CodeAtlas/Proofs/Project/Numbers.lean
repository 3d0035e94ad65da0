import CodeAtlas.Proofs.Project.Requests

/-! # The numbers of files

A file goes by the number of its row, also for those who keep that number while the registry changes. A
new row gets the number after the largest one, so a number is given again once no row with this number or
a larger one is left; before that it stays with its row. -/

namespace CodeAtlas.Project

open CodeAtlas.Disk CodeAtlas.Scan CodeAtlas.Store
open CodeAtlas.Store.Process (on)

/-- Whether after some of the later requests all rows had numbers below this one. -/
def Released (past later : List Request) (id : Nat) : Prop :=
  ∃ mid now, mid <:+ later ∧ served (mid ++ past) = on now ∧ ∀ r ∈ now.files, r.id < id

theorem Released.cons {past later : List Request} {id : Nat} (h : Released past later id)
    (q : Request) : Released past (q :: later) id := by
  obtain ⟨mid, now, hmid, hnow, hall⟩ := h
  exact ⟨mid, now, hmid.trans (List.suffix_cons q later), hnow, hall⟩

/-- A row that has the number of an earlier one is that row, unless the number had been released. -/
theorem becomes_or_released {past : List Request} {t : Tables} (ht : served past = on t) {r : FileRecord}
    (hr : r ∈ t.files) (later : List Request) : ∀ {now}, served (later ++ past) = on now →
      ∀ r' ∈ now.files, r'.id = r.id → r.Becomes r' ∨ Released past later r.id := by
  obtain ⟨t', ht', howned, _⟩ := exists_tables past
  cases ht.symm.trans ht'
  induction later with
  | nil =>
    intro now hnow r' hr' hid
    cases ht.symm.trans hnow
    rw [howned.eq_of_id_eq hr' hr hid]
    exact Or.inl (.refl r)
  | cons q later ih =>
    intro after hafter r' hr' hid
    obtain ⟨now, hnow, hrows, _⟩ := exists_tables (later ++ past)
    obtain ⟨after', hserve, hadvances⟩ := q.serve_advances hrows
    rw [List.cons_append, served, hnow, hserve] at hafter
    cases hafter
    rcases hadvances.rows r' hr' with ⟨r₀, hr₀, hold⟩ | ⟨_, hlarger⟩
    · rcases ih hnow r₀ hr₀ (hold.id.symm.trans hid) with hsame | hreleased
      · exact Or.inl (hsame.trans hold)
      · exact Or.inr (hreleased.cons q)
    · exact Or.inr ⟨later, now, List.suffix_cons q later, hnow, fun r₀ hr₀ => hid ▸ hlarger r₀ hr₀⟩

/-- A number that a file once had leads to nothing as long as no row has it, and a row that has it later is
of the same project and path, unless in between there was a time when all rows had smaller numbers. -/
theorem numbers_of_requests (past later : List Request) : ∃ t t', served past = on t ∧
    served (later ++ past) = on t' ∧ ∀ r ∈ t.files,
      ((∀ r' ∈ t'.files, r'.fileId ≠ r.fileId) → t'.recordsOf r.fileId = .none) ∧
      ∀ r' ∈ t'.files, r'.fileId = r.fileId →
        (r'.projectId = r.projectId ∧ r'.path = r.path) ∨ Released past later r.id := by
  obtain ⟨t, ht, _⟩ := exists_tables past
  obtain ⟨t', ht', howned, _⟩ := exists_tables (later ++ past)
  refine ⟨t, t', ht, ht', fun r hr => ⟨fun hno => ?_, fun r' hr' he => ?_⟩⟩
  · exact howned.recordsOf_eq_none fun r' hr' hid => hno r' hr' (FileRecord.fileId_eq hid)
  · exact (becomes_or_released ht hr later ht' r' hr' (FileRecord.fileId_injective he)).imp_left
      FileRecord.Becomes.place

/-! ## A number that is given again -/

/-- A scan of a disk that holds these entries. -/
def scanOf (entries : List Entry) : Request := .scan .default (.holding entries) "p" "/" false none

/-- The row of the only file of a project. -/
def soleRow (path name : String) : FileRecord :=
  ⟨1, "p", path, name, .file, 1, ⟨63135596800000000, none⟩, some "txt", none⟩

/-- The number of a file that is gone is given to another file. -/
theorem not_one_file_for_ever : ¬ ∀ (past later : List Request) (t t' : Tables) (r r' : FileRecord),
    served past = on t → served (later ++ past) = on t' → r ∈ t.files → r' ∈ t'.files →
    r'.fileId = r.fileId → r'.projectId = r.projectId ∧ r'.path = r.path := by
  intro h
  have hfirst : served [scanOf [.file "a.txt" [97] defaultTime]] =
    on ⟨[soleRow "/a.txt" "a.txt"], [], [], []⟩ := by decide +kernel
  have hlast : served ([scanOf [.file "b.txt" [98] defaultTime], scanOf []] ++
    [scanOf [.file "a.txt" [97] defaultTime]]) =
    on ⟨[soleRow "/b.txt" "b.txt"], [], [], []⟩ := by decide +kernel
  have hsame := (h _ _ _ _ _ _ hfirst hlast List.mem_cons_self List.mem_cons_self rfl).2
  revert hsame
  decide

end CodeAtlas.Project
