import CodeAtlas.Proofs.Project.Repeat
import CodeAtlas.Proofs.Project.Stages
import CodeAtlas.Proofs.Scan.OneFile

/-! # One file and the others

What is in one file, when it was changed and whether it can be read has no bearing on the rows of all other
files and the numbers of these. Even the row of the file itself has the same number, name and kind; what may
differ are its size, its time and its content. The records of all other files are the same as well, unless the
call takes the file up and its reading breaks the call off.

Two passes over the same tables are compared. The file may be newer than its row for one of them only, so the
two need not take the same steps; but where they end can be read off what they find. -/

namespace CodeAtlas.Project

open CodeAtlas.Disk CodeAtlas.Scan CodeAtlas.Store
open CodeAtlas.Store.Process (on)

variable {own : String → Prop} {projectId : String} {listed : List Metadata} {r r' : FileRecord}
  {m m' : Metadata}

/-! ## Rows of one file -/

/-- Whether a row is that of something which is listed at one of the given paths. -/
def IsRowOf (own : String → Prop) (projectId : String) (listed : List Metadata) (r : FileRecord) : Prop :=
  r.projectId = projectId ∧ ∃ m ∈ listed, own m.path ∧ m.key = r.key

theorem IsRowOf.becomes (h : IsRowOf own projectId listed r) (hr : r.Becomes r') :
    IsRowOf own projectId listed r' := by
  obtain ⟨hp, m, hm, hown, hk⟩ := h
  exact ⟨hr.place.1.trans hp, m, hm, hown, hk.trans (congrArg Path.normalize hr.place.2.symm)⟩

theorem becomes_of_sameFile (h : m.SameFile m') (projectId : String) (id : Nat) :
    (FileRecord.ofMetadata projectId id m).Becomes (FileRecord.ofMetadata projectId id m') := by
  refine ⟨m'.size, m'.content?, ⟨m'.modified.wall, none⟩, ?_⟩
  simp only [FileRecord.ofMetadata, h.path, h.name, h.kind, h.extension?]

theorem exists_of_forall₂ {α β : Type} {R : α → β → Prop} {l : List α} {l' : List β}
    (h : List.Forall₂ R l l') {a : α} (ha : a ∈ l) : ∃ b ∈ l', R a b := by
  induction h with
  | nil => cases ha
  | cons hab _ ih =>
    rcases List.mem_cons.mp ha with rfl | ha
    · exact ⟨_, List.mem_cons_self, hab⟩
    · obtain ⟨b, hb, hr⟩ := ih ha
      exact ⟨b, List.mem_cons_of_mem _ hb, hr⟩

/-- Elements with which dropping goes on can be left out before. -/
theorem filter_dropWhile {α : Type} (drop drop' keep : α → Bool) (l : List α)
    (hout : ∀ a ∈ l, keep a = false → drop a = true) (hkeep : ∀ a ∈ l, keep a = true → drop a = drop' a) :
    (l.dropWhile drop).filter keep = (l.filter keep).dropWhile drop' := by
  induction l with
  | nil => rfl
  | cons a l ih =>
    have ih := ih (fun b hb => hout b (List.mem_cons_of_mem a hb))
      fun b hb => hkeep b (List.mem_cons_of_mem a hb)
    cases hk : keep a with
    | false =>
      rw [List.dropWhile_cons_of_pos (hout a List.mem_cons_self hk), List.filter_cons_of_neg (by simp [hk]), ih]
    | true =>
      rw [List.filter_cons_of_pos hk]
      have hsame := hkeep a List.mem_cons_self hk
      cases hd : drop a with
      | true => rw [List.dropWhile_cons_of_pos hd, List.dropWhile_cons_of_pos (hsame ▸ hd), ih]
      | false =>
        rw [List.dropWhile_cons_of_neg (by simp [hd]), List.dropWhile_cons_of_neg (by simp [← hsame, hd]),
          List.filter_cons_of_pos hk]

theorem breaksAt_congr {d d' : Disk} (h : d'.readText? m.path = d.readText? m.path) :
    breaksAt d' m = breaksAt d m := by
  simp only [breaksAt, indexes, h]

/-- If nothing at the given paths breaks a call off, then what it does not get to of all else can be read off
the other files. -/
theorem mem_unreached_iff_of_quiet [DecidablePred own] {d d' : Disk} {l : List Metadata}
    (hsame : ∀ m : Metadata, ¬ own m.path → breaksAt d' m = breaksAt d m)
    (hquiet : ∀ m ∈ l, own m.path → breaksAt d' m = false) {path : String} (hother : ¬ own path) :
    path ∈ unreached d' l ↔
      path ∈ unreached d (l.filter fun m => ¬ own m.path) := by
  have hfilter := filter_dropWhile (fun m => !breaksAt d' m) (fun m => !breaksAt d m)
    (fun m => ¬ own m.path) l (fun m hm hown => ?_) fun m hm hown => ?_
  · simp only [unreached, ← hfilter, List.mem_map, List.mem_filter, decide_eq_true_eq]
    refine exists_congr fun m => ?_
    constructor
    · rintro ⟨hm, rfl⟩
      exact ⟨⟨hm, hother⟩, rfl⟩
    · rintro ⟨⟨hm, _⟩, hpath⟩
      exact ⟨hm, hpath⟩
  · rw [hquiet m hm (by simpa using hown)]
    rfl
  · rw [hsame m (by simpa using hown)]

namespace Pass

/-- Two passes over the same tables that find the same, but for what is at the given paths. -/
structure SameBut (p : Pass) (own : String → Prop) (p' : Pass) : Prop where
  tables : p'.tables = p.tables
  projectId : p'.projectId = p.projectId
  found : List.Forall₂ (Metadata.SameBut own) p.found p'.found

variable {p p' : Pass}

theorem becomes_renewedBy (p : Pass) (ms : List Metadata) (r : FileRecord) :
    r.Becomes (p.renewedBy ms r) := by
  unfold renewedBy
  split
  · exact ⟨_, _, _, rfl⟩
  · exact .refl r

namespace SameBut

/-! ## What there is to do -/

theorem symm (h : p.SameBut own p') : p'.SameBut own p where
  tables := h.tables.symm
  projectId := h.projectId.symm
  found := List.Forall₂.flip (h.found.imp fun _ _ hm => Metadata.SameBut.symm hm)

theorem rowOf? (h : p.SameBut own p') (hm : m.SameBut own m') : p'.rowOf? m' = p.rowOf? m := by
  rw [Pass.rowOf?, Pass.rowOf?, h.tables, h.projectId, hm.key]

theorem mem_found (h : p.SameBut own p') (hm : m ∈ p.found) : ∃ m' ∈ p'.found, m.SameBut own m' :=
  exists_of_forall₂ h.found hm

theorem drops (h : p.SameBut own p') : p'.drops = p.drops := by
  have hkeys : List.Forall₂ Eq (p.found.map Metadata.key) (p'.found.map Metadata.key) := by
    rw [List.forall₂_map_left_iff, List.forall₂_map_right_iff]
    exact h.found.imp fun _ _ hm => hm.key.symm
  rw [List.forall₂_eq_eq_eq] at hkeys
  funext r
  rw [Pass.drops, Pass.drops, h.projectId, hkeys]

theorem gone (h : p.SameBut own p') : p'.gone = p.gone := by
  rw [Pass.gone, Pass.gone, h.tables, h.drops]

theorem added (h : p.SameBut own p') : List.Forall₂ (Metadata.SameBut own) p.added p'.added := by
  refine List.rel_filter (fun _ _ hm => ?_) (List.rel_filter (fun _ _ hm => ?_) h.found)
  · exact iff_of_eq (congrArg (·.isNone = true) (h.rowOf? hm).symm)
  · exact iff_of_eq (congrArg (· = true) hm.isFile.symm)

/-- Whatever is at another path is newer for both passes or for neither of them. -/
theorem mem_modified_of_other (h : p.SameBut own p') (hm : m ∈ p.modified) (hother : ¬ own m.path) :
    m ∈ p'.modified := by
  obtain ⟨hm, hnewer⟩ := List.mem_filter.mp hm
  obtain ⟨hfound, hfile⟩ := List.mem_filter.mp hm
  obtain ⟨m', hfound', hsame⟩ := h.mem_found hfound
  obtain rfl := hsame.eq_of_other hother
  refine List.mem_filter.mpr ⟨List.mem_filter.mpr ⟨hfound', hfile⟩, ?_⟩
  rwa [h.rowOf? hsame]

section

variable [DecidablePred own]

/-- But for what is at the given paths, both passes have the same files to index, in the same order. -/
theorem others (h : p.SameBut own p') : (p'.added ++ p'.modified).filter (fun m => ¬ own m.path) =
    (p.added ++ p.modified).filter (fun m => ¬ own m.path) := by
  let isOther (m : Metadata) : Bool := ¬ own m.path
  have hfound : p'.found.filter isOther = p.found.filter isOther := by
    have hothers : List.Forall₂ (Metadata.SameBut own) (p.found.filter isOther) (p'.found.filter isOther) :=
      List.rel_filter (fun m m' hm => by simp [isOther, hm.sameFile.path]) h.found
    have hsame : List.Forall₂ Eq (p.found.filter isOther) (p'.found.filter isOther) := by
      refine ((List.forall₂_and_left _ _).mpr ⟨fun m hm => hm, hothers⟩).imp fun m m' hm => ?_
      have hother : ¬ own m.path := by simpa [isOther] using (List.mem_filter.mp hm.1).2
      exact (hm.2.eq_of_other hother).symm
    rw [List.forall₂_eq_eq_eq] at hsame
    exact hsame.symm
  have hrows : p'.rowOf? = p.rowOf? := by
    funext m
    rw [Pass.rowOf?, Pass.rowOf?, h.tables, h.projectId]
  have hfilter (l : List Metadata) (newer : Metadata → Bool) :
      ((l.filter (·.isFile)).filter newer).filter isOther =
        ((l.filter isOther).filter (·.isFile)).filter newer := by
    simp only [List.filter_filter]
    exact List.filter_congr fun m _ => by cases isOther m <;> simp
  simp only [List.filter_append, Pass.added, Pass.modified, hrows]
  exact congrArg₂ _ (by rw [hfilter, hfilter, hfound]) (by rw [hfilter, hfilter, hfound])

/-- If nothing at the given paths breaks a call off, then both calls do not get to the same other paths. -/
theorem mem_unreached_iff (h : p.SameBut own p') {d d' : Disk}
    (hread : ∀ path, ¬ own path → d'.readText? path = d.readText? path)
    (hquiet : ∀ m ∈ p.added ++ p.modified, own m.path → breaksAt d m = false)
    (hquiet' : ∀ m ∈ p'.added ++ p'.modified, own m.path → breaksAt d' m = false) {path : String}
    (hother : ¬ own path) :
    path ∈ unreached d' (p'.added ++ p'.modified) ↔ path ∈ unreached d (p.added ++ p.modified) := by
  rw [mem_unreached_iff_of_quiet (fun _ _ => rfl) hquiet hother, ← h.others]
  exact mem_unreached_iff_of_quiet (fun m hother => breaksAt_congr (hread m.path hother)) hquiet' hother

/-- If nothing at the given paths breaks one call off and nothing at all the other one, then the one completes
as well. -/
theorem returned_of_returned (h : p.SameBut own p') {d d' : Disk}
    (hread : ∀ path, ¬ own path → d'.readText? path = d.readText? path)
    (hquiet' : ∀ m ∈ p'.added ++ p'.modified, own m.path → breaksAt d' m = false)
    (hall : ∀ m ∈ p.added ++ p.modified, breaksAt d m = false) :
    ∀ m ∈ p'.added ++ p'.modified, breaksAt d' m = false := by
  intro m hm
  by_cases hown : own m.path
  · exact hquiet' m hm hown
  · have hothers : m ∈ (p.added ++ p.modified).filter (fun m => ¬ own m.path) :=
      h.others ▸ List.mem_filter.mpr ⟨hm, by simpa using hown⟩
    rw [breaksAt_congr (hread m.path hown)]
    exact hall m (List.mem_of_mem_filter hothers)

/-- If nothing at the given paths breaks either call off, then both complete or neither does. -/
theorem returned_iff (h : p.SameBut own p') {d d' : Disk}
    (hread : ∀ path, ¬ own path → d'.readText? path = d.readText? path)
    (hquiet : ∀ m ∈ p.added ++ p.modified, own m.path → breaksAt d m = false)
    (hquiet' : ∀ m ∈ p'.added ++ p'.modified, own m.path → breaksAt d' m = false) :
    (∀ m ∈ p'.added ++ p'.modified, breaksAt d' m = false) ↔
      ∀ m ∈ p.added ++ p.modified, breaksAt d m = false := by
  constructor
  · exact h.symm.returned_of_returned (fun path hother => (hread path hother).symm) hquiet
  · exact h.returned_of_returned hread hquiet'

end

theorem isRowOf_iff (h : p.SameBut own p') :
    IsRowOf own p'.projectId p'.found r ↔ IsRowOf own p.projectId p.found r := by
  have hone {p p' : Pass} (h : p.SameBut own p') (hr : IsRowOf own p.projectId p.found r) :
      IsRowOf own p'.projectId p'.found r := by
    obtain ⟨hp, m, hm, hown, hk⟩ := hr
    obtain ⟨m', hm', hsame⟩ := h.mem_found hm
    exact ⟨hp.trans h.projectId.symm, m', hm', hsame.sameFile.path ▸ hown, hsame.key.trans hk⟩
  exact ⟨hone h.symm, hone h⟩

/-! ## Rows -/

/-- Both passes number the new rows alike. -/
theorem created (h : p.SameBut own p') :
    List.Forall₂ (fun x x' => x' = x ∨ own x.2.path ∧ x.1.Becomes x'.1) p.created p'.created := by
  have hall {ms ms' : List Metadata} (hms : List.Forall₂ (Metadata.SameBut own) ms ms') (next : Nat) :
      List.Forall₂ (fun x x' => x' = x ∨ own x.2.path ∧ x.1.Becomes x'.1)
        ((ms.zipIdx next).map fun x => (FileRecord.ofMetadata p.projectId x.2 x.1, x.1))
        ((ms'.zipIdx next).map fun x => (FileRecord.ofMetadata p.projectId x.2 x.1, x.1)) := by
    induction hms generalizing next with
    | nil => exact .nil
    | cons hm _ ih =>
      refine .cons ?_ (ih (next + 1))
      obtain rfl | ⟨hown, hfile⟩ := hm
      · exact Or.inl rfl
      · exact Or.inr ⟨hown, becomes_of_sameFile hfile p.projectId next⟩
  rw [Pass.created, Pass.created, createdFor, createdFor, h.tables, h.projectId]
  exact hall h.added _

/-- What is newer than a row of another file is so for both passes. -/
theorem mem_modified_of_row (h : p.SameBut own p') (hm : m ∈ p.modified)
    (hother : ¬ IsRowOf own p.projectId p.found r) (hp : r.projectId = p.projectId)
    (hk : m.key = r.key) : m ∈ p'.modified := by
  have hfound : m ∈ p.found := (mem_found_of_changed (List.mem_append_right _ hm)).1
  exact h.mem_modified_of_other hm fun hown => hother ⟨hp, m, hfound, hown, hk⟩

theorem renewedBy_of_other (h : p.SameBut own p') (hready : p.Ready) (hready' : p'.Ready)
    (hother : ¬ IsRowOf own p.projectId p.found r) :
    p'.renewedBy p'.modified r = p.renewedBy p.modified r := by
  by_cases hnewer : r.projectId = p.projectId ∧ ∃ m ∈ p.modified, m.key = r.key
  · obtain ⟨hp, m, hm, hk⟩ := hnewer
    have hm' := h.mem_modified_of_row hm hother hp hk
    rw [renewedBy_of_mem (nodup_keys_modified hready) hm hp hk.symm]
    exact renewedBy_of_mem (nodup_keys_modified hready') hm' (hp.trans h.projectId.symm) hk.symm
  · rw [renewedBy_of_ne fun hp m hm hk => hnewer ⟨hp, m, hm, hk⟩]
    refine renewedBy_of_ne fun hp m hm hk => hnewer ⟨hp.trans h.projectId, m, ?_, hk⟩
    exact h.symm.mem_modified_of_row hm (fun hown => hother (h.isRowOf_iff.mp hown)) hp hk

theorem files (h : p.SameBut own p') (hready : p.Ready) (hready' : p'.Ready) {d d' : Disk}
    {after after' : Tables} (hd : p.Done d after) (hd' : p'.Done d' after') :
    List.Forall₂ (fun r r' => r' = r ∨ IsRowOf own p.projectId p.found r ∧ r.Becomes r') after.files
      after'.files := by
  rw [hd.files, hd'.files, h.tables, h.drops]
  refine List.rel_append ?_ ?_
  · rw [List.forall₂_map_left_iff, List.forall₂_map_right_iff]
    refine List.forall₂_same.mpr fun r _ => ?_
    by_cases hown : IsRowOf own p.projectId p.found r
    · have hone := p.becomes_renewedBy p.modified r
      have hother := p'.becomes_renewedBy p'.modified r
      exact Or.inr ⟨hown.becomes hone, hone.symm.trans hother⟩
    · exact Or.inl (h.renewedBy_of_other hready hready' hown)
  · rw [List.forall₂_map_left_iff, List.forall₂_map_right_iff]
    refine ((List.forall₂_and_left _ _).mpr ⟨fun x hx => hx, h.created⟩).imp ?_
    rintro x x' ⟨hx, rfl | ⟨hown, hbecomes⟩⟩
    · exact Or.inl rfl
    · have hnew := registers_of_created hx
      exact Or.inr ⟨⟨hnew.projectId, x.2, hnew.found.1, hown, hnew.key.symm⟩, hbecomes⟩

/-! ## Records -/

theorem mem_touched_of_other (h : p.SameBut own p') (hready : p.Ready) {x : FileRecord × Metadata}
    (hx : x ∈ p.touched) (hother : ¬ own x.2.path) : x ∈ p'.touched := by
  rcases List.mem_append.mp hx with hx | hx
  · obtain ⟨x', hx', rfl | ⟨hown, _⟩⟩ := exists_of_forall₂ h.created hx
    · exact List.mem_append_left _ hx'
    · exact absurd hown hother
  · obtain ⟨hm, hr, hp, hk⟩ := (mem_renewed hready.sound.rows).mp hx
    refine List.mem_append_right _ ((mem_renewed (h.tables ▸ hready.sound.rows)).mpr ?_)
    exact ⟨h.mem_modified_of_other hm hother, h.tables ▸ hr, hp.trans h.projectId.symm, hk⟩

end SameBut

/-- What is touched under a number that no row of the given paths has is at none of them. -/
theorem Done.other_of_touched {d : Disk} {after : Tables} {fileId : String} (hd : p.Done d after)
    (hready : p.Ready)
    (hno : ∀ r ∈ after.files, IsRowOf own p.projectId p.found r → r.fileId ≠ fileId)
    {x : FileRecord × Metadata} (hx : x ∈ p.touched) (hid : x.1.fileId = fileId) :
    ¬ own x.2.path := by
  intro hown
  obtain ⟨r, hr, hp, hk, hsame⟩ := hd.exists_row_of_touched hready hx
  exact hno r hr ⟨hp, x.2, (mem_found_of_touched hready hx).1, hown, hk.symm⟩ (hsame.trans hid)

theorem SameBut.recordsOf (h : p.SameBut own p') (hready : p.Ready) (hready' : p'.Ready) {d d' : Disk}
    {after after' : Tables} (hd : p.Done d after) (hd' : p'.Done d' after')
    (hread : ∀ path, ¬ own path → d'.readText? path = d.readText? path) {fileId : String}
    (hno : ∀ r ∈ after.files, IsRowOf own p.projectId p.found r → r.fileId ≠ fileId) :
    after'.recordsOf fileId = after.recordsOf fileId := by
  have hno' : ∀ r ∈ after'.files, IsRowOf own p'.projectId p'.found r → r.fileId ≠ fileId := by
    intro r hr hown he
    obtain ⟨r', hr', hsame⟩ := exists_of_forall₂ (h.symm.files hready' hready hd' hd) hr
    obtain rfl | ⟨_, hbecomes⟩ := hsame
    · exact hno r' hr' (h.isRowOf_iff.mp hown) he
    · exact hno r' hr' ((h.isRowOf_iff.mp hown).becomes hbecomes)
        ((FileRecord.fileId_eq hbecomes.id).trans he)
  by_cases htouched : ∃ x ∈ p.touched, x.1.fileId = fileId
  · obtain ⟨x, hx, rfl⟩ := htouched
    have hother := hd.other_of_touched hready hno hx rfl
    rw [hd.records_touched hready hx,
      hd'.records_touched hready' (h.mem_touched_of_other hready hx hother), h.tables]
    unfold indexes recordsFor
    rw [hread x.2.path hother]
  · have huntouched : ∀ x ∈ p.touched, x.1.fileId ≠ fileId := fun x hx he => htouched ⟨x, hx, he⟩
    have huntouched' : ∀ x ∈ p'.touched, x.1.fileId ≠ fileId := fun x hx he =>
      have hother := hd'.other_of_touched hready' hno' hx he
      huntouched x (h.symm.mem_touched_of_other hready' hx hother) he
    by_cases hgone : ∃ r ∈ p.gone, r.fileId = fileId
    · obtain ⟨r, hr, rfl⟩ := hgone
      rw [hd.dropped r hr, hd'.dropped r (h.gone ▸ hr)]
    · rw [hd.others fileId (fun x hx he => absurd he (huntouched x hx)) fun r hr he =>
          hgone ⟨r, hr, he⟩,
        hd'.others fileId (fun x hx he => absurd he (huntouched' x hx)) fun r hr he =>
          hgone ⟨r, h.gone ▸ hr, he⟩, h.tables]

end Pass

/-! ## Scans of projects -/

section

variable {s : Scanner} {d d' : Disk} {names : List String} {root : String} {content : Bool}
  {maxFileSize? : Option Int} {db : Database} {t : Tables} {found found' : List Metadata}

/-- The rows of the file to which some names lead, as far as a scan lists it. -/
def IsRowAt (s : Scanner) (d : Disk) (projectId root : String) (names : List String) :
    FileRecord → Prop :=
  IsRowOf (fun path => trueNames d.root path = .ok names) projectId (listing s d root)

theorem isRowAt_of_scan (hscan : s.scan d (scanOptions content maxFileSize?) root = .ok found) :
    IsRowAt s d projectId root names =
      IsRowOf (fun path => trueNames d.root path = .ok names) projectId found := by
  funext r
  rw [IsRowAt, IsRowOf, listing_of_scan hscan, IsRowOf]
  simp only [List.mem_map, exists_exists_and_eq_and]
  rfl

/-- Registries that differ in one row at most, and there in nothing but its size, its time and its content. -/
structure SameRowsBut (isOwn : FileRecord → Prop) (t t' : Tables) : Prop where
  rows : List.Forall₂ (fun r r' => r' = r ∨ isOwn r ∧ r.Becomes r') t.files t'.files
  single : ∀ r ∈ t.files, isOwn r → ∀ r' ∈ t.files, isOwn r' → r' = r

/-- Indexes that differ in nothing but what is stored under the number of one row. -/
def SameRecordsBut (isOwn : FileRecord → Prop) (t t' : Tables) : Prop :=
  ∀ fileId, (∀ r ∈ t.files, isOwn r → r.fileId ≠ fileId) →
    (on t').answers fileId = (on t).answers fileId

/-- The files that a call is to index: those that are new to the project and those that are newer than their
rows. -/
def toIndex (s : Scanner) (d : Disk) (projectId root : String) (db : Database) : List Metadata :=
  ((db.filesOf projectId).toOption.bind fun rows =>
    (s.changes d root (snapshotOf rows)).toOption.map fun changes =>
      changes.added ++ changes.modified).getD []

theorem toIndex_of_scan (ht : t.Sound) (hl : d.Legal) (hu : d.Unmarked)
    (hscan : s.scan d (scanOptions content maxFileSize?) root = .ok found) :
    let p : Pass := ⟨t, projectId, found⟩
    toIndex s d projectId root (on t) = (p.added ++ p.modified).map Metadata.bare := by
  intro p
  have hrows : (on t).filesOf projectId = .ok p.rows := rfl
  have hchanges : s.changes d root (snapshotOf p.rows) = .ok p.changes :=
    Pass.changes_of_scan (p := p) ht hl hu hscan
  simp [toIndex, hrows, hchanges, Except.toOption, Pass.changes]

/-- How a call ends that can list its files, and what it leaves: it completes unless a file that it is to index
breaks it off. -/
structure Ended (s : Scanner) (d : Disk) (projectId root : String) (content : Bool)
    (maxFileSize? : Option Int) (db : Database) (after : Tables) : Prop where
  database : (scanProject s d projectId root content maxFileSize? db).2 = on after
  completes : (scanProject s d projectId root content maxFileSize? db).1.isOk = true ↔
    ∀ m ∈ toIndex s d projectId root db, breaksAt d m = false
  stops : ∀ e, (scanProject s d projectId root content maxFileSize? db).1 = .error e →
    e = .nesting .exceeded

/-- Whether the file to which some names lead does not break a call off: the call has no need to index it, or
can read through it. -/
def Quiet (s : Scanner) (d : Disk) (projectId root : String) (names : List String) (db : Database) : Prop :=
  ∀ m ∈ toIndex s d projectId root db, trueNames d.root m.path = .ok names → breaksAt d m = false

theorem exists_ended (projectId : String) (ht : t.Sound) (hl : d.Legal) (hu : d.Unmarked)
    (hscan : s.scan d (scanOptions content maxFileSize?) root = .ok found) :
    let p : Pass := ⟨t, projectId, found⟩
    ∃ after, Ended s d projectId root content maxFileSize? (on t) after ∧
      p.Done (withholding d (unreached d (p.added ++ p.modified))) after := by
  intro p
  obtain ⟨after, hafter, hdone, hcompletes, hstops⟩ := Pass.scanProject_done (p := p) ht hl hu hscan
  refine ⟨after, ⟨hafter, hcompletes.trans ?_, hstops⟩, hdone⟩
  rw [toIndex_of_scan ht hl hu hscan]
  exact ⟨fun h => List.forall_mem_map.mpr h, fun h => List.forall_mem_map.mp h⟩

/-- What two calls leave whose scans both succeed. -/
theorem eq_but_for_one_file_of_scans (ht : t.Sound) (hl : d.Legal) (hu : d.Unmarked) (hl' : d'.Legal)
    (hu' : d'.Unmarked) (h : d.SameBut names d')
    (hscan : s.scan d (scanOptions content maxFileSize?) root = .ok found)
    (hscan' : s.scan d' (scanOptions content maxFileSize?) root = .ok found') :
    ∃ after after', Ended s d projectId root content maxFileSize? (on t) after ∧
      Ended s d' projectId root content maxFileSize? (on t) after' ∧
      (∀ m ∈ listing s d root, m.isFile = true →
        ∃ r ∈ after.files, r.projectId = projectId ∧ r.key = m.key) ∧
      SameRowsBut (IsRowAt s d projectId root names) after after' ∧
      (Quiet s d projectId root names (on t) → Quiet s d' projectId root names (on t) →
        ((scanProject s d' projectId root content maxFileSize? (on t)).1.isOk = true ↔
          (scanProject s d projectId root content maxFileSize? (on t)).1.isOk = true) ∧
        SameRecordsBut (IsRowAt s d projectId root names) after after') := by
  let p : Pass := ⟨t, projectId, found⟩
  let p' : Pass := ⟨t, projectId, found'⟩
  have hready : p.Ready := Pass.ready_of_scan ht hl hu hscan
  have hready' : p'.Ready := Pass.ready_of_scan ht hl' hu' hscan'
  have hsame : p.SameBut _ p' := ⟨rfl, rfl, scan_alike hl h hscan hscan'⟩
  obtain ⟨after, hended, hdone⟩ := exists_ended projectId ht hl hu hscan
  obtain ⟨after', hended', hdone'⟩ := exists_ended projectId ht hl' hu' hscan'
  have hread : ∀ path, trueNames d.root path ≠ .ok names → d'.readText? path = d.readText? path :=
    fun _ hne => h.readText? hne
  refine ⟨after, after', hended, hended', ?_, ?_, fun hquiet hquiet' => ?_⟩
  · rw [listing_of_scan hscan]
    intro m hm hf
    obtain ⟨m', hm', rfl⟩ := List.mem_map.mp hm
    exact hdone.exists_row (m := m') hready hm' hf
  · rw [isRowAt_of_scan hscan]
    refine ⟨hsame.files hready hready' hdone hdone', ?_⟩
    rintro r hr ⟨hp, m, hm, htrue, hk⟩ r' hr' ⟨hp', m', hm', htrue', hk'⟩
    obtain rfl := eq_of_trueNames_eq hl hscan hm hm' htrue htrue'
    exact hdone.rows.eq_of_key_eq hr' hr (hp'.trans hp.symm) (hk'.symm.trans hk)
  · classical
    have hown : ∀ m ∈ p.added ++ p.modified, trueNames d.root m.path = .ok names → breaksAt d m = false := by
      rw [Quiet, toIndex_of_scan ht hl hu hscan] at hquiet
      exact List.forall_mem_map.mp hquiet
    have hown' : ∀ m ∈ p'.added ++ p'.modified, trueNames d.root m.path = .ok names →
        breaksAt d' m = false := by
      rw [Quiet, toIndex_of_scan ht hl' hu' hscan'] at hquiet'
      simp only [h.root.trueNames] at hquiet'
      exact List.forall_mem_map.mp hquiet'
    refine ⟨?_, ?_⟩
    · have hboth := hsame.returned_iff hread hown hown'
      exact ((isOk_iff_of_scan ht hl' hu' hscan').trans hboth).trans (isOk_iff_of_scan ht hl hu hscan).symm
    · rw [isRowAt_of_scan hscan]
      refine fun fileId hno => Tables.answers_congr
        (hsame.recordsOf hready hready' hdone hdone' (fun path hne => ?_) hno)
      have hunreached := hsame.mem_unreached_iff hread hown hown' hne
      rw [readText?_withholding, readText?_withholding, hread path hne]
      exact if_congr hunreached rfl rfl

/-- What two calls on disks that differ in one file do to a database that scans have reached. If the root
leads nowhere, both fail alike. Otherwise they leave a row of every file that is listed, and the same rows under
the same numbers, but for the size, the time and the content of the file's own row. Each of them completes unless
a file that it is to index breaks it off. If the file itself breaks off neither of them, both complete or neither
does, and they leave the same records of every other file. -/
theorem scanProject_eq_but_for_one_file (hdb : Reached db) (hl : d.Legal) (hu : d.Unmarked)
    (ht : d.Dated) (hl' : d'.Legal) (hu' : d'.Unmarked) (ht' : d'.Dated) (h : d.SameBut names d')
    (s : Scanner) (projectId root : String) (content : Bool) (maxFileSize? : Option Int) :
    let one := scanProject s d projectId root content maxFileSize? db
    let other := scanProject s d' projectId root content maxFileSize? db
    (∃ e, d.resolve root = .error e ∧ one = (.error (.scan (.link e)), db) ∧ other = one) ∨
    ∃ after after', Ended s d projectId root content maxFileSize? db after ∧
      Ended s d' projectId root content maxFileSize? db after' ∧
      (∀ m ∈ listing s d root, m.isFile = true →
        ∃ r ∈ after.files, r.projectId = projectId ∧ r.key = m.key) ∧
      SameRowsBut (IsRowAt s d projectId root names) after after' ∧
      (Quiet s d projectId root names db → Quiet s d' projectId root names db →
        (other.1.isOk = true ↔ one.1.isOk = true) ∧
        SameRecordsBut (IsRowAt s d projectId root names) after after') := by
  intro one other
  cases hr : d.resolve root with
  | error e =>
    have hone : one = (.error (.scan (.link e)), db) := scanProject_of_error (scan_of_unresolved hr) db
    have hother : other = (.error (.scan (.link e)), db) :=
      scanProject_of_error (scan_of_unresolved ((h.resolve root).trans hr)) db
    exact Or.inl ⟨e, rfl, hone, hother.trans hone.symm⟩
  | ok path =>
    obtain ⟨t, rfl, hsound⟩ := hdb.sound
    obtain ⟨found, hscan⟩ := scan_of_dated hl ht hr
    obtain ⟨found', hscan'⟩ := scan_of_dated hl' ht' ((h.resolve root).trans hr)
    exact Or.inr (eq_but_for_one_file_of_scans hsound hl hu hl' hu' h hscan hscan')

end

/-- The refusing files once the script can be read, and has become a broken one. -/
def brokenFiles : Disk :=
  { Disk.holding [.file "b.txt" [98, 98] (2 * defaultTime), .file "c.txt" [99] defaultTime,
      .file "d.php" [60, 63, 40, 59] (3 * defaultTime), .file "e.txt" [101] defaultTime] with
    unknown := ["/e.txt"] }

theorem sameBut_brokenFiles : refusingFiles.SameBut ["d.php"] brokenFiles where
  root := .folder "" defaultTime
    [.file "b.txt" [98, 98] (2 * defaultTime), .file "c.txt" [99] defaultTime]
    [.file "e.txt" [101] defaultTime] (.file ..)
  unlisted := rfl
  unknown := rfl
  unread path hother := by
    have hne : path ≠ "/d.php" := by
      rintro rfl
      exact hother (by decide +kernel)
    simp [refusingFiles, brokenFiles, Disk.holding, Disk.ofRoot, hne]

/-- Two scans that refresh, drop and add rows. One cannot read the script, the other one finds that it is
broken. -/
theorem eq_but_for_script :
    let one := scanProject .default refusingFiles "p" "/" true none filesDatabase
    let other := scanProject .default brokenFiles "p" "/" true none filesDatabase
    refusingFiles.readText? "/d.php" = none ∧ brokenFiles.readText? "/d.php" = some "<?(;" ∧
    ∃ after after', one.1.isOk = true ∧ one.2 = on after ∧ other.1.isOk = true ∧ other.2 = on after' ∧
      (∀ m ∈ listing .default refusingFiles "/", m.isFile = true →
        ∃ r ∈ after.files, r.projectId = "p" ∧ r.key = m.key) ∧
      SameRowsBut (IsRowAt .default refusingFiles "p" "/" ["d.php"]) after after' ∧
      SameRecordsBut (IsRowAt .default refusingFiles "p" "/" ["d.php"]) after after' := by
  refine ⟨by decide +kernel, by decide +kernel, ?_⟩
  have hsame := scanProject_eq_but_for_one_file reached_filesDatabase (by decide +kernel)
    (by decide +kernel) (by decide +kernel) (by decide +kernel) (by decide +kernel)
    (by decide +kernel) sameBut_brokenFiles .default "p" "/" true none
  obtain ⟨e, he, _⟩ | ⟨after, after', hended, hended', hlisted, hrows, hrecords⟩ := hsame
  · have hroot : refusingFiles.resolve "/" = .ok "/" := by decide +kernel
    rw [hroot] at he
    cases he
  · have hone : ∀ m ∈ toIndex .default refusingFiles "p" "/" filesDatabase,
        breaksAt refusingFiles m = false := by decide +kernel
    have hother : ∀ m ∈ toIndex .default brokenFiles "p" "/" filesDatabase,
        breaksAt brokenFiles m = false := by decide +kernel
    obtain ⟨_, hrecords⟩ := hrecords (fun m hm _ => hone m hm) fun m hm _ => hother m hm
    exact ⟨after, after', hended.completes.mpr hone, hended.database, hended'.completes.mpr hother,
      hended'.database, hlisted, hrows, hrecords⟩

end CodeAtlas.Project
