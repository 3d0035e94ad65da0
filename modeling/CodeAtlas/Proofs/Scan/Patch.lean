import CodeAtlas.Proofs.Keyed
import CodeAtlas.Proofs.Scan.Found
import CodeAtlas.Scan.Change

/-! # Change sets as patches

A change set sorts the files that a scan has found by what a snapshot says of them, and once it is applied
to the snapshot there is nothing left to change. Of an entry of a snapshot only the normal form of the path
and the instant of the time matter; of several spellings of a path the last one counts. -/

namespace CodeAtlas.Scan

open CodeAtlas.Disk CodeAtlas.Time

variable {s : Scanner} {d : Disk} {root path : String} {snapshot other : Keyed Moment}
  {found : List Metadata} {m : Metadata} {c : ChangeSet}

/-! ## What a snapshot says of a path -/

/-- The entries of a snapshot whose paths have a normal form. -/
def spellings (snapshot : Keyed Moment) (key : String) : Keyed Moment :=
  snapshot.filter fun e => Path.normalize e.1 == key

/-- When a path was changed last, as far as a snapshot knows. -/
def lastInstant? (snapshot : Keyed Moment) (key : String) : Option Int :=
  (spellings snapshot key).getLast?.map (·.2.instant)

/-- No key of the snapshot is a spelling of the entry's path. -/
def IsNew (snapshot : Keyed Moment) (m : Metadata) : Prop :=
  ∀ e ∈ snapshot, Path.normalize e.1 ≠ m.key

/-- The entry has a later time than the last spelling of its path. -/
def IsNewer (snapshot : Keyed Moment) (m : Metadata) : Prop :=
  ∃ e, (spellings snapshot m.key).getLast? = some e ∧ e.2.instant < m.modified.instant

/-- The last spelling of the entry's path has its time or a later one. -/
def IsCurrent (snapshot : Keyed Moment) (m : Metadata) : Prop :=
  ∃ e, (spellings snapshot m.key).getLast? = some e ∧ m.modified.instant ≤ e.2.instant

theorem isNew_iff : IsNew snapshot m ↔ lastInstant? snapshot m.key = none := by
  simp [IsNew, lastInstant?, spellings]

theorem isNewer_iff : IsNewer snapshot m ↔
    (lastInstant? snapshot m.key).any (· < m.modified.instant) = true := by
  rw [IsNewer, lastInstant?]
  cases (spellings snapshot m.key).getLast? <;> simp

theorem isCurrent_iff : IsCurrent snapshot m ↔ ¬ IsNew snapshot m ∧ ¬ IsNewer snapshot m := by
  rw [isNew_iff, isNewer_iff, IsCurrent, lastInstant?]
  cases (spellings snapshot m.key).getLast? <;> simp

theorem IsNewer.not_isNew (h : IsNewer snapshot m) : ¬ IsNew snapshot m := by
  rw [isNewer_iff] at h
  rw [isNew_iff]
  intro hnone
  rw [hnone] at h
  cases h

theorem get?_knownTimes (snapshot : Keyed Moment) (key : String) :
    (knownTimes snapshot).get? key = (spellings snapshot key).getLast?.map (·.2.assumeUtc) := by
  rw [knownTimes, Keyed.get?_ofList, ← List.map_reverse, List.find?_map, Option.map_map, spellings,
    List.getLast?_eq_head?_reverse, ← List.filter_reverse, List.head?_filter]
  rfl

/-! ## How files are sorted -/

/-- A change set has the files that are new and those that are newer than a snapshot, in the order in which
they were found and each of them once, and the keys of the snapshot under which nothing was found. -/
structure ChangeSet.Sorts (c : ChangeSet) (snapshot : Keyed Moment) (found : List Metadata) :
    Prop where
  added : ∀ m, m ∈ c.added ↔ m ∈ found ∧ m.isFile ∧ IsNew snapshot m
  modified : ∀ m, m ∈ c.modified ↔ m ∈ found ∧ m.isFile ∧ IsNewer snapshot m
  unreported : ∀ m ∈ found, m.isFile → (m ∉ c.added ++ c.modified ↔ IsCurrent snapshot m)
  order : c.added.Sublist found ∧ c.modified.Sublist found
  once : ((c.added ++ c.modified).map Metadata.key).Nodup
  deleted : c.deleted = (snapshot.map Prod.fst).filter fun path =>
    decide (∀ m ∈ found, m.key ≠ Path.normalize path)

namespace ChangeSet

theorem between_added (snapshot : Keyed Moment) (found : List Metadata) :
    (between snapshot found).added =
      found.filter fun m => (lastInstant? snapshot m.key).isNone && m.isFile := by
  refine List.filter_filter.trans (List.filter_congr fun m _ => ?_)
  rw [show Path.normalize m.path = m.key from rfl, get?_knownTimes, lastInstant?, Option.isNone_map,
    Option.isNone_map]

theorem between_modified (snapshot : Keyed Moment) (found : List Metadata) :
    (between snapshot found).modified =
      found.filter fun m => (lastInstant? snapshot m.key).any (· < m.modified.instant) && m.isFile := by
  refine List.filter_filter.trans (List.filter_congr fun m _ => ?_)
  rw [show Path.normalize m.path = m.key from rfl, get?_knownTimes, lastInstant?]
  cases (spellings snapshot m.key).getLast? <;> rfl

theorem sorts_between (hkeys : (found.map Metadata.key).Nodup) (snapshot : Keyed Moment) :
    (between snapshot found).Sorts snapshot found := by
  have hadded : ∀ m, m ∈ (between snapshot found).added ↔
      m ∈ found ∧ m.isFile ∧ IsNew snapshot m := fun m => by
    rw [between_added, List.mem_filter, Bool.and_eq_true, Option.isNone_iff_eq_none, ← isNew_iff,
      and_comm (a := IsNew snapshot m)]
  have hmodified : ∀ m, m ∈ (between snapshot found).modified ↔
      m ∈ found ∧ m.isFile ∧ IsNewer snapshot m := fun m => by
    rw [between_modified, List.mem_filter, Bool.and_eq_true, ← isNewer_iff,
      and_comm (a := IsNewer snapshot m)]
  have horder : (between snapshot found).added.Sublist found ∧
      (between snapshot found).modified.Sublist found := by
    rw [between_added, between_modified]
    exact ⟨List.filter_sublist, List.filter_sublist⟩
  refine ⟨hadded, hmodified, fun m hm hf => ?_, horder, ?_, ?_⟩
  · rw [List.mem_append, not_or, hadded, hmodified, isCurrent_iff]
    simp only [hm, hf, true_and]
  · rw [List.map_append]
    refine List.nodup_append.mpr ⟨hkeys.sublist (horder.1.map _), hkeys.sublist (horder.2.map _), ?_⟩
    -- a file in both lists would be new and known
    intro _ hkey _ hkey' he
    obtain ⟨a, hmem, rfl⟩ := List.mem_map.mp hkey
    obtain ⟨b, hmem', rfl⟩ := List.mem_map.mp hkey'
    obtain ⟨ha, _, hnew⟩ := (hadded a).mp hmem
    obtain ⟨hb, _, hnewer⟩ := (hmodified b).mp hmem'
    obtain rfl := eq_of_key_eq hkeys ha hb he
    exact hnewer.not_isNew hnew
  · refine List.filter_congr fun path _ => ?_
    rw [Bool.eq_iff_iff, decide_eq_true_iff]
    simp [Metadata.key]

/-! ## A snapshot with the changes -/

/-- An entry of a snapshot with the time of its file, if this is newer. -/
def updated (c : ChangeSet) (e : String × Moment) : String × Moment :=
  (e.1, ((c.modified.find? (·.key == Path.normalize e.1)).map (·.modified)).getD e.2)

/-- The snapshot after the changes: deleted keys are dropped, all keys of a modified file get its new time,
and each new file gets a key. -/
def apply (c : ChangeSet) (snapshot : Keyed Moment) : Keyed Moment :=
  (snapshot.filter (!c.deleted.contains ·.1)).map c.updated ++
    c.added.map fun m => (m.path, m.modified)

namespace Sorts

variable (h : c.Sorts snapshot found)
include h

theorem nodup_added : (c.added.map Metadata.key).Nodup := by
  have honce := h.once
  rw [List.map_append] at honce
  exact (List.nodup_append.mp honce).1

theorem nodup_modified : (c.modified.map Metadata.key).Nodup := by
  have honce := h.once
  rw [List.map_append] at honce
  exact (List.nodup_append.mp honce).2.1

theorem mem_deleted : path ∈ c.deleted ↔
    path ∈ snapshot.map Prod.fst ∧ ∀ m ∈ found, m.key ≠ Path.normalize path := by
  rw [h.deleted, List.mem_filter, decide_eq_true_iff]

theorem updated_of_mem (hm : m ∈ c.modified) {e : String × Moment}
    (he : Path.normalize e.1 = m.key) : c.updated e = (e.1, m.modified) := by
  have hfind := (find?_key_eq_some h.nodup_modified).mpr ⟨hm, rfl⟩
  rw [updated, he, hfind]
  rfl

theorem updated_of_not_mem (hkeys : (found.map Metadata.key).Nodup) (hm : m ∈ found)
    (hnot : m ∉ c.modified) {e : String × Moment} (he : Path.normalize e.1 = m.key) :
    c.updated e = e := by
  have hnone : c.modified.find? (·.key == m.key) = none := by
    refine List.find?_eq_none.mpr fun m' hm' heq => hnot ?_
    rwa [← eq_of_key_eq hkeys ((h.modified m').mp hm').1 hm (eq_of_beq heq)]
  rw [updated, he, hnone]
  rfl

/-- The spellings of a path that was found are not dropped. A new file has its own key only. -/
theorem spellings_apply (hkeys : (found.map Metadata.key).Nodup) (hm : m ∈ found) :
    spellings (c.apply snapshot) m.key = (spellings snapshot m.key).map c.updated ++
      if m ∈ c.added then [(m.path, m.modified)] else [] := by
  have hold : ((snapshot.filter (!c.deleted.contains ·.1)).map c.updated).filter
      (fun e => Path.normalize e.1 == m.key) = (spellings snapshot m.key).map c.updated := by
    rw [List.filter_map, List.filter_filter, spellings]
    refine congrArg (List.map c.updated) (List.filter_congr fun e _ => ?_)
    by_cases he : Path.normalize e.1 = m.key
    · have hkept : e.1 ∉ c.deleted := fun hmem => (h.mem_deleted.mp hmem).2 m hm he.symm
      simp [updated, he, hkept]
    · simp [updated, he]
  have hnew : (c.added.map fun m => (m.path, m.modified)).filter
      (fun e => Path.normalize e.1 == m.key) =
        if m ∈ c.added then [(m.path, m.modified)] else [] := by
    rw [List.filter_map, show ((fun e : String × Moment => Path.normalize e.1 == m.key) ∘
      fun m : Metadata => (m.path, m.modified)) = (·.key == m.key) from rfl]
    split
    · next hadded =>
      rw [filter_key_eq_singleton h.nodup_added hadded]
      rfl
    · next hnot =>
      rw [List.map_eq_nil_iff, List.filter_eq_nil_iff]
      intro m' hm' heq
      exact hnot (eq_of_key_eq hkeys ((h.added m').mp hm').1 hm (eq_of_beq heq) ▸ hm')
  rw [← hold, ← hnew, ← List.filter_append]
  rfl

/-- After the changes the snapshot knows the time of every file that was found. -/
theorem isCurrent_apply (hkeys : (found.map Metadata.key).Nodup) (hm : m ∈ found)
    (hf : m.isFile = true) : IsCurrent (c.apply snapshot) m := by
  rw [IsCurrent, h.spellings_apply hkeys hm]
  by_cases hadded : m ∈ c.added
  · -- new: its only spelling is the key that it was given
    rw [if_pos hadded, List.getLast?_concat]
    exact ⟨_, rfl, Int.le_refl _⟩
  rw [if_neg hadded, List.append_nil]
  by_cases hmodified : m ∈ c.modified
  · -- newer: all its spellings have been given its time
    obtain ⟨e, hlast, _⟩ := ((h.modified m).mp hmodified).2.2
    have he := (List.mem_filter.mp (List.mem_of_getLast? hlast)).2
    have hupdated := h.updated_of_mem hmodified (eq_of_beq he)
    exact ⟨c.updated e, by rw [List.getLast?_map, hlast]; rfl,
      Int.le_of_eq (congrArg (·.2.instant) hupdated).symm⟩
  · -- not reported: its spellings stay as they are
    have hcurrent := (h.unreported m hm hf).mp (by simp [hadded, hmodified])
    have hsame : (spellings snapshot m.key).map c.updated = spellings snapshot m.key :=
      (List.map_congr_left fun e he => h.updated_of_not_mem hkeys hm hmodified
        (eq_of_beq (List.mem_filter.mp he).2)).trans (List.map_id' _)
    rw [hsame]
    exact hcurrent

/-- Every key is a spelling of something that was found. -/
theorem exists_of_mem_apply {e : String × Moment} (he : e ∈ c.apply snapshot) :
    ∃ m ∈ found, m.key = Path.normalize e.1 := by
  rcases List.mem_append.mp he with he | he
  · obtain ⟨e₀, he₀, rfl⟩ := List.mem_map.mp he
    obtain ⟨hmem, hkept⟩ := List.mem_filter.mp he₀
    have hnot : e₀.1 ∉ c.deleted := by simpa using hkept
    by_contra hnone
    refine hnot (h.mem_deleted.mpr ⟨List.mem_map_of_mem hmem, fun m hm heq => hnone ⟨m, hm, ?_⟩⟩)
    exact heq
  · obtain ⟨m, hm, rfl⟩ := List.mem_map.mp he
    exact ⟨m, ((h.added m).mp hm).1, rfl⟩

/-- Once the changes are made there is nothing to change. -/
theorem between_apply (hkeys : (found.map Metadata.key).Nodup) :
    between (c.apply snapshot) found = ⟨[], [], []⟩ := by
  let after := between (c.apply snapshot) found
  have hafter : after.Sorts (c.apply snapshot) found := sorts_between hkeys _
  have hcurrent : ∀ m ∈ found, m.isFile → IsCurrent (c.apply snapshot) m :=
    fun m hm hf => h.isCurrent_apply hkeys hm hf
  have hadded : after.added = [] := by
    refine List.eq_nil_iff_forall_not_mem.mpr fun m hm => ?_
    obtain ⟨hfound, hf, hnew⟩ := (hafter.added m).mp hm
    exact (isCurrent_iff.mp (hcurrent m hfound hf)).1 hnew
  have hmodified : after.modified = [] := by
    refine List.eq_nil_iff_forall_not_mem.mpr fun m hm => ?_
    obtain ⟨hfound, hf, hnewer⟩ := (hafter.modified m).mp hm
    exact (isCurrent_iff.mp (hcurrent m hfound hf)).2 hnewer
  have hdeleted : after.deleted = [] := by
    refine List.eq_nil_iff_forall_not_mem.mpr fun path hpath => ?_
    obtain ⟨hkey, hnone⟩ := hafter.mem_deleted.mp hpath
    obtain ⟨e, he, rfl⟩ := List.mem_map.mp hkey
    obtain ⟨m, hm, heq⟩ := h.exists_of_mem_apply he
    exact hnone m hm heq
  calc after = ⟨after.added, after.modified, after.deleted⟩ := rfl
    _ = ⟨[], [], []⟩ := by rw [hadded, hmodified, hdeleted]

/-- The changes make a snapshot of a snapshot: no key is there twice. -/
theorem nodup_apply (hsnapshot : (snapshot.map Prod.fst).Nodup) :
    ((c.apply snapshot).map Prod.fst).Nodup := by
  have hpaths : (c.added.map Metadata.path).Nodup := by
    have hnodup := h.nodup_added
    rw [show Metadata.key = Path.normalize ∘ Metadata.path from rfl, ← List.map_map] at hnodup
    exact List.Pairwise.of_map Path.normalize (fun _ _ hne he => hne (congrArg _ he)) hnodup
  have hkept : ((snapshot.filter (!c.deleted.contains ·.1)).map Prod.fst).Sublist
      (snapshot.map Prod.fst) := List.filter_sublist.map _
  rw [apply, List.map_append, List.map_map, List.map_map]
  refine List.nodup_append.mpr ⟨hsnapshot.sublist hkept, hpaths, ?_⟩
  rintro path hold _ hnew rfl
  obtain ⟨e, he, rfl⟩ := List.mem_map.mp (hkept.mem hold)
  obtain ⟨m, hm, hpath⟩ := List.mem_map.mp hnew
  exact ((h.added m).mp hm).2.2 e he (congrArg Path.normalize hpath.symm)

end Sorts

/-! ## What is read of a snapshot -/

/-- What is read of an entry of a snapshot: the normal form of its path and the instant of its time. -/
def reading (e : String × Moment) : String × Int := (Path.normalize e.1, e.2.instant)

theorem lastInstant?_congr (hread : other.map reading = snapshot.map reading) (key : String) :
    lastInstant? other key = lastInstant? snapshot key := by
  have hreadings (l : Keyed Moment) : lastInstant? l key =
      ((l.map reading).filter (·.1 == key)).getLast?.map Prod.snd := by
    rw [List.filter_map, List.getLast?_map, Option.map_map]
    rfl
  rw [hreadings, hreadings, hread]

/-- Other spellings of the paths and other offsets of the times make no difference. -/
theorem between_congr (hread : other.map reading = snapshot.map reading) (found : List Metadata) :
    (between other found).added = (between snapshot found).added ∧
      (between other found).modified = (between snapshot found).modified := by
  simp only [between_added, between_modified, lastInstant?_congr hread, and_self]

end ChangeSet

/-! ## The changes below a root -/

/-- The changes since any snapshot are a patch of it: they sort the files that were found, and the snapshot
with the changes is one for which the same disk has no changes. There are such changes if the root can be
resolved and a calendar can show all times. -/
theorem patch_of_changes (hl : d.Legal) (hu : d.Unmarked) (s : Scanner) (root : String)
    (snapshot : Keyed Moment) :
    (∀ path, d.resolve root = .ok path → d.Dated → ∃ c, s.changes d root snapshot = .ok c) ∧
    ∀ c, s.changes d root snapshot = .ok c →
      (∃ found, s.scan d .default root = .ok found ∧ c.Sorts snapshot found) ∧
      s.changes d root (c.apply snapshot) = .ok ⟨[], [], []⟩ ∧
      ((snapshot.map Prod.fst).Nodup → ((c.apply snapshot).map Prod.fst).Nodup) ∧
      ∀ other : Keyed Moment, other.map ChangeSet.reading = snapshot.map ChangeSet.reading →
        ∃ c', s.changes d root other = .ok c' ∧ c'.added = c.added ∧ c'.modified = c.modified := by
  constructor
  · intro path hr hd
    obtain ⟨found, hfound⟩ := scan_of_dated (s := s) (o := .default) hl hd hr
    exact ⟨_, by rw [Scanner.changes, hfound]; rfl⟩
  · intro c hc
    rw [Scanner.changes] at hc
    cases hfound : s.scan d .default root with
    | error e =>
      rw [hfound] at hc
      cases hc
    | ok found =>
      rw [hfound] at hc
      obtain rfl : ChangeSet.between snapshot found = c := Except.ok.inj hc
      have hkeys := nodup_keys_of_scan hl hu hfound
      have hsorts := ChangeSet.sorts_between hkeys snapshot
      refine ⟨⟨found, rfl, hsorts⟩, ?_, hsorts.nodup_apply, fun other hread => ?_⟩
      · rw [Scanner.changes, hfound, ← hsorts.between_apply hkeys]
        rfl
      · exact ⟨_, by rw [Scanner.changes, hfound]; rfl, ChangeSet.between_congr hread found⟩

/-- A file that the snapshot below does not know, one that has become newer, and one that has not. -/
def spelledDisk : Disk :=
  .holding [.file "a.txt" [97] defaultTime, .file "b.txt" [98] (2 * defaultTime),
    .file "c.txt" [99] defaultTime, .folder "d" (2 * defaultTime) []]

/-- Times in universal time, with an offset of an hour and without one. Only the second time of `b.txt`
counts, and the folder is no file but is there. -/
def spelledSnapshot : Keyed Moment :=
  [("/./b.txt", ⟨65000000000000000, some 0⟩), ("/x/../gone.txt", ⟨63135596800000000, none⟩),
    ("/b.txt/", ⟨63135596800000000, none⟩), ("/c.txt", ⟨63135600400000000, some 3600000000⟩),
    ("/d/", ⟨63135596800000000, none⟩)]

theorem patch_of_spellings :
    spelledDisk.Legal ∧ spelledDisk.Unmarked ∧ ∃ c,
      Scanner.default.changes spelledDisk "/" spelledSnapshot = .ok c ∧
      c.added.map (·.path) = ["/a.txt"] ∧ c.modified.map (·.path) = ["/b.txt"] ∧
      c.deleted = ["/x/../gone.txt"] ∧
      Scanner.default.changes spelledDisk "/" (c.apply spelledSnapshot) = .ok ⟨[], [], []⟩ := by
  have hl : spelledDisk.Legal := by decide +kernel
  have hu : spelledDisk.Unmarked := by decide +kernel
  obtain ⟨hsome, hall⟩ := patch_of_changes hl hu .default "/" spelledSnapshot
  obtain ⟨c, hc⟩ := hsome "/" rfl (by decide +kernel)
  have hlists : (Scanner.default.changes spelledDisk "/" spelledSnapshot).toOption.map (fun c =>
      (c.added.map (·.path), c.modified.map (·.path), c.deleted)) =
        some (["/a.txt"], ["/b.txt"], ["/x/../gone.txt"]) := by decide +kernel
  rw [hc] at hlists
  obtain ⟨hadded, hlists⟩ := Prod.mk.inj (Option.some.inj hlists)
  obtain ⟨hmodified, hdeleted⟩ := Prod.mk.inj hlists
  exact ⟨hl, hu, c, hc, hadded, hmodified, hdeleted, (hall c hc).2.1⟩

end CodeAtlas.Scan
