import CodeAtlas.Proofs.Project.Stages
import Mathlib.Data.List.TakeWhile

/-! # Passes complete

On tables that only scans have made, a pass completes whenever its scan does, unless the reading of a file
that is to be indexed breaks off. What it leaves can be read off the tables before it and what the scan
found: which rows there are, and what is stored under each of them. Where it breaks off, that is what it
would leave if this file and all that come after it could not be read. -/

namespace CodeAtlas.Project

open CodeAtlas.Disk CodeAtlas.Outline CodeAtlas.Scan CodeAtlas.Store
open CodeAtlas.Store.Process (on Yields)

/-! ## Indexing -/

/-- Whether a file is indexed when it is touched. -/
def indexes (d : Disk) (m : Metadata) : Bool :=
  isSupported m.path && (d.readText? m.path).isSome

/-- The records of a file that is indexed. -/
def recordsFor (d : Disk) (m : Metadata) : Records :=
  .ofParsed (Outline.parse m.path ((d.readText? m.path).getD "") .default)

/-- Whether a file breaks a call off when it is touched. -/
def breaksAt (d : Disk) (m : Metadata) : Bool :=
  indexes d m && breaksOff m.path ((d.readText? m.path).getD "") .default

/-- What is read on a legal disk is not too long to be indexed. -/
theorem length_readText?_lt {d : Disk} (hl : d.Legal) {path text : String}
    (ht : d.readText? path = some text) : text.toList.length < maxBytes := by
  rw [Disk.readText?_eq] at ht
  split at ht
  · cases ht
  · obtain ⟨bytes, hb, rfl⟩ := Option.map_eq_some_iff.mp ht
    obtain ⟨e, he, hb⟩ := Option.bind_eq_some_iff.mp hb
    have hlegal := (Entry.every_iff.mp (Disk.every_of_target? hl he)).1
    exact Nat.lt_of_le_of_lt (length_textOf_le bytes) ((Entry.isLegal_iff.mp hlegal).2.2 bytes hb)

/-- A file that is touched gets its records, unless it cannot be indexed: then nothing changes. -/
theorem reindex_yields {d : Disk} (hl : d.Legal) {m : Metadata} (h : m.Agrees d)
    (hreturned : breaksAt d m = false) (r : FileRecord) (t : Tables) :
    (reindex d r m).Yields t fun b after => b = indexes d m ∧
      after.files = t.files ∧
      (indexes d m = true → after.recordsOf r.fileId = recordsFor d m) ∧
      ∀ fileId, (r.fileId = fileId → indexes d m = false) →
        after.recordsOf fileId = t.recordsOf fileId := by
  revert hreturned
  unfold breaksAt reindex indexes recordsFor
  rw [h.content]
  cases hs : isSupported m.path with
  | false => exact fun _ => Yields.pure ⟨rfl, rfl, (fun h => by cases h), fun _ _ => rfl⟩
  | true =>
    cases ht : d.readText? m.path with
    | none => exact fun _ => Yields.pure ⟨rfl, rfl, (fun h => by cases h), fun _ _ => rfl⟩
    | some text =>
      intro hreturned
      refine (indexFile_yields t r.fileId hreturned (length_readText?_lt hl ht)).bind
        fun _ after ha => Yields.pure ⟨rfl, ha.files, fun _ => ha.own, fun fileId hne => ?_⟩
      exact ha.others fileId fun he => by cases hne he.symm

theorem reindex_of_breaksAt {d : Disk} {m : Metadata} (h : m.Agrees d) (hbreak : breaksAt d m = true)
    (r : FileRecord) (db : Database) : reindex d r m db = (.error (.nesting .exceeded), db) := by
  obtain ⟨hindexes, hbreak⟩ := Bool.and_eq_true_iff.mp hbreak
  obtain ⟨hs, ht⟩ := Bool.and_eq_true_iff.mp hindexes
  obtain ⟨text, ht⟩ := Option.isSome_iff_exists.mp ht
  rw [ht, Option.getD_some] at hbreak
  unfold reindex
  rw [h.content, hs, ht]
  exact Process.bind_of_error (indexFile_of_breaksOff hbreak r.fileId db)

/-- What has no bytes does not break a call off. -/
theorem breaksAt_of_bytes? {d : Disk} {m : Metadata} (h : d.bytes? m.path = none) : breaksAt d m = false := by
  have hread : d.readText? m.path = none := by simp [Disk.readText?_eq, h]
  simp [breaksAt, indexes, hread]

/-- Either no file of a list breaks a call off, or there is a first one that does. -/
theorem breaksAt_cases (d : Disk) (l : List (FileRecord × Metadata)) :
    (∀ x ∈ l, breaksAt d x.2 = false) ∨ ∃ front x rest, l = front ++ x :: rest ∧
      (∀ y ∈ front, breaksAt d y.2 = false) ∧ breaksAt d x.2 = true := by
  cases hfirst : l.find? (breaksAt d ·.2) with
  | none => exact Or.inl fun x hx => by simpa using List.find?_eq_none.mp hfirst x hx
  | some x =>
    obtain ⟨hbreak, front, rest, hsplit, hfront⟩ := List.find?_eq_some_iff_append.mp hfirst
    exact Or.inr ⟨front, x, rest, hsplit, fun y hy => by simpa using hfront y hy, hbreak⟩

/-- The paths of the files of a list that are not indexed any more: of the first one that breaks the call off,
and of all behind it. -/
def unreached (d : Disk) (l : List Metadata) : List String :=
  (l.dropWhile fun m => !breaksAt d m).map (·.path)

theorem unreached_of_returned {d : Disk} {l : List Metadata} (h : ∀ m ∈ l, breaksAt d m = false) :
    unreached d l = [] := by
  have hnil : l.dropWhile (fun m => !breaksAt d m) = [] :=
    List.dropWhile_eq_nil_iff.mpr fun m hm => by rw [h m hm]; rfl
  rw [unreached, hnil, List.map_nil]

theorem unreached_of_breaksAt {d : Disk} {front rest : List Metadata} {m : Metadata}
    (hreturned : ∀ m' ∈ front, breaksAt d m' = false) (hbreak : breaksAt d m = true) :
    unreached d (front ++ m :: rest) = (m :: rest).map (·.path) := by
  have hfront : ∀ m' ∈ front, (!breaksAt d m') = true := fun m' hm' => by rw [hreturned m' hm']; rfl
  rw [unreached, List.dropWhile_append_of_pos hfront, List.dropWhile_cons_of_neg (by simp [hbreak])]

/-! ## Withheld files -/

/-- The disk on which some paths cannot be read either. -/
def withholding (d : Disk) (paths : List String) : Disk := { d with unread := d.unread ++ paths }

variable {d : Disk} {paths : List String} {m : Metadata}

theorem readText?_withholding (d : Disk) (paths : List String) (path : String) :
    (withholding d paths).readText? path = if path ∈ paths then none else d.readText? path := by
  have hbytes : (withholding d paths).bytes? path = d.bytes? path := rfl
  rw [Disk.readText?_eq, Disk.readText?_eq, hbytes]
  by_cases hmem : path ∈ paths <;> simp [withholding, hmem]

theorem indexes_of_withheld (h : m.path ∈ paths) : indexes (withholding d paths) m = false := by
  rw [indexes, readText?_withholding, if_pos h, Option.isSome_none, Bool.and_false]

theorem indexes_of_not_withheld (h : m.path ∉ paths) : indexes (withholding d paths) m = indexes d m := by
  rw [indexes, readText?_withholding, if_neg h, indexes]

theorem recordsFor_of_not_withheld (h : m.path ∉ paths) :
    recordsFor (withholding d paths) m = recordsFor d m := by
  rw [recordsFor, readText?_withholding, if_neg h, recordsFor]

namespace Pass

variable {p : Pass} {front rest : List (FileRecord × Metadata)} {x : FileRecord × Metadata} {now after : Tables}

/-- The rows that a pass makes or refreshes, with what was found of their files. -/
def touched (p : Pass) : List (FileRecord × Metadata) := p.created ++ p.renewed

/-- What a pass registers: a row of the project with all that was found of a new file, behind all rows
that there were. -/
structure Registers (p : Pass) (r : FileRecord) (m : Metadata) : Prop where
  added : m ∈ p.added
  projectId : r.projectId = p.projectId
  path : r.path = m.path
  size : r.size = m.size
  modified : r.modified = ⟨m.modified.wall, none⟩
  behind : ∀ r' ∈ p.tables.files, r'.id < r.id

theorem Registers.key {r : FileRecord} {m : Metadata} (h : p.Registers r m) : r.key = m.key :=
  congrArg Path.normalize h.path

theorem Registers.found {r : FileRecord} {m : Metadata} (h : p.Registers r m) :
    m ∈ p.found ∧ m.isFile = true := by
  obtain ⟨hfound, hfile, _⟩ := mem_added.mp h.added
  exact ⟨hfound, hfile⟩

/-- No row that there was has the number of a new one. -/
theorem Registers.fileId_ne {r r' : FileRecord} {m : Metadata} (h : p.Registers r m)
    (hr' : r' ∈ p.tables.files) : r'.fileId ≠ r.fileId :=
  fun he => Nat.ne_of_lt (h.behind r' hr') (FileRecord.fileId_injective he)

theorem registers_of_created {r : FileRecord} {m : Metadata} (hx : (r, m) ∈ p.created) :
    p.Registers r m := by
  obtain ⟨hm, id, hle, hrow⟩ := mem_createdFor hx
  obtain rfl : r = FileRecord.ofMetadata p.projectId id m := hrow
  exact ⟨hm, rfl, rfl, rfl, rfl, fun r' hr' => Nat.lt_of_lt_of_le (lt_nextFileId p.tables r' hr') hle⟩

theorem map_snd_created (p : Pass) : p.created.map Prod.snd = p.added := by
  simp only [created, createdFor, List.map_map]
  exact List.zipIdx_map_fst _ _

theorem exists_created {m : Metadata} (hm : m ∈ p.added) : ∃ x ∈ p.created, x.2 = m :=
  List.mem_map.mp (p.map_snd_created ▸ hm)

theorem map_snd_renewed (h : p.Ready) : p.renewed.map Prod.snd = p.modified := by
  have hgen : ∀ ms : List Metadata, (∀ m ∈ ms, ∃ r, p.rowOf? m = some r) →
      (ms.filterMap fun m => (p.rowOf? m).map fun r => (r, m)).map Prod.snd = ms := by
    intro ms
    induction ms with
    | nil => intro _; rfl
    | cons m ms ih =>
      intro hrows
      obtain ⟨⟨r, hr⟩, hrest⟩ := List.forall_mem_cons.mp hrows
      rw [List.filterMap_cons, hr]
      exact congrArg (m :: ·) (ih hrest)
  refine hgen p.modified fun m hm => ?_
  obtain ⟨_, _, r, hr, hp, hk, _⟩ := (mem_modified h.sound.rows).mp hm
  exact ⟨r, (rowOf?_eq_some h.sound.rows).mpr ⟨hr, hp, hk⟩⟩

theorem map_snd_touched (h : p.Ready) : p.touched.map Prod.snd = p.added ++ p.modified := by
  rw [touched, List.map_append, map_snd_created, map_snd_renewed h]

theorem exists_touched (h : p.Ready) {m : Metadata} (hm : m ∈ p.added ++ p.modified) :
    ∃ x ∈ p.touched, x.2 = m :=
  List.mem_map.mp (map_snd_touched h ▸ hm)

theorem mem_found_of_touched (h : p.Ready) {x : FileRecord × Metadata} (hx : x ∈ p.touched) :
    x.2 ∈ p.found ∧ x.2.isFile = true :=
  mem_found_of_changed (map_snd_touched h ▸ List.mem_map_of_mem hx)

theorem created_ids (p : Pass) : (p.created.map (·.1.id)) =
    List.range' (Database.nextFileId p.tables) p.added.length := by
  rw [created, createdFor, List.map_map]
  exact List.zipIdx_map_snd _ _

/-- No row is touched twice. -/
theorem nodup_touched (h : p.Ready) : (p.touched.map (·.1.id)).Nodup := by
  rw [touched, List.map_append, List.nodup_append, created_ids]
  refine ⟨List.nodup_range', ?_, ?_⟩
  · refine List.pairwise_map.mpr (List.pairwise_filterMap.mpr ?_)
    refine (List.pairwise_map.mp (nodup_keys_modified h)).imp fun {m m'} hne x hx x' hx' he => ?_
    obtain ⟨r, hr, rfl⟩ := Option.map_eq_some_iff.mp hx
    obtain ⟨r', hr', rfl⟩ := Option.map_eq_some_iff.mp hx'
    obtain ⟨hr, _, hk⟩ := (rowOf?_eq_some h.sound.rows).mp hr
    obtain ⟨hr', _, hk'⟩ := (rowOf?_eq_some h.sound.rows).mp hr'
    obtain rfl := h.sound.rows.eq_of_id_eq hr hr' he
    exact hne (hk.symm.trans hk')
  · -- refreshed rows are old ones, whose numbers are smaller than those of new rows
    intro id hid id' hid' he
    obtain ⟨x, hx, rfl⟩ := List.mem_map.mp hid'
    obtain ⟨_, hrow, _, _⟩ := (mem_renewed h.sound.rows).mp hx
    have hlt := lt_nextFileId p.tables x.1 hrow
    have hle := (List.mem_range'_1.mp hid).1
    omega

/-- A row that is touched does not go. -/
theorem fileId_ne_of_touched (h : p.Ready) {x : FileRecord × Metadata} (hx : x ∈ p.touched)
    {r : FileRecord} (hr : r ∈ p.gone) : x.1.fileId ≠ r.fileId := by
  intro he
  obtain ⟨hrow, hdrops⟩ := mem_gone.mp hr
  rcases List.mem_append.mp hx with hx | hx
  · exact (registers_of_created hx).fileId_ne hrow he.symm
  · obtain ⟨_, hold, _, hk⟩ := (mem_renewed h.sound.rows).mp hx
    obtain rfl := h.sound.rows.eq_of_fileId_eq hold hrow he
    have hfound := (mem_found_of_touched h (List.mem_append_right _ hx)).1
    exact (drops_iff.mp hdrops).2 x.2 hfound hk.symm

/-- No file is touched twice. -/
theorem nodup_keys_touched (h : p.Ready) : ((p.added ++ p.modified).map Metadata.key).Nodup := by
  rw [List.map_append, List.nodup_append]
  refine ⟨nodup_keys_added h, nodup_keys_modified h, fun k hk k' hk' he => ?_⟩
  obtain ⟨m, hm, rfl⟩ := List.mem_map.mp hk
  obtain ⟨m', hm', rfl⟩ := List.mem_map.mp hk'
  obtain ⟨_, _, r, hr, hp, hkr, _⟩ := (mem_modified h.sound.rows).mp hm'
  exact (mem_added.mp hm).2.2 r hr hp (hkr.trans he.symm)

/-- What the fourth loop has done once it has gone through some files. -/
structure Indexed (d : Disk) (front : List (FileRecord × Metadata)) (now after : Tables) : Prop where
  files : after.files = now.files
  own : ∀ x ∈ front, indexes d x.2 = true → after.recordsOf x.1.fileId = recordsFor d x.2
  others : ∀ fileId, (∀ x ∈ front, x.1.fileId = fileId → indexes d x.2 = false) →
    after.recordsOf fileId = now.recordsOf fileId

/-- The fourth loop indexes the files that the pass has touched, one after the other. -/
theorem reindexAll_yields (h : p.Ready) (hl : d.Legal) (ha : ∀ m ∈ p.found, m.Agrees d)
    (hsplit : p.touched = front ++ rest) (hreturned : ∀ x ∈ front, breaksAt d x.2 = false) (now : Tables) :
    (reindexAll d (front.map fun x => (x.1.handedOut, x.2))).Yields now
      fun bs after => bs = front.map (fun x => indexes d x.2) ∧ Indexed d front now after := by
  rw [reindexAll, List.mapM_map]
  refine Yields.mapM
    (I := fun (done : List (FileRecord × Metadata)) bs mid =>
      bs = done.map (fun x => indexes d x.2) ∧ Indexed d done now mid)
    (fun done x todo bs mid hfront hi => ?_)
    ⟨rfl, rfl, List.forall_mem_nil _, fun _ _ => rfl⟩
  obtain ⟨rfl, hi⟩ := hi
  have hx : x ∈ front := by rw [hfront]; simp
  have hfound := (mem_found_of_touched h (hsplit ▸ List.mem_append_left rest hx)).1
  have hne : ∀ y ∈ done, x.1.fileId ≠ y.1.fileId := by
    intro y hy he
    have hids := nodup_touched h
    rw [hsplit, hfront, List.append_assoc, List.cons_append, List.map_append, List.map_cons] at hids
    exact (List.nodup_append.mp hids).2.2 _ (List.mem_map_of_mem hy) _ List.mem_cons_self
      (FileRecord.fileId_injective he.symm)
  refine (reindex_yields hl (ha x.2 hfound) (hreturned x hx) x.1.handedOut mid).mono fun b after hb => ?_
  obtain ⟨rfl, hfiles, hown, hothers⟩ := hb
  refine ⟨by simp, hfiles.trans hi.files, fun y hy hyes => ?_, fun fileId hno => ?_⟩
  · rcases List.mem_append.mp hy with hy | hy
    · rw [hothers y.1.fileId fun he => absurd he (hne y hy)]
      exact hi.own y hy hyes
    · rw [List.mem_singleton.mp hy] at hyes ⊢
      exact hown hyes
  · rw [hothers fileId fun he => hno x (by simp) he]
    exact hi.others fileId fun y hy => hno y (List.mem_append_left _ hy)

/-- The loop ends at the first file that breaks it off. -/
theorem reindexAll_of_breaksAt (h : p.Ready) (hl : d.Legal) (ha : ∀ m ∈ p.found, m.Agrees d)
    (hsplit : p.touched = front ++ x :: rest) (hreturned : ∀ y ∈ front, breaksAt d y.2 = false)
    (hbreak : breaksAt d x.2 = true) (now : Tables) :
    ∃ after, reindexAll d (p.touched.map fun x => (x.1.handedOut, x.2)) (on now) =
      (.error (.nesting .exceeded), on after) ∧ Indexed d front now after := by
  obtain ⟨bs, after, hrun, _, hindexed⟩ := reindexAll_yields h hl ha hsplit hreturned now
  refine ⟨after, ?_, hindexed⟩
  have hfound := (mem_found_of_touched h (x := x) (hsplit ▸ by simp)).1
  rw [hsplit, List.map_append, List.map_cons, reindexAll, List.mapM_append, List.mapM_cons]
  refine (Process.bind_of_ok hrun).trans (Process.bind_of_error (Process.bind_of_error ?_))
  exact reindex_of_breaksAt (ha x.2 hfound) hbreak x.1.handedOut (on after)

/-- To stop before some files comes to the same as not to be able to read them. -/
theorem Indexed.withholding (h : p.Ready) (hsplit : p.touched = front ++ rest) (hi : Indexed d front now after) :
    Indexed (withholding d (rest.map (·.2.path))) p.touched now after := by
  have hfront : ∀ x ∈ front, x.2.path ∉ rest.map (·.2.path) := by
    intro x hx hmem
    obtain ⟨y, hy, hpath⟩ := List.mem_map.mp hmem
    have hkeys := nodup_keys_touched h
    rw [← map_snd_touched h, hsplit, List.map_append, List.map_append] at hkeys
    exact (List.nodup_append.mp hkeys).2.2 _ (List.mem_map_of_mem (List.mem_map_of_mem hx)) _
      (List.mem_map_of_mem (List.mem_map_of_mem hy)) (congrArg Path.normalize hpath.symm)
  have hrest : ∀ x ∈ rest, x.2.path ∈ rest.map (·.2.path) := fun x hx => List.mem_map_of_mem hx
  refine ⟨hi.files, fun x hx hyes => ?_, fun fileId hno => hi.others fileId fun x hx he => ?_⟩
  · rcases List.mem_append.mp (hsplit ▸ hx) with hx | hx
    · rw [indexes_of_not_withheld (hfront x hx)] at hyes
      rw [hi.own x hx hyes, recordsFor_of_not_withheld (hfront x hx)]
    · rw [indexes_of_withheld (hrest x hx)] at hyes
      cases hyes
  · rw [← indexes_of_not_withheld (hfront x hx)]
    exact hno x (hsplit ▸ List.mem_append_left rest hx) he

/-! ## What a pass leaves -/

/-- The tables after a pass. -/
structure Done (p : Pass) (d : Disk) (after : Tables) : Prop where
  files : after.files = (p.tables.files.filter fun r => !p.drops r).map (p.renewedBy p.modified) ++
    p.created.map Prod.fst
  rows : SoundRows after.files
  indexed : ∀ x ∈ p.touched, indexes d x.2 = true → after.recordsOf x.1.fileId = recordsFor d x.2
  dropped : ∀ r ∈ p.gone, after.recordsOf r.fileId = .none
  others : ∀ fileId, (∀ x ∈ p.touched, x.1.fileId = fileId → indexes d x.2 = false) →
    (∀ r ∈ p.gone, r.fileId ≠ fileId) → after.recordsOf fileId = p.tables.recordsOf fileId

/-- The changes that a pass makes. -/
def changes (p : Pass) : ChangeSet :=
  ⟨p.added.map Metadata.bare, p.modified.map Metadata.bare, p.gone.map (·.path)⟩

/-- The rows that a pass touches are those of the files that are new or newer. -/
theorem map_bare_touched (h : p.Ready) :
    p.touched.map (·.2.bare) = p.changes.added ++ p.changes.modified := by
  calc p.touched.map (·.2.bare)
      = (p.touched.map Prod.snd).map Metadata.bare := by rw [List.map_map]; rfl
    _ = p.changes.added ++ p.changes.modified := by
        rw [map_snd_touched h, List.map_append, changes]

theorem differences_eq (h : p.Ready) : p.differences = p.changes := changes_eq h.sound.rows

def report (p : Pass) (d : Disk) : Report where
  totals := { Totals.of p.found p.changes with
    indexed := p.touched.countP fun x => indexes d x.2 }
  entries := p.found.take maxReported

/-- A row goes by its number. -/
theorem contains_gone (h : p.Ready) {r : FileRecord} (hr : r ∈ p.tables.files) :
    (p.gone.map (·.id)).contains r.id = p.drops r := by
  rw [Bool.eq_iff_iff, List.contains_iff_mem, List.mem_map]
  constructor
  · rintro ⟨r', hr', hid⟩
    obtain ⟨hr', hd⟩ := mem_gone.mp hr'
    rwa [← h.sound.rows.eq_of_id_eq hr' hr hid]
  · exact fun hd => ⟨r, mem_gone.mpr ⟨hr, hd⟩, rfl⟩

theorem Registers.not_gone {r : FileRecord} {m : Metadata} (hnew : p.Registers r m) :
    (p.gone.map (·.id)).contains r.id = false := by
  rw [Bool.eq_false_iff, ne_eq, List.contains_iff_mem, List.mem_map]
  rintro ⟨r', hr', hid⟩
  exact Nat.ne_of_lt (hnew.behind r' (mem_gone.mp hr').1) hid

/-- What has become newer has an old row, so it is not what was registered. -/
theorem Registers.renewedBy {r : FileRecord} {m : Metadata} (hnew : p.Registers r m) (h : p.Ready) :
    p.renewedBy p.modified r = r := by
  refine renewedBy_of_ne fun _ m' hm' he => ?_
  obtain ⟨_, _, r', hr', hp', hk', _⟩ := (mem_modified h.sound.rows).mp hm'
  exact (mem_added.mp hnew.added).2.2 r' hr' hp' (hk'.trans (he.trans hnew.key))

/-- Refreshing and dropping leave the rows of new files alone. -/
theorem files_eq (h : p.Ready) :
    ((p.tables.files ++ p.created.map Prod.fst).map (p.renewedBy p.modified)).filter
        (fun r => !(p.gone.map (·.id)).contains r.id) =
      (p.tables.files.filter fun r => !p.drops r).map (p.renewedBy p.modified) ++
        p.created.map Prod.fst := by
  have hold : (p.tables.files.map (p.renewedBy p.modified)).filter
      (fun r => !(p.gone.map (·.id)).contains r.id) =
      (p.tables.files.filter fun r => !p.drops r).map (p.renewedBy p.modified) := by
    rw [List.filter_map]
    congr 1
    refine List.filter_congr fun r hr => ?_
    rw [Function.comp_apply, renewedBy_id, contains_gone h hr]
  have hsame : (p.created.map Prod.fst).map (p.renewedBy p.modified) = p.created.map Prod.fst := by
    rw [List.map_map]
    exact List.map_congr_left fun x hx => (registers_of_created hx).renewedBy h
  have hnew : (p.created.map Prod.fst).filter (fun r => !(p.gone.map (·.id)).contains r.id) =
      p.created.map Prod.fst := by
    refine List.filter_eq_self.mpr fun r hr => ?_
    obtain ⟨x, hx, rfl⟩ := List.mem_map.mp hr
    rw [(registers_of_created hx).not_gone]
    rfl
  rw [List.map_append, List.filter_append, hold, hsame, hnew]

/-- What the loops leave is what a pass is to leave. `now` are the tables before anything is
indexed. -/
theorem done_of_loops (h : p.Ready) {now after : Tables} (hrows : SoundRows now.files)
    (hnow : now.files = ((p.tables.files ++ p.created.map Prod.fst).map
      (p.renewedBy p.modified)).filter fun r => !(p.gone.map (·.id)).contains r.id)
    (hrecords : ∀ fileId, now.recordsOf fileId =
      if fileId ∈ p.gone.map (·.fileId) then .none else p.tables.recordsOf fileId)
    (hi : Indexed d p.touched now after) : p.Done d after where
  files := by rw [hi.files, hnow, files_eq h]
  rows := by rwa [hi.files]
  indexed := hi.own
  dropped r hr := by
    have hno : ∀ x ∈ p.touched, x.1.fileId = r.fileId → indexes d x.2 = false :=
      fun x hx he => absurd he (fileId_ne_of_touched h hx hr)
    rw [hi.others r.fileId hno, hrecords, if_pos (List.mem_map_of_mem hr)]
  others fileId htouch hgone := by
    have hkept : fileId ∉ p.gone.map (·.fileId) := by
      intro hmem
      obtain ⟨r, hr, he⟩ := List.mem_map.mp hmem
      exact hgone r hr he
    rw [hi.others fileId htouch, hrecords, if_neg hkept]

/-- What a scan on a legal disk reports of an entry fits into a row. -/
theorem fitsRow_of_scan {s : Scanner} {o : ScanOptions} {root : String} {found : List Metadata}
    (hl : d.Legal) (hscan : s.scan d o root = .ok found) : ∀ m ∈ found, FitsRow m := by
  intro m hm
  have ha := agrees_of_scan hl hscan m hm
  refine ⟨?_, ha.universal, ha.onCalendar⟩
  cases hfile : m.isFile with
  | false =>
    rw [size_of_folder hscan hm hfile]
    rfl
  | true =>
    obtain ⟨bytes, _, hsize, hlt⟩ := ha.bytes hfile
    rw [hsize]
    simp only [isStorable, Bool.and_eq_true, decide_eq_true_eq]
    unfold maxBytes at hlt
    omega

/-- What a scan on a legal disk finds is enough for a pass. -/
theorem ready_of_scan {s : Scanner} {o : ScanOptions} {root : String} (ht : p.tables.Sound)
    (hl : d.Legal) (hu : d.Unmarked) (hscan : s.scan d o root = .ok p.found) : p.Ready where
  sound := ht
  distinct := nodup_keys_of_scan hl hu hscan
  fits m hm _ := fitsRow_of_scan hl hscan m hm

/-- The scan of the detector finds the same entries without their content, and so the changes of the
pass. -/
theorem changes_of_scan {s : Scanner} {root : String} {content : Bool} {maxFileSize? : Option Int}
    (ht : p.tables.Sound) (hl : d.Legal) (hu : d.Unmarked)
    (hscan : s.scan d ⟨content, maxFileSize?, [], none⟩ root = .ok p.found) :
    s.changes d root p.snapshot = .ok p.changes := by
  have h : p.Ready := ready_of_scan ht hl hu hscan
  have hbare := scan_bare s d ⟨content, maxFileSize?, [], none⟩ root
  rw [hscan] at hbare
  rw [Scanner.changes, show ScanOptions.default =
    (⟨content, maxFileSize?, [], none⟩ : ScanOptions).bare from rfl, hbare]
  simp only [Except.map, changes_eq h.sound.rows, changes]

/-- What the first stage leaves for the second one. -/
structure Synchronized (p : Pass) (x : Synced) (now : Tables) : Prop where
  found : x.found = p.found
  changes : x.changes = p.changes
  todo : x.todo = p.touched.map fun x => (x.1.handedOut, x.2)
  rows : SoundRows now.files
  files : now.files = ((p.tables.files ++ p.created.map Prod.fst).map (p.renewedBy p.modified)).filter
    fun r => !(p.gone.map (·.id)).contains r.id
  records : ∀ fileId, now.recordsOf fileId =
    if fileId ∈ p.gone.map (·.fileId) then .none else p.tables.recordsOf fileId

theorem sync_yields (h : p.Ready) : p.sync.Yields p.tables p.Synchronized := by
  unfold sync
  rw [differences_eq h]
  refine (registerAll_yields h).bind ?_
  rintro _ t₁ ⟨rfl, ht₁, hrows₁⟩
  refine (refreshAll_yields h hrows₁ fun r hr => by rw [ht₁]; simp [hr]).bind ?_
  rintro xs t₂ ⟨hxs, ht₂⟩
  have hrows₂ : SoundRows t₂.files := by
    rw [ht₂]
    exact hrows₁.map (p.renewedBy_id _) (p.renewedBy_place _)
      fun r hr => p.renewedBy_naive _ (hrows₁.naive r hr)
  have hold₂ : ∀ r ∈ p.tables.files, ∃ r' ∈ t₂.files, r'.id = r.id := by
    intro r hr
    refine ⟨p.renewedBy p.modified r, ?_, p.renewedBy_id _ r⟩
    rw [ht₂, ht₁]
    exact List.mem_map_of_mem (List.mem_append_left _ hr)
  refine (removeAll_yields h hold₂).bind ?_
  rintro _ t₃ ⟨hfiles₃, hrecords₃⟩
  refine Yields.pure ⟨rfl, rfl, ?_, ?_, ?_, fun fileId => ?_⟩
  · rw [Synced.todo, hxs, touched, List.map_append]
  · rw [hfiles₃]
    exact hrows₂.filter _
  · rw [hfiles₃, ht₂, ht₁]
  · rw [hrecords₃, ht₂, ht₁]
    rfl

theorem Synchronized.done {y : Synced} (h : p.Ready) (hy : p.Synchronized y now)
    (hi : Indexed d p.touched now after) : p.Done d after :=
  done_of_loops h hy.rows hy.files hy.records hi

/-! ## A call -/

variable {s : Scanner} {root : String} {content : Bool} {maxFileSize? : Option Int}

/-- The registry is in line with the disk before anything is indexed. -/
theorem syncProject_yields (ht : p.tables.Sound) (hl : d.Legal) (hu : d.Unmarked)
    (hscan : s.scan d ⟨content, maxFileSize?, [], none⟩ root = .ok p.found) :
    (syncProject s d p.projectId root content maxFileSize?).Yields p.tables p.Synchronized := by
  have hsync := sync_yields (ready_of_scan ht hl hu hscan)
  have hfirst : (Process.expect ((s.scan d ⟨content, maxFileSize?, [], none⟩ root).mapError
      .scan) : Work (List Metadata)).Yields p.tables
        fun found now => found = p.found ∧ now = p.tables := by
    rw [hscan]
    exact Yields.expect ⟨rfl, rfl⟩
  have hquery : (Process.query (·.filesOf p.projectId) : Work (List FileRecord)).Yields p.tables
      fun rows now => rows = p.rows ∧ now = p.tables := Yields.query rfl ⟨rfl, rfl⟩
  have hsecond : (Process.expect ((s.changes d root p.snapshot).mapError .scan) :
      Work ChangeSet).Yields p.tables fun changes now =>
        changes = p.differences ∧ now = p.tables := by
    rw [changes_of_scan ht hl hu hscan, differences_eq (ready_of_scan ht hl hu hscan)]
    exact Yields.expect ⟨rfl, rfl⟩
  unfold syncProject
  refine hfirst.bind ?_
  rintro _ _ ⟨rfl, rfl⟩
  refine hquery.bind ?_
  rintro _ _ ⟨rfl, rfl⟩
  refine hsecond.bind ?_
  rintro _ _ ⟨rfl, rfl⟩
  exact hsync

/-- A scan of a project completes if its scan of the disk does and no file breaks it off, and leaves what its
pass is to leave. -/
theorem scanProject_yields (ht : p.tables.Sound) (hl : d.Legal) (hu : d.Unmarked)
    (hscan : s.scan d ⟨content, maxFileSize?, [], none⟩ root = .ok p.found)
    (hreturned : ∀ x ∈ p.touched, breaksAt d x.2 = false) :
    (scanProject s d p.projectId root content maxFileSize?).Yields p.tables fun report after =>
      report = p.report d ∧ p.Done d after := by
  have h : p.Ready := ready_of_scan ht hl hu hscan
  rw [scanProject_eq]
  refine (syncProject_yields ht hl hu hscan).bind fun y now hy => ?_
  rw [Synced.index, hy.todo]
  refine (reindexAll_yields h hl (agrees_of_scan hl hscan) (List.append_nil _).symm hreturned now).bind ?_
  rintro _ after ⟨rfl, hi⟩
  refine Yields.pure ⟨?_, hy.done h hi⟩
  simp [hy.found, hy.changes, report, List.count, List.countP_map, Function.comp_def]

/-- It ends at the first file that breaks it off, and leaves what its pass is to leave if neither this file nor
any behind it can be read. -/
theorem scanProject_of_breaksAt {front rest : List (FileRecord × Metadata)} {x : FileRecord × Metadata}
    (ht : p.tables.Sound) (hl : d.Legal) (hu : d.Unmarked)
    (hscan : s.scan d ⟨content, maxFileSize?, [], none⟩ root = .ok p.found)
    (hsplit : p.touched = front ++ x :: rest) (hreturned : ∀ y ∈ front, breaksAt d y.2 = false)
    (hbreak : breaksAt d x.2 = true) :
    ∃ after, scanProject s d p.projectId root content maxFileSize? (on p.tables) =
      (.error (.nesting .exceeded), on after) ∧
        p.Done (withholding d ((x :: rest).map (·.2.path))) after := by
  have h : p.Ready := ready_of_scan ht hl hu hscan
  obtain ⟨y, now, hrun, hy⟩ := syncProject_yields ht hl hu hscan
  obtain ⟨after, hindex, hi⟩ :=
    reindexAll_of_breaksAt h hl (agrees_of_scan hl hscan) hsplit hreturned hbreak now
  refine ⟨after, ?_, hy.done h (hi.withholding h hsplit)⟩
  rw [scanProject_eq, Process.bind_of_ok hrun, Synced.index, hy.todo, Process.bind_of_error hindex]

/-- A scan of a project whose scan of the disk completes does so as well if no file that it is to index breaks
it off, and fails in this way otherwise. However it ends, it leaves what its pass is to leave if no file can be
read that it does not reach. -/
theorem scanProject_done (ht : p.tables.Sound) (hl : d.Legal) (hu : d.Unmarked)
    (hscan : s.scan d ⟨content, maxFileSize?, [], none⟩ root = .ok p.found) :
    let call := scanProject s d p.projectId root content maxFileSize? (on p.tables)
    ∃ after, call.2 = on after ∧ p.Done (withholding d (unreached d (p.added ++ p.modified))) after ∧
      (call.1.isOk = true ↔ ∀ m ∈ p.added ++ p.modified, breaksAt d m = false) ∧
      ∀ e, call.1 = .error e → e = .nesting .exceeded := by
  intro call
  rw [← map_snd_touched (ready_of_scan ht hl hu hscan)]
  rcases breaksAt_cases d p.touched with hreturned | ⟨front, x, rest, hsplit, hfront, hbreak⟩
  · obtain ⟨report, after, hrun, _, hdone⟩ := scanProject_yields ht hl hu hscan hreturned
    have hcall : call = (.ok report, on after) := hrun
    have hall : ∀ m ∈ p.touched.map Prod.snd, breaksAt d m = false := List.forall_mem_map.mpr hreturned
    rw [hcall, unreached_of_returned hall, withholding, List.append_nil]
    exact ⟨after, rfl, hdone, iff_of_true rfl hall, fun e he => by cases he⟩
  · obtain ⟨after, hrun, hdone⟩ := scanProject_of_breaksAt ht hl hu hscan hsplit hfront hbreak
    have hcall : call = (.error (.nesting .exceeded), on after) := hrun
    have hx : x.2 ∈ p.touched.map Prod.snd := List.mem_map_of_mem (hsplit ▸ by simp)
    refine ⟨after, by rw [hcall], ?_, ?_, fun e he => ?_⟩
    · rw [hsplit, List.map_append, List.map_cons,
        unreached_of_breaksAt (List.forall_mem_map.mpr hfront) hbreak, ← List.map_cons, List.map_map]
      exact hdone
    · rw [hcall]
      refine iff_of_false nofun fun hreturned => ?_
      cases (hreturned x.2 hx).symm.trans hbreak
    · rw [hcall] at he
      cases he
      rfl

end Pass

end CodeAtlas.Project
