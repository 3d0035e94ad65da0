import CodeAtlas.Proofs.Project.Reached
import CodeAtlas.Proofs.Scan.Marks

/-! # The first scan of a project

A project that has no rows yet is scanned: every file that is found is new. What is registered for a file is
the last of the entries that are taken for it, so a file can lose its place to another entry, and a path that
comes up a second time ends the call. Both happen only to names that differ by a backslash at the end. What
else can end the call is the reading of a file that has been registered. -/

namespace CodeAtlas.Project

open CodeAtlas.Disk CodeAtlas.Outline CodeAtlas.Scan CodeAtlas.Store
open CodeAtlas.Store.Process (on Ends Yields)

/-- Whether a project has a row for what was found of a file: under its path, with its size and time. -/
def HasRow (projectId : String) (t : Tables) (m : Metadata) : Prop :=
  ∃ r ∈ t.files, r.projectId = projectId ∧ r.path = m.path ∧ r.size = m.size ∧
    r.modified = ⟨m.modified.instant, none⟩

/-- Whether the rows of a project are those of the listed entries. -/
structure Registered (projectId : String) (l : List Metadata) (t : Tables) : Prop where
  distinct : (l.map (·.path)).Nodup
  paths : ∀ r ∈ t.files, r.projectId = projectId → r.path ∈ l.map (·.path)
  rows : ∀ m ∈ l, HasRow projectId t m

namespace Registered

variable {projectId : String} {l : List Metadata} {t after : Tables}

theorem congr (h : Registered projectId l t) (hfiles : after.files = t.files) :
    Registered projectId l after where
  distinct := h.distinct
  paths := hfiles ▸ h.paths
  rows m hm := by
    obtain ⟨r, hr, hrow⟩ := h.rows m hm
    exact ⟨r, hfiles ▸ hr, hrow⟩

/-- An entry whose path is free gets a row of its own. -/
theorem append (h : Registered projectId l t) {m : Metadata} (hm : FitsRow m)
    (hfree : ∀ r ∈ t.files, r.projectId = projectId → r.path ≠ m.path) :
    Registered projectId (l ++ [m])
      { t with files := t.files ++ [FileRecord.ofMetadata projectId (Database.nextFileId t) m] } where
  distinct := by
    rw [List.map_append, List.nodup_append]
    refine ⟨h.distinct, List.pairwise_singleton .., fun path hpath path' hpath' he => ?_⟩
    obtain ⟨m', hm', rfl⟩ := List.mem_map.mp hpath
    obtain ⟨r, hr, hp, hrow, _⟩ := h.rows m' hm'
    exact hfree r hr hp (hrow.trans (he.trans (List.mem_singleton.mp hpath')))
  paths r hr hp := by
    rw [List.map_append]
    rcases List.mem_append.mp hr with hr | hr
    · exact List.mem_append_left _ (h.paths r hr hp)
    · obtain rfl := List.mem_singleton.mp hr
      exact List.mem_append_right _ (List.mem_singleton.mpr rfl)
  rows := by
    refine List.forall_mem_append.mpr ⟨fun m' hm' => ?_, List.forall_mem_singleton.mpr ?_⟩
    · obtain ⟨r, hr, hrow⟩ := h.rows m' hm'
      exact ⟨r, List.mem_append_left _ hr, hrow⟩
    · refine ⟨FileRecord.ofMetadata projectId (Database.nextFileId t) m, by simp, rfl, rfl, rfl, ?_⟩
      rw [hm.instant]
      rfl

end Registered

namespace Pass

variable {p : Pass} {d : Disk} {m m' : Metadata}

/-! ## Which entry stands in for a file -/

/-- The files that were found. -/
def files (p : Pass) : List Metadata := p.found.filter (·.isFile)

theorem mem_files : m ∈ p.files ↔ m ∈ p.found ∧ m.isFile = true := List.mem_filter

/-- What is registered for a file. -/
def standIn (p : Pass) (m : Metadata) : Metadata := withContent p.byPath m.bare

theorem find?_standIn (hm : m ∈ p.found) :
    p.found.reverse.find? (·.key == m.key) = some (p.standIn m) := by
  have hget : p.byPath.get? m.key = p.found.reverse.find? (·.key == m.key) := by
    rw [byPath, Keyed.get?_ofList, ← List.map_reverse, List.find?_map, Option.map_map]
    exact congrFun Option.map_id _
  have hsome : (p.found.reverse.find? (·.key == m.key)).isSome = true :=
    List.find?_isSome.mpr ⟨m, List.mem_reverse.mpr hm, by simp⟩
  obtain ⟨last, hlast⟩ := Option.isSome_iff_exists.mp hsome
  rw [standIn, withContent, show Path.normalize m.bare.path = m.key from rfl, hget, hlast]
  rfl

/-- The last of the entries that are taken for a file stands in for it. -/
theorem exists_standIn (hm : m ∈ p.found) : ∃ front back, p.found = front ++ p.standIn m :: back ∧
    (p.standIn m).key = m.key ∧ ∀ m' ∈ back, m'.key ≠ m.key := by
  obtain ⟨hkey, back, front, hsplit, hback⟩ := List.find?_eq_some_iff_append.mp (find?_standIn hm)
  refine ⟨front.reverse, back.reverse, ?_, beq_iff_eq.mp hkey, fun m' hm' => ?_⟩
  · simpa using congrArg List.reverse hsplit
  · simpa using hback m' (List.mem_reverse.mp hm')

/-- An entry that no later one is taken for stands in for itself. -/
theorem standIn_of_last {front back : List Metadata} (hsplit : p.found = front ++ m :: back)
    (hback : ∀ m' ∈ back, m'.key ≠ m.key) : p.standIn m = m := by
  have hfind := find?_standIn (p := p) (m := m) (by rw [hsplit]; simp)
  have hlast : p.found.reverse.find? (·.key == m.key) = some m := by
    refine List.find?_eq_some_iff_append.mpr ⟨by simp, back.reverse, front.reverse, by simp [hsplit], ?_⟩
    simpa using hback
  exact Option.some.inj (hfind.symm.trans hlast)

theorem standIn_mem (hm : m ∈ p.found) : p.standIn m ∈ p.found := by
  obtain ⟨front, back, hsplit, _⟩ := exists_standIn hm
  exact hsplit ▸ List.mem_append_right _ List.mem_cons_self

/-- Two files have the same stand-in exactly if they are taken for one. -/
theorem standIn_path_eq_iff (hm : m ∈ p.found) (hm' : m' ∈ p.found) :
    (p.standIn m).path = (p.standIn m').path ↔ m.key = m'.key := by
  constructor
  · intro he
    obtain ⟨_, _, _, hkey, _⟩ := exists_standIn hm
    obtain ⟨_, _, _, hkey', _⟩ := exists_standIn hm'
    exact hkey.symm.trans ((congrArg Path.normalize he).trans hkey')
  · intro he
    have hsame := find?_standIn hm
    rw [he, find?_standIn hm'] at hsame
    rw [Option.some.inj hsame]

theorem nodup_standIns_iff :
    ((p.files.map p.standIn).map (·.path)).Nodup ↔ (p.files.map Metadata.key).Nodup := by
  unfold List.Nodup
  rw [List.map_map, List.pairwise_map, List.pairwise_map]
  refine List.Pairwise.iff_of_mem fun hm hm' => not_congr ?_
  exact standIn_path_eq_iff (mem_files.mp hm).1 (mem_files.mp hm').1

/-- Every file stands in for itself exactly if no later entry is taken for it. -/
theorem standIn_eq_iff (hpaths : (p.found.map (·.path)).Nodup) :
    (∀ m ∈ p.files, p.standIn m = m) ↔
      p.found.Pairwise fun m m' => m.isFile = true → m.key ≠ m'.key := by
  have hnodup : p.found.Nodup := (List.pairwise_map.mp hpaths).imp fun hne he => hne (congrArg _ he)
  constructor
  · intro h
    refine List.pairwise_iff_getElem.mpr fun i j hi hj hlt hfile he => ?_
    have hm : p.found[i] ∈ p.found := List.getElem_mem hi
    obtain ⟨front, back, hsplit, _, hback⟩ := exists_standIn hm
    rw [h _ (mem_files.mpr ⟨hm, hfile⟩)] at hsplit
    -- the file stands at no other place, so what follows it stands behind the split
    have hplace : p.found[front.length]? = some p.found[i] := by
      conv => lhs; rw [hsplit]
      simp
    obtain ⟨hlength, hsame⟩ := List.getElem?_eq_some_iff.mp hplace
    obtain rfl := (List.getElem_inj hnodup).mp hsame
    have hdrop : p.found.drop (front.length + 1) = back := by
      conv => lhs; rw [hsplit]
      simp
    have hmem : p.found[j] ∈ back := by
      rw [← hdrop]
      exact List.mem_drop_iff_getElem.mpr ⟨j - (front.length + 1), by omega, by congr 1; omega⟩
    exact hback _ hmem he.symm
  · intro h m hm
    obtain ⟨hm, hfile⟩ := mem_files.mp hm
    obtain ⟨front, back, hsplit, hkey, hback⟩ := exists_standIn hm
    rw [hsplit] at h hm
    rcases List.mem_append.mp hm with hfront | hrest
    · exact absurd hkey.symm ((List.pairwise_append.mp h).2.2 m hfront _ List.mem_cons_self hfile)
    · rcases List.mem_cons.mp hrest with he | hm
      · exact he.symm
      · exact absurd rfl (hback m hm)

/-- No stand-in breaks a call off exactly if no file does that no later entry is taken for. -/
theorem standIns_iff (hfolders : ∀ m ∈ p.found, m.isFile = false → breaksAt d m = false) :
    (∀ m ∈ p.files, breaksAt d (p.standIn m) = false) ↔
      ∀ front m back, p.found = front ++ m :: back → m.isFile = true →
        (∀ m' ∈ back, m'.key ≠ m.key) → breaksAt d m = false := by
  constructor
  · intro h front m back hsplit hfile hback
    rw [← standIn_of_last hsplit hback]
    exact h m (mem_files.mpr ⟨by rw [hsplit]; simp, hfile⟩)
  · intro h m hm
    obtain ⟨front, back, hsplit, hkey, hback⟩ := exists_standIn (mem_files.mp hm).1
    cases hfile : (p.standIn m).isFile with
    | false => exact hfolders _ (standIn_mem (mem_files.mp hm).1) hfile
    | true => exact h front _ back hsplit hfile (hkey ▸ hback)

/-! ## The loops -/

/-- A file is registered by its stand-in, unless the path of this is taken. -/
theorem register_first (hfits : ∀ m ∈ p.found, FitsRow m) (hm : m ∈ p.found) {l : List Metadata}
    {now : Tables} (hnow : Registered p.projectId l now) :
    (register p.projectId p.byPath m.bare).Ends now
      (fun x after => x.2 = p.standIn m ∧ Registered p.projectId (l ++ [p.standIn m]) after)
      (fun _ => (p.standIn m).path ∈ l.map (·.path)) := by
  have hfit : FitsRow (p.standIn m) := hfits _ (standIn_mem hm)
  unfold register
  by_cases hfree : ∀ r ∈ now.files, r.projectId = p.projectId → r.path ≠ (p.standIn m).path
  · have hrow : (Process.step (·.registerFile p.projectId (.ofMetadata (p.standIn m))) :
        Work FileRecord).Yields now fun _ after =>
          Registered p.projectId (l ++ [p.standIn m]) after :=
      Yields.step (registerFile_on p.projectId hfit hfree) (hnow.append hfit hfree)
    exact (hrow.bind fun _ after hafter => Yields.pure ⟨rfl, hafter⟩).ends _
  · have htaken : ∃ r ∈ now.files, r.projectId = p.projectId ∧ r.path = (p.standIn m).path := by
      simpa using hfree
    obtain ⟨r, hr, hp, hpath⟩ := htaken
    have hrow : (Process.step (·.registerFile p.projectId (.ofMetadata (p.standIn m))) :
        Work FileRecord).Ends now
          (fun _ after => Registered p.projectId (l ++ [p.standIn m]) after)
          (fun _ => (p.standIn m).path ∈ l.map (·.path)) := by
      refine Ends.step (fun r' db h => ?_) (hpath ▸ hnow.paths r hr hp)
      rw [registerFile_of_taken hfit ⟨r, hr, hp, hpath⟩] at h
      cases h
    exact hrow.bind fun _ after hafter => Ends.pure ⟨rfl, hafter⟩

/-- The first loop registers the stand-ins of all files, or stops at a path that comes up again. -/
theorem registerAll_first (hnone : p.tables.rowsOf p.projectId = [])
    (hfits : ∀ m ∈ p.found, FitsRow m) :
    ((p.files.map Metadata.bare).mapM (register p.projectId p.byPath)).Ends p.tables
      (fun created now => created.map Prod.snd = p.files.map p.standIn ∧
        Registered p.projectId (p.files.map p.standIn) now)
      (fun _ => ¬ ((p.files.map p.standIn).map (·.path)).Nodup) := by
  rw [List.mapM_map]
  refine Ends.mapM (I := fun front created now => created.map Prod.snd = front.map p.standIn ∧
    Registered p.projectId (front.map p.standIn) now) (fun front m rest created now hsplit hi => ?_) ?_
  · obtain ⟨hcreated, hnow⟩ := hi
    have hm : m ∈ p.files := by rw [hsplit]; simp
    refine (register_first hfits (mem_files.mp hm).1 hnow).mono ?_ ?_
    · rintro x after ⟨hx, hafter⟩
      rw [List.map_append, List.map_append, hcreated]
      exact ⟨by rw [List.map_singleton, hx]; rfl, hafter⟩
    · intro _ hagain hnodup
      rw [hsplit, List.map_append, List.map_append, List.map_cons, List.map_cons] at hnodup
      exact (List.nodup_append.mp hnodup).2.2 _ hagain _ List.mem_cons_self rfl
  · refine ⟨rfl, List.nodup_nil, fun r hr hp => ?_, List.forall_mem_nil _⟩
    have hmem : r ∈ p.tables.rowsOf p.projectId := Tables.mem_rowsOf.mpr ⟨hr, hp⟩
    rw [hnone] at hmem
    cases hmem

/-- Indexing leaves the registry as it is, or it ends at a file that breaks the call off. -/
theorem reindexAll_first (hl : d.Legal) {l : List (FileRecord × Metadata)} (ha : ∀ x ∈ l, x.2.Agrees d)
    (now : Tables) : (l.mapM fun x => reindex d x.1 x.2).Ends now
      (fun _ after => after.files = now.files ∧ ∀ x ∈ l, breaksAt d x.2 = false)
      (fun _ => ∃ x ∈ l, breaksAt d x.2 = true) := by
  refine Ends.mapM
    (I := fun (front : List (FileRecord × Metadata)) (_ : List Bool) mid =>
      mid.files = now.files ∧ ∀ x ∈ front, breaksAt d x.2 = false)
    (fun front x rest bs mid hsplit hi => ?_) ⟨rfl, List.forall_mem_nil _⟩
  obtain ⟨hfiles, hfront⟩ := hi
  have hx : x ∈ l := by rw [hsplit]; simp
  cases hbreak : breaksAt d x.2 with
  | false =>
    have hyields := (reindex_yields hl (ha x hx) hbreak x.1 mid).mono
      (R := fun _ after => after.files = now.files ∧ ∀ y ∈ front ++ [x], breaksAt d y.2 = false)
      fun _ after hafter => ⟨hafter.2.1.trans hfiles, by simpa [hbreak, or_imp, forall_and] using hfront⟩
    exact hyields.ends _
  | true =>
    have hstop := reindex_of_breaksAt (ha x hx) hbreak x.1 (on mid)
    exact Or.inr ⟨_, mid, hstop, x, hx, hbreak⟩

variable {s : Scanner} {root : String} {content : Bool} {maxFileSize? : Option Int}

/-- To a project without rows all files are new, and nothing else has changed. -/
theorem changes_first (hscan : s.scan d (scanOptions content maxFileSize?) root = .ok p.found) :
    s.changes d root [] = .ok ⟨p.files.map Metadata.bare, [], []⟩ := by
  have hbare := scan_bare s d (scanOptions content maxFileSize?) root
  rw [hscan] at hbare
  rw [Scanner.changes, show ScanOptions.default =
    (scanOptions content maxFileSize?).bare from rfl, hbare]
  have hfiles : (p.found.map Metadata.bare).filter (·.isFile) = p.files.map Metadata.bare := by
    rw [List.filter_map]
    rfl
  simp [Except.map, ChangeSet.between, knownTimes, Keyed.ofList, Keyed.get?, hfiles]

/-- The first scan of a project leaves the rows of the stand-ins, or it stops because two of these have
one path or because one of them breaks it off. -/
theorem scanProject_first (hnone : p.tables.rowsOf p.projectId = []) (hl : d.Legal)
    (hscan : s.scan d (scanOptions content maxFileSize?) root = .ok p.found) :
    (scanProject s d p.projectId root content maxFileSize?).Ends p.tables
      (fun _ after => Registered p.projectId (p.files.map p.standIn) after ∧
        ∀ m ∈ p.files, breaksAt d (p.standIn m) = false)
      (fun _ => ¬ ((p.files.map p.standIn).map (·.path)).Nodup ∨
        ∃ m ∈ p.files, breaksAt d (p.standIn m) = true) := by
  have hrows : p.rows = [] := by rw [rows, hnone]; rfl
  have hfirst : (Process.expect ((s.scan d (scanOptions content maxFileSize?) root).mapError
      .scan) : Work (List Metadata)).Yields p.tables
        fun found now => found = p.found ∧ now = p.tables := by
    rw [hscan]
    exact Yields.expect ⟨rfl, rfl⟩
  have hquery : (Process.query (·.filesOf p.projectId) : Work (List FileRecord)).Yields p.tables
      fun rows now => rows = [] ∧ now = p.tables := Yields.query rfl ⟨hrows, rfl⟩
  have hsecond : (Process.expect ((s.changes d root []).mapError .scan) : Work ChangeSet).Yields
      p.tables fun changes now => changes = ⟨p.files.map Metadata.bare, [], []⟩ ∧ now = p.tables := by
    rw [changes_first hscan]
    exact Yields.expect ⟨rfl, rfl⟩
  unfold scanProject
  refine (hfirst.ends _).bind ?_
  rintro _ _ ⟨rfl, rfl⟩
  refine (hquery.ends _).bind ?_
  rintro _ _ ⟨rfl, rfl⟩
  refine (hsecond.ends _).bind ?_
  rintro _ _ ⟨rfl, rfl⟩
  refine ((registerAll_first hnone (fitsRow_of_scan hl hscan)).mono (fun _ _ => id) fun _ => Or.inl).bind ?_
  rintro created now ⟨hcreated, hnow⟩
  have hstandIn : ∀ x ∈ created, ∃ m ∈ p.files, p.standIn m = x.2 := fun x hx =>
    List.mem_map.mp (hcreated ▸ List.mem_map_of_mem hx)
  have ha : ∀ x ∈ created, x.2.Agrees d := by
    intro x hx
    obtain ⟨m, hm, he⟩ := hstandIn x hx
    rw [← he]
    exact agrees_of_scan hl hscan _ (standIn_mem (mem_files.mp hm).1)
  -- nothing is newer than its row and nothing is gone, so the next two loops do nothing
  refine (Ends.pure (Q := fun xs mid => xs = [] ∧ Registered p.projectId (p.files.map p.standIn) mid)
    ⟨rfl, hnow⟩).bind ?_
  rintro _ now ⟨rfl, hnow⟩
  refine (Ends.pure (Q := fun (_ : Unit) mid => Registered p.projectId (p.files.map p.standIn) mid)
    hnow).bind ?_
  rintro _ now hnow
  rw [List.filterMap_nil, List.append_nil]
  refine ((reindexAll_first hl ha now).mono (fun _ _ => id) ?_).bind ?_
  · rintro _ ⟨x, hx, hbreak⟩
    obtain ⟨m, hm, he⟩ := hstandIn x hx
    exact Or.inr ⟨m, hm, he ▸ hbreak⟩
  · rintro done after ⟨hfiles, hreturned⟩
    refine Ends.pure ⟨hnow.congr hfiles, fun m hm => ?_⟩
    have hmem : p.standIn m ∈ created.map Prod.snd := hcreated ▸ List.mem_map_of_mem hm
    obtain ⟨x, hx, he⟩ := List.mem_map.mp hmem
    exact he ▸ hreturned x hx

/-- What the first scan of a project makes of its files. -/
theorem outcome_first (hnone : p.tables.rowsOf p.projectId = []) (hl : d.Legal)
    (hscan : s.scan d (scanOptions content maxFileSize?) root = .ok p.found) :
    let call := scanProject s d p.projectId root content maxFileSize? (on p.tables)
    (call.1.isOk = true ↔ (p.files.map Metadata.key).Nodup ∧
      ∀ front m back, p.found = front ++ m :: back → m.isFile = true →
        (∀ m' ∈ back, m'.key ≠ m.key) → breaksAt d m = false) ∧
      ((∃ report after, call = (.ok report, on after) ∧
          ∀ m ∈ p.found, m.isFile = true → HasRow p.projectId after m) ↔
        p.found.Pairwise (fun m m' => m.isFile = true → m.key ≠ m'.key) ∧
          ∀ m ∈ p.found, m.isFile = true → breaksAt d m = false) := by
  intro call
  have hends := scanProject_first hnone hl hscan
  have hpaths := nodup_paths_of_scan hl hscan
  have hfolders : ∀ m ∈ p.found, m.isFile = false → breaksAt d m = false := fun m hm hfile =>
    breaksAt_of_bytes? (bytes?_of_folder hl hscan hm hfile)
  rw [← nodup_standIns_iff, ← standIns_iff hfolders, ← standIn_eq_iff hpaths]
  refine ⟨⟨fun hok => ?_, fun ⟨hnodup, hreturned⟩ => ?_⟩, ?_, fun ⟨hself, hreturned⟩ => ?_⟩
  · obtain ⟨report, hcall⟩ := Process.eq_of_isOk _ _ hok
    obtain ⟨_, _, hregistered, hreturned⟩ := hends.of_completed hcall
    exact ⟨hregistered.distinct, hreturned⟩
  · rcases hends with ⟨report, after, hcall, _⟩ | ⟨_, _, _, hagain | ⟨m, hm, hbreak⟩⟩
    · rw [show call = (.ok report, on after) from hcall]
      rfl
    · exact absurd hnodup hagain
    · exact absurd (hreturned m hm) (by simp [hbreak])
  · rintro ⟨report, after, hcall, hrows⟩
    obtain ⟨_, hafter, hregistered, hreturned⟩ := hends.of_completed hcall
    cases hafter
    have hself : ∀ m ∈ p.files, p.standIn m = m := by
      intro m hm
      obtain ⟨hfound, hfile⟩ := mem_files.mp hm
      -- the row of the file is that of some stand-in, which can only be the file itself
      obtain ⟨r, hr, hp, hpath, _⟩ := hrows m hfound hfile
      obtain ⟨m₁, hm₁, hrow⟩ := List.mem_map.mp (hregistered.paths r hr hp)
      obtain ⟨m', hm', rfl⟩ := List.mem_map.mp hm₁
      have hfound' := (mem_files.mp hm').1
      obtain rfl := eq_of_key_eq hpaths (standIn_mem hfound') hfound (hrow.trans hpath)
      obtain ⟨_, _, _, hkey, _⟩ := exists_standIn hfound'
      exact eq_of_key_eq hpaths (standIn_mem hfound) hfound
        ((standIn_path_eq_iff hfound hfound').mpr hkey)
    refine ⟨hself, fun m hm hfile => ?_⟩
    rw [← hself m (mem_files.mpr ⟨hm, hfile⟩)]
    exact hreturned m (mem_files.mpr ⟨hm, hfile⟩)
  · have hsame : p.files.map p.standIn = p.files := by
      conv => rhs; rw [← List.map_id p.files]
      exact List.map_congr_left hself
    rw [hsame] at hends
    rcases hends with ⟨report, after, hcall, hregistered, _⟩ | ⟨_, _, _, hagain | ⟨m, hm, hbreak⟩⟩
    · exact ⟨report, after, hcall, fun m hm hfile => hregistered.rows m (mem_files.mpr ⟨hm, hfile⟩)⟩
    · exact absurd (hpaths.sublist (List.filter_sublist.map _)) hagain
    · obtain ⟨hfound, hfile⟩ := mem_files.mp hm
      rw [hself m hm, hreturned m hfound hfile] at hbreak
      cases hbreak

end Pass

/-- A first scan of a project fails on its root, with the database as it was, or it finds entries of which no
two have one path. It takes two of them for one exactly if the path of one is that of the other, which has no
backslash at its end, with a backslash behind it. It completes exactly if no two files are taken for one and no
file breaks it off that is not taken for an entry behind it. And every file has its row then exactly if no file
is taken for an entry that is listed behind it and no file breaks the call off. -/
theorem told_apart_iff (s : Scanner) (d : Disk) (projectId root : String) (content : Bool)
    (maxFileSize? : Option Int) (t : Tables) (hl : d.Legal) (hd : d.Dated) (hnone : t.rowsOf projectId = []) :
    let call := scanProject s d projectId root content maxFileSize? (on t)
    (∀ e, d.resolve root = .error e → call = (.error (.scan (.link e)), on t)) ∧
    ∀ path, d.resolve root = .ok path → ∃ found,
      s.scan d (scanOptions content maxFileSize?) root = .ok found ∧
      (found.map (·.path)).Nodup ∧
      ((found.map Metadata.key).Nodup ↔ ∀ m ∈ found, ∀ m' ∈ found, ¬ Marks m.path m'.path) ∧
      (call.1.isOk = true ↔ ((found.filter (·.isFile)).map Metadata.key).Nodup ∧
        ∀ front m back, found = front ++ m :: back → m.isFile = true →
          (∀ m' ∈ back, m'.key ≠ m.key) → breaksAt d m = false) ∧
      ((∃ report after, call = (.ok report, on after) ∧
          ∀ m ∈ found, m.isFile = true → HasRow projectId after m) ↔
        found.Pairwise (fun m m' => m.isFile = true → m.key ≠ m'.key) ∧
          ∀ m ∈ found, m.isFile = true → breaksAt d m = false) := by
  refine ⟨fun e he => scanProject_of_error (scan_of_unresolved he) _, fun path hpath => ?_⟩
  obtain ⟨found, hscan⟩ := scan_of_dated (s := s) (o := scanOptions content maxFileSize?) hl hd hpath
  let p : Pass := ⟨t, projectId, found⟩
  exact ⟨found, hscan, nodup_paths_of_scan hl hscan, nodup_keys_iff_of_scan hl hscan,
    Pass.outcome_first (p := p) hnone hl hscan⟩

/-- A folder, and behind it a file whose name is that of the folder with a backslash. -/
def markedFile : Disk :=
  .holding [.folder "a" defaultTime [.file "b.php" [59] defaultTime], .file "a\\" [97, 97] defaultTime]

/-- The folder and the file are taken for one, but this costs neither file its row. -/
theorem told_apart_of_markedFile : ∃ found report after,
    Scanner.default.scan markedFile (scanOptions false none) "/" = .ok found ∧
    found.map (·.path) = ["/a", "/a/b.php", "/a\\"] ∧ ¬ (found.map Metadata.key).Nodup ∧
    scanProject .default markedFile "p" "/" false none .empty = (.ok report, on after) ∧
    ∀ m ∈ found, m.isFile = true → HasRow "p" after m := by
  obtain ⟨found, hscan, _, _, _, hrows⟩ := (told_apart_iff .default markedFile "p" "/" false none
    .empty (by decide +kernel) (by decide +kernel) rfl).2 "/" rfl
  have hcheck : (Scanner.default.scan markedFile (scanOptions false none) "/").toOption.map
      (fun found => (found.map (·.path), decide (found.map Metadata.key).Nodup,
        decide (found.Pairwise fun m m' => m.isFile = true → m.key ≠ m'.key),
        decide (∀ m ∈ found, m.isFile = true → breaksAt markedFile m = false))) =
      some (["/a", "/a/b.php", "/a\\"], false, true, true) := by decide +kernel
  rw [hscan] at hcheck
  obtain ⟨hpaths, hkeys, hpairs, hreturned⟩ : _ ∧ _ ∧ _ ∧ _ := by simpa using Option.some.inj hcheck
  obtain ⟨report, after, hcall, hall⟩ := hrows.mpr ⟨hpairs, hreturned⟩
  exact ⟨found, report, after, hscan, hpaths, hkeys, hcall, hall⟩

/-- Two files whose names differ by a backslash at the end. -/
def twinFiles : Disk := .holding [.file "a.js" [59] defaultTime, .file "a.js\\" [97, 97] defaultTime]

/-- Distinct files can be taken for one, and the first scan of a project can fail for that. -/
theorem not_always_told_apart :
    (¬ ∀ (s : Scanner) (d : Disk) (o : ScanOptions) (root : String) (found : List Metadata),
      d.Legal → d.Dated → s.scan d o root = .ok found → (found.map Metadata.key).Nodup) ∧
    ¬ ∀ (s : Scanner) (d : Disk) (projectId root : String) (content : Bool)
      (maxFileSize? : Option Int) (path : String), d.Legal → d.Dated → d.resolve root = .ok path →
      (scanProject s d projectId root content maxFileSize? .empty).1.isOk = true := by
  constructor
  · intro h
    have hl : twinFiles.Legal := by decide +kernel
    have hd : twinFiles.Dated := by decide +kernel
    have hroot : twinFiles.resolve "/" = .ok "/" := rfl
    obtain ⟨found, hscan⟩ := scan_of_dated (s := .default) (o := .default) hl hd hroot
    have hkeys := h .default twinFiles .default "/" found hl hd hscan
    have hcheck : (Scanner.default.scan twinFiles .default "/").toOption.map
        (fun found => decide (found.map Metadata.key).Nodup) = some false := by decide +kernel
    rw [hscan] at hcheck
    exact of_decide_eq_false (Option.some.inj hcheck) hkeys
  · intro h
    have hok := h .default twinFiles "p" "/" false none "/" (by decide +kernel) (by decide +kernel) rfl
    revert hok
    decide +kernel

end CodeAtlas.Project
