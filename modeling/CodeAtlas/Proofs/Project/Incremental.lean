import CodeAtlas.Proofs.Project.Reached

/-! # Incremental indexing

A run of completed calls for one project from an empty database, while the disk changes between the
calls. What the index says of a file after a call is what an index made from scratch would say,
provided that clocks are fair: a file whose bytes differ from those of an earlier listing has become
newer. The invariant needs no clocks: every row says what some call of the run has listed of its path,
and its records are those of the text which that call found.

All this is so exactly if no file is ever listed under another spelling of its path than its row has.
It cannot be if the root is always resolved to a path in normal form. -/

namespace CodeAtlas.Project

open CodeAtlas.Disk CodeAtlas.Outline CodeAtlas.Scan CodeAtlas.Store
open CodeAtlas.Store.Process (on)

/-- A call of a run: the disk as it is then, and what may differ from call to call. -/
structure Call where
  disk : Disk
  content : Bool
  maxFileSize? : Option Int

namespace Call

variable (s : Scanner) (root : String)

/-- The regular files that a call lists. -/
def files (c : Call) : List Metadata :=
  ((s.scan c.disk (scanOptions c.content c.maxFileSize?) root).toOption.getD []).filter (·.isFile)

/-- What a call can meet: a disk without names that end in a backslash, and no failing read. Listing
and asking for kinds and times may fail. -/
structure Plain (c : Call) : Prop where
  legal : c.disk.Legal
  unmarked : c.disk.Unmarked
  readable : c.disk.unread = []

/-- Whether the root is resolved to a path in normal form, if it can be resolved. -/
def Normal (c : Call) : Prop := ∀ path, c.disk.resolve root = .ok path → Path.normalize path = path

/-- What clocks promise of two calls: a file that both list has not become older, and it has become
newer if its bytes differ. -/
def Follows (later earlier : Call) : Prop :=
  ∀ m ∈ earlier.files s root, ∀ m' ∈ later.files s root, m'.path = m.path →
    m.modified.isAfter m'.modified = false ∧
      (earlier.disk.bytes? m.path ≠ later.disk.bytes? m.path →
        m'.modified.isAfter m.modified = true)

instance (later earlier : Call) : Decidable (Call.Follows s root later earlier) :=
  inferInstanceAs (Decidable (∀ m ∈ _, ∀ m' ∈ _, _ → _ ∧ _))

end Call

section

variable (s : Scanner) (projectId root : String)

/-- The database after some calls, of which the last comes first. -/
def databaseAfter : List Call → Database
  | [] => .empty
  | c :: past => (scanProject s c.disk projectId root c.content c.maxFileSize? (databaseAfter past)).2

/-- Runs of completed calls for one project from an empty database. -/
inductive Run : List Call → Prop
  | start : Run []
  | call (c : Call) {past : List Call} : Run past →
      (scanProject s c.disk projectId root c.content c.maxFileSize?
        (databaseAfter s projectId root past)).1.isOk = true → Run (c :: past)

/-- A file is indexed as it is: exactly one row of the project has its path, the row has its size and
time, and what is stored under the row is what its text declares, which is nothing if the file is not
supported or has errors. -/
def Indexed (db : Database) (d : Disk) (m : Metadata) : Prop :=
  ∃ rows r bytes, db.filesOf projectId = .ok rows ∧ rows.filter (·.path == m.path) = [r] ∧
    d.bytes? m.path = some bytes ∧ r.size = bytes.length ∧ r.modified = m.modified ∧
    let f := Outline.parse m.path (textOf bytes) .default
    db.Stores r.fileId f ∧ (isSupported m.path = false ∨ f.hasErrors = true →
      f.entities = [] ∧ f.imports = [] ∧ f.exports = [])

/-- After each of some calls, all regular files that it lists are indexed as they are. -/
def AlwaysIndexed : List Call → Prop
  | [] => True
  | c :: past => (∀ m ∈ c.files s root,
      Indexed projectId (databaseAfter s projectId root (c :: past)) c.disk m) ∧ AlwaysIndexed past

/-- None of some calls lists a file that has a row with another spelling of its path. -/
def AlwaysSpelled : List Call → Prop
  | [] => True
  | c :: past => (∀ rows, (databaseAfter s projectId root past).filesOf projectId = .ok rows →
      ∀ m ∈ c.files s root, ∀ r ∈ rows, r.key = m.key → r.path = m.path) ∧ AlwaysSpelled past

end

variable {s : Scanner} {projectId root : String} {past : List Call} {c : Call}
  {t after : Tables} {r : FileRecord} {m : Metadata}

/-! ## Listings -/

theorem Call.files_eq {found : List Metadata}
    (h : s.scan c.disk (scanOptions c.content c.maxFileSize?) root = .ok found) :
    c.files s root = found.filter (·.isFile) := by
  rw [files, h]
  rfl

theorem Call.exists_scan (h : m ∈ c.files s root) : ∃ found,
    s.scan c.disk (scanOptions c.content c.maxFileSize?) root = .ok found ∧ m ∈ found ∧
      m.isFile = true := by
  unfold files at h
  cases hscan : s.scan c.disk (scanOptions c.content c.maxFileSize?) root with
  | error e => simp [hscan, Except.toOption] at h
  | ok found =>
    simp only [hscan, Except.toOption, Option.getD_some] at h
    exact ⟨found, rfl, List.mem_filter.mp h⟩

theorem Call.key_eq_path (hc : c.Plain) (hn : c.Normal root) (h : m ∈ c.files s root) :
    m.key = m.path := by
  obtain ⟨found, hscan, hm, _⟩ := exists_scan h
  obtain ⟨path, hr, _, _⟩ := exists_of_scan hscan
  exact key_eq_path_of_scan hc.legal hc.unmarked hr (hn path hr) hscan m hm

theorem Call.Plain.normal_of_target? {e : Entry} (hc : c.Plain) (h : c.disk.target? root = some e) :
    c.Normal root :=
  fun _ hr => Scan.normal_of_target? hc.legal hc.unmarked h hr

theorem Call.agrees (hc : c.Plain) (h : m ∈ c.files s root) : m.Agrees c.disk := by
  obtain ⟨found, hscan, hm, _⟩ := exists_scan h
  exact agrees_of_scan hc.legal hscan m hm

theorem Call.isFile (h : m ∈ c.files s root) : m.isFile = true := by
  obtain ⟨_, _, _, hf⟩ := exists_scan h
  exact hf

/-- The records of a file that can be read are those of its text, whether it is supported or not. -/
theorem Call.records_eq {bytes : List UInt8} (hc : c.Plain)
    (hb : c.disk.bytes? m.path = some bytes) :
    (if indexes c.disk m then recordsFor c.disk m else .none) =
      .ofParsed (Outline.parse m.path (textOf bytes) .default) := by
  have hread : c.disk.readText? m.path = some (textOf bytes) := by
    rw [Disk.readText?_eq, hc.readable, hb]
    rfl
  unfold indexes recordsFor
  rw [hread]
  cases hs : isSupported m.path with
  | true => rfl
  | false => exact (ofParsed_of_unsupported hs _ _).symm

theorem Call.unsupported_of_not_indexed (hc : c.Plain) (hm : m ∈ c.files s root)
    (h : indexes c.disk m = false) : isSupported m.path = false := by
  obtain ⟨bytes, hb, _⟩ := (Call.agrees hc hm).bytes (Call.isFile hm)
  have hread : (c.disk.readText? m.path).isSome = true := by
    rw [Disk.readText?_eq, hc.readable, hb]
    rfl
  simpa [indexes, hread] using h

/-! ## Calls as passes -/

theorem Run.reached {calls : List Call} (h : Run s projectId root calls)
    (hplain : ∀ c ∈ calls, c.Plain) : Reached (databaseAfter s projectId root calls) := by
  induction h with
  | start => exact .empty
  | call c _ _ ih =>
    obtain ⟨hc, hpast⟩ := List.forall_mem_cons.mp hplain
    exact .scanned s projectId root c.content c.maxFileSize? (ih hpast) hc.legal hc.unmarked

/-- The last call of a run was a pass over the tables before it. -/
theorem Run.exists_pass (h : Run s projectId root (c :: past))
    (hplain : ∀ c' ∈ c :: past, c'.Plain) : ∃ t found after,
      databaseAfter s projectId root past = on t ∧
      s.scan c.disk (scanOptions c.content c.maxFileSize?) root = .ok found ∧
      databaseAfter s projectId root (c :: past) = on after ∧
      Pass.Ready ⟨t, projectId, found⟩ ∧ Pass.Done ⟨t, projectId, found⟩ c.disk after := by
  obtain ⟨hc, hpast⟩ := List.forall_mem_cons.mp hplain
  cases h with
  | call _ hrun hok =>
    obtain ⟨t, ht, hsound⟩ := (hrun.reached hpast).sound
    rw [ht] at hok
    obtain ⟨found, after, hscan, hafter, hready, hdone⟩ :=
      exists_pass_of_isOk hsound hc.legal hc.unmarked hok
    refine ⟨t, found, after, ht, hscan, ?_, hready, hdone⟩
    rw [databaseAfter, ht, hafter]

/-- A run goes on with any call that can list its files, if none of them breaks it off. -/
theorem Run.extend (h : Run s projectId root past) (hplain : ∀ c' ∈ c :: past, c'.Plain)
    (hscan : (s.scan c.disk (scanOptions c.content c.maxFileSize?) root).isOk = true)
    (hreturned : ∀ m ∈ c.files s root, breaksAt c.disk m = false) :
    Run s projectId root (c :: past) := by
  obtain ⟨hc, hpast⟩ := List.forall_mem_cons.mp hplain
  obtain ⟨t, ht, hsound⟩ := (h.reached hpast).sound
  cases hfound : s.scan c.disk (scanOptions c.content c.maxFileSize?) root with
  | error e => simp [hfound, Except.isOk, Except.toBool] at hscan
  | ok found =>
    refine .call c h ?_
    rw [ht]
    refine (isOk_iff_of_scan hsound hc.legal hc.unmarked hfound).mpr fun m hm => hreturned m ?_
    rw [Call.files_eq hfound]
    exact List.mem_filter.mpr (Pass.mem_found_of_changed hm)

/-! ## The invariant -/

/-- What it means for one call that no file is listed under another spelling. -/
def Spelled (s : Scanner) (projectId root : String) (c : Call) (t : Tables) : Prop :=
  ∀ m ∈ c.files s root, ∀ r ∈ t.rowsOf projectId, r.key = m.key → r.path = m.path

theorem alwaysSpelled_cons (h : databaseAfter s projectId root past = on t) :
    AlwaysSpelled s projectId root (c :: past) ↔
      Spelled s projectId root c t ∧ AlwaysSpelled s projectId root past := by
  rw [AlwaysSpelled, h]
  refine and_congr_left' ⟨fun hs m hm r hr => ?_, fun hs rows hrows m hm r hr => ?_⟩
  · exact hs _ rfl m hm r.handedOut (List.mem_map_of_mem hr)
  · cases hrows
    obtain ⟨row, hrow, rfl⟩ := List.mem_map.mp hr
    exact hs m hm row hrow

/-- A row says what some call of a run has listed of its path. -/
def Reflects (s : Scanner) (root : String) (past : List Call) (t : Tables) (r : FileRecord) : Prop :=
  ∃ c ∈ past, ∃ m ∈ c.files s root, r.path = m.path ∧ r.size = m.size ∧
    r.modified.wall = m.modified.wall ∧
    ∃ bytes, c.disk.bytes? m.path = some bytes ∧
      t.recordsOf r.fileId = .ofParsed (Outline.parse m.path (textOf bytes) .default)

/-- A row that a call has made or refreshed says what that call has listed. -/
theorem reflects_of_touched (hc : c.Plain) (hm : m ∈ c.files s root) (hp : r.path = m.path)
    (hs : r.size = m.size) (hw : r.modified.wall = m.modified.wall)
    (hr : after.recordsOf r.fileId = if indexes c.disk m then recordsFor c.disk m else .none) :
    Reflects s root (c :: past) after r := by
  obtain ⟨bytes, hb, _⟩ := (Call.agrees hc hm).bytes (Call.isFile hm)
  exact ⟨c, List.mem_cons_self, m, hm, hp, hs, hw, bytes, hb, hr.trans (Call.records_eq hc hb)⟩

section

variable {found : List Metadata}

theorem Call.mem_files (hscan : s.scan c.disk (scanOptions c.content c.maxFileSize?) root = .ok found)
    (hm : m ∈ found) (hf : m.isFile = true) : m ∈ c.files s root := by
  rw [Call.files_eq hscan]
  exact List.mem_filter.mpr ⟨hm, hf⟩

/-- One call: if all rows reflect earlier calls, they reflect these or the new one afterwards. -/
theorem reflects_step (hc : c.Plain)
    (hscan : s.scan c.disk (scanOptions c.content c.maxFileSize?) root = .ok found)
    (h : Pass.Ready ⟨t, projectId, found⟩) (hd : Pass.Done ⟨t, projectId, found⟩ c.disk after)
    (hspelled : Spelled s projectId root c t)
    (hall : ∀ r ∈ t.rowsOf projectId, Reflects s root past t r) :
    ∀ r ∈ after.rowsOf projectId, Reflects s root (c :: past) after r := by
  intro r hr
  obtain ⟨hr, hp⟩ := Tables.mem_rowsOf.mp hr
  rcases hd.row_cases h hr with hk | ⟨r₀, m, hx, rfl⟩ | ⟨m, hx⟩
  · obtain ⟨c₀, hc₀, m₀, hm₀, hpath, hsize, hwall, bytes, hb, hrecords⟩ :=
      hall r (Tables.mem_rowsOf.mpr ⟨hk.row, hp⟩)
    exact ⟨c₀, List.mem_cons_of_mem c hc₀, m₀, hm₀, hpath, hsize, hwall, bytes, hb,
      (hd.records_kept h hk).trans hrecords⟩
  · obtain ⟨hm, hr₀, hp₀, hk₀⟩ := (Pass.mem_renewed h.sound.rows).mp hx
    obtain ⟨hfound, hfile, _⟩ := (Pass.mem_modified h.sound.rows).mp hm
    have hm := Call.mem_files hscan hfound hfile
    have hrow₀ := Tables.mem_rowsOf.mpr ⟨hr₀, hp₀⟩
    obtain ⟨c₀, hc₀, m₀, hm₀, hpath, _, _, _, _, hrecords⟩ := hall r₀ hrow₀
    have hpath₀ : r₀.path = m.path := hspelled m hm r₀ hrow₀ hk₀
    refine reflects_of_touched hc hm hpath₀ rfl rfl ?_
    rw [show (r₀.refreshed m).fileId = r₀.fileId from rfl,
      hd.records_touched h (List.mem_append_right _ hx)]
    split
    · rfl
    · next hi =>
      -- a file that is not supported has never had records
      have hs := Call.unsupported_of_not_indexed hc hm (by simpa using hi)
      rw [← hpath₀, hpath] at hs
      exact hrecords.trans (ofParsed_of_unsupported hs _ _)
  · have hnew := Pass.registers_of_created hx
    have hm := Call.mem_files hscan hnew.found.1 hnew.found.2
    have hwall : r.modified.wall = m.modified.wall := by rw [hnew.modified]
    exact reflects_of_touched hc hm hnew.path hnew.size hwall (hd.records_created h hx)

/-- A call that lists no file under another spelling leaves its row with the path that it lists. -/
theorem path_eq_of_spelled
    (hscan : s.scan c.disk (scanOptions c.content c.maxFileSize?) root = .ok found)
    (h : Pass.Ready ⟨t, projectId, found⟩) (hd : Pass.Done ⟨t, projectId, found⟩ c.disk after)
    (hspelled : Spelled s projectId root c t) (hm : m ∈ found) (hf : m.isFile = true)
    (hr : r ∈ after.files) (hp : r.projectId = projectId) (hk : r.key = m.key) :
    r.path = m.path := by
  have hlisted := Call.mem_files hscan hm hf
  rcases hd.row_cases h hr with hkeep | ⟨r₀, m₀, hx, rfl⟩ | ⟨m₀, hx⟩
  · exact hspelled m hlisted r (Tables.mem_rowsOf.mpr ⟨hkeep.row, hp⟩) hk
  · obtain ⟨_, hr₀, _, _⟩ := (Pass.mem_renewed h.sound.rows).mp hx
    exact hspelled m hlisted r₀ (Tables.mem_rowsOf.mpr ⟨hr₀, hp⟩) hk
  · have hnew := Pass.registers_of_created hx
    obtain rfl := eq_of_key_eq h.distinct hnew.found.1 hm (hnew.key.symm.trans hk)
    exact hnew.path

end

theorem Run.reflects {calls : List Call} (h : Run s projectId root calls)
    (hplain : ∀ c ∈ calls, c.Plain) (hspelled : AlwaysSpelled s projectId root calls)
    (ht : databaseAfter s projectId root calls = on t) :
    ∀ r ∈ t.rowsOf projectId, Reflects s root calls t r := by
  induction h generalizing t with
  | start =>
    cases ht
    exact List.forall_mem_nil _
  | @call c past hrun hok ih =>
    obtain ⟨hc, hpast⟩ := List.forall_mem_cons.mp hplain
    obtain ⟨t₀, found, after, ht₀, hscan, hafter, hready, hdone⟩ := (hrun.call c hok).exists_pass hplain
    obtain ⟨hnow, hbefore⟩ := (alwaysSpelled_cons ht₀).mp hspelled
    rw [hafter] at ht
    cases ht
    exact reflects_step hc hscan hready hdone hnow (ih hpast hbefore ht₀)

/-! ## After the last call -/

/-- No call lists a path twice. -/
theorem Call.eq_of_path_eq (hc : c.Plain) {m' : Metadata} (hm : m ∈ c.files s root)
    (hm' : m' ∈ c.files s root) (h : m.path = m'.path) : m = m' := by
  obtain ⟨found, hscan, hfound, _⟩ := exists_scan hm
  obtain ⟨found', hscan', hfound', _⟩ := exists_scan hm'
  obtain rfl := Except.ok.inj (hscan.symm.trans hscan')
  exact eq_of_key_eq (nodup_keys_of_scan hc.legal hc.unmarked hscan) hfound hfound'
    (congrArg Path.normalize h)

theorem Call.instant_eq (hc : c.Plain) (hm : m ∈ c.files s root) :
    m.modified.instant = m.modified.wall := by
  simp [Time.Moment.instant, (agrees hc hm).universal]

/-- A file that has not become newer since an earlier call is the same. -/
theorem Call.Follows.unchanged {c₀ : Call} {m₀ : Metadata} (hf : c.Follows s root c₀) (hc : c.Plain)
    (hc₀ : c₀.Plain) (hm : m ∈ c.files s root) (hm₀ : m₀ ∈ c₀.files s root)
    (hsame : m.path = m₀.path) (hle : m.modified.wall ≤ m₀.modified.wall) :
    m₀.modified.wall = m.modified.wall ∧ c₀.disk.bytes? m₀.path = c.disk.bytes? m₀.path := by
  obtain ⟨hmono, hnewer⟩ := hf m₀ hm₀ m hm hsame
  have hi := Call.instant_eq hc hm
  have hi₀ := Call.instant_eq hc₀ hm₀
  simp only [Time.Moment.isAfter, decide_eq_false_iff_not, decide_eq_true_eq] at hmono hnewer
  refine ⟨by omega, ?_⟩
  by_cases hne : c₀.disk.bytes? m₀.path = c.disk.bytes? m₀.path
  · exact hne
  · have hlt := hnewer hne
    omega

/-- A row that reflects a run says what the last call lists of its file, unless it is older. -/
theorem Reflects.current (hr : Reflects s root (c :: past) t r)
    (hplain : ∀ c' ∈ c :: past, c'.Plain) (hclock : ∀ c' ∈ past, c.Follows s root c')
    (hm : m ∈ c.files s root) (hp : r.path = m.path) (hnaive : r.modified.offset? = none)
    (hcurrent : m.modified.isAfter r.modified = false) :
    r.modified.wall = m.modified.wall ∧
      ∃ bytes, c.disk.bytes? m.path = some bytes ∧ r.size = bytes.length ∧
        t.recordsOf r.fileId = .ofParsed (Outline.parse m.path (textOf bytes) .default) := by
  obtain ⟨c₀, hc₀, m₀, hm₀, hpath, hsize, hwall, bytes, hb, hrecords⟩ := hr
  have hplain₀ := hplain c₀ hc₀
  have hsame : m₀.path = m.path := hpath.symm.trans hp
  have hlength : r.size = bytes.length := by
    obtain ⟨bytes', hb', hsize', _⟩ := (Call.agrees hplain₀ hm₀).bytes (Call.isFile hm₀)
    obtain rfl := Option.some.inj (hb.symm.trans hb')
    exact hsize.trans hsize'
  rcases List.mem_cons.mp hc₀ with rfl | hc₀
  · obtain rfl := Call.eq_of_path_eq hplain₀ hm₀ hm hsame
    exact ⟨hwall, bytes, hb, hlength, hrecords⟩
  · have hc := hplain c List.mem_cons_self
    have hle : m.modified.wall ≤ m₀.modified.wall := by
      have hi := Call.instant_eq hc hm
      have hir : r.modified.instant = r.modified.wall := by simp [Time.Moment.instant, hnaive]
      simp only [Time.Moment.isAfter, decide_eq_false_iff_not] at hcurrent
      omega
    obtain ⟨htime, hbytes⟩ := (hclock c₀ hc₀).unchanged hc hplain₀ hm hm₀ hsame.symm hle
    rw [← hsame]
    exact ⟨hwall.trans htime, bytes, hbytes ▸ hb, hlength, hrecords⟩

section

variable {found : List Metadata}

/-- One call of a run that lists no file under another spelling. -/
theorem indexed_of_spelled (hplain : ∀ c' ∈ c :: past, c'.Plain)
    (hclock : ∀ c' ∈ past, c.Follows s root c')
    (hscan : s.scan c.disk (scanOptions c.content c.maxFileSize?) root = .ok found)
    (h : Pass.Ready ⟨t, projectId, found⟩) (hd : Pass.Done ⟨t, projectId, found⟩ c.disk after)
    (hspelled : Spelled s projectId root c t)
    (hall : ∀ r ∈ t.rowsOf projectId, Reflects s root past t r) :
    ∀ m ∈ c.files s root, Indexed projectId (on after) c.disk m := by
  intro m hm
  have hc := hplain c List.mem_cons_self
  obtain ⟨found', hscan', hfound, hfile⟩ := Call.exists_scan hm
  obtain rfl := Except.ok.inj (hscan.symm.trans hscan')
  obtain ⟨r, hr, hp, hk⟩ := hd.exists_row h hfound hfile
  have hrow : r ∈ after.rowsOf projectId := Tables.mem_rowsOf.mpr ⟨hr, hp⟩
  have hpath : r.path = m.path := path_eq_of_spelled hscan h hd hspelled hfound hfile hr hp hk
  have hreflects := reflects_step hc hscan h hd hspelled hall r hrow
  have hnaive := hd.rows.naive r hr
  obtain ⟨hwall, bytes, hb, hsize, hrecords⟩ := hreflects.current hplain hclock hm hpath hnaive
    (hd.current h hr hp hfound hfile hk)
  refine ⟨(after.rowsOf projectId).map (·.handedOut), r.handedOut, bytes, rfl, ?_, hb, hsize, ?_,
    Tables.stores_of_recordsOf hrecords, declares_nothing⟩
  · rw [← hpath]
    exact Tables.filter_handedOut (fun _ => rfl) (Tables.nodup_paths_rowsOf hd.rows projectId) hrow
  · rw [FileRecord.handedOut_modified hnaive, hwall, ← (Call.agrees hc hm).universal]

/-- A row keeps its path, so a file that is indexed has not been listed under another spelling. -/
theorem spelled_of_indexed
    (hscan : s.scan c.disk (scanOptions c.content c.maxFileSize?) root = .ok found)
    (h : Pass.Ready ⟨t, projectId, found⟩) (hd : Pass.Done ⟨t, projectId, found⟩ c.disk after)
    (hall : ∀ m ∈ c.files s root, Indexed projectId (on after) c.disk m) :
    Spelled s projectId root c t := by
  intro m hm r hr hk
  obtain ⟨hr, hp⟩ := Tables.mem_rowsOf.mp hr
  obtain ⟨found', hscan', hfound, _⟩ := Call.exists_scan hm
  obtain rfl := Except.ok.inj (hscan.symm.trans hscan')
  obtain ⟨r', hr', hp', hpath'⟩ := hd.exists_row_of_found h hr hp hfound hk
  obtain ⟨rows, row, _, hrows, hone, _⟩ := hall m hm
  cases hrows
  have hrow : row ∈ ((after.rowsOf projectId).map (·.handedOut)).filter (·.path == m.path) :=
    hone ▸ List.mem_singleton_self row
  obtain ⟨hrow, hpath⟩ := List.mem_filter.mp hrow
  obtain ⟨last, hlast, rfl⟩ := List.mem_map.mp hrow
  obtain ⟨hlast, hplast⟩ := Tables.mem_rowsOf.mp hlast
  have hpath : last.path = m.path := beq_iff_eq.mp hpath
  have hkey : r'.key = last.key := by
    rw [FileRecord.key, hpath', ← FileRecord.key, hk, FileRecord.key, hpath, Metadata.key]
  obtain rfl := hd.rows.eq_of_key_eq hr' hlast (hp'.trans hplast.symm) hkey
  exact hpath'.symm.trans hpath

/-- One call with a root in normal form: the paths of all rows are in normal form again. -/
theorem normal_step (hc : c.Plain) (hn : c.Normal root)
    (hscan : s.scan c.disk (scanOptions c.content c.maxFileSize?) root = .ok found)
    (h : Pass.Ready ⟨t, projectId, found⟩) (hd : Pass.Done ⟨t, projectId, found⟩ c.disk after)
    (hall : ∀ r ∈ t.rowsOf projectId, r.key = r.path) :
    ∀ r ∈ after.rowsOf projectId, r.key = r.path := by
  intro r hr
  obtain ⟨hr, hp⟩ := Tables.mem_rowsOf.mp hr
  rcases hd.row_cases h hr with hkeep | ⟨r₀, m, hx, rfl⟩ | ⟨m, hx⟩
  · exact hall r (Tables.mem_rowsOf.mpr ⟨hkeep.row, hp⟩)
  · obtain ⟨_, hr₀, _, _⟩ := (Pass.mem_renewed h.sound.rows).mp hx
    exact hall r₀ (Tables.mem_rowsOf.mpr ⟨hr₀, hp⟩)
  · have hnew := Pass.registers_of_created hx
    have hkey := Call.key_eq_path hc hn (Call.mem_files hscan hnew.found.1 hnew.found.2)
    exact hnew.key.trans (hkey.trans hnew.path.symm)

end

theorem Run.normal {calls : List Call} (h : Run s projectId root calls)
    (hplain : ∀ c ∈ calls, c.Plain) (hnormal : ∀ c ∈ calls, c.Normal root)
    (ht : databaseAfter s projectId root calls = on t) : ∀ r ∈ t.rowsOf projectId, r.key = r.path := by
  induction h generalizing t with
  | start =>
    cases ht
    exact List.forall_mem_nil _
  | @call c past hrun hok ih =>
    obtain ⟨hc, hpast⟩ := List.forall_mem_cons.mp hplain
    obtain ⟨hn, hbefore⟩ := List.forall_mem_cons.mp hnormal
    obtain ⟨t₀, found, after, ht₀, hscan, hafter, hready, hdone⟩ := (hrun.call c hok).exists_pass hplain
    rw [hafter] at ht
    cases ht
    exact normal_step hc hn hscan hready hdone (ih hpast hbefore ht₀)

theorem Run.spelled {calls : List Call} (h : Run s projectId root calls)
    (hplain : ∀ c ∈ calls, c.Plain) (hnormal : ∀ c ∈ calls, c.Normal root) :
    AlwaysSpelled s projectId root calls := by
  induction h with
  | start => trivial
  | @call c past hrun hok ih =>
    obtain ⟨hc, hpast⟩ := List.forall_mem_cons.mp hplain
    obtain ⟨hn, hbefore⟩ := List.forall_mem_cons.mp hnormal
    obtain ⟨t, ht, _⟩ := (hrun.reached hpast).sound
    refine (alwaysSpelled_cons ht).mpr ⟨fun m hm r hr hk => ?_, ih hpast hbefore⟩
    rw [← hrun.normal hpast hbefore ht r hr, hk, Call.key_eq_path hc hn hm]

/-- After each call of a run all files that it lists are indexed as they are, if and only if no call
lists a file whose row has another spelling of its path. This holds if every call resolves the root to
a path in normal form, as it does when there is something at the root. -/
theorem indexed_iff_of_run {calls : List Call} (hrun : Run s projectId root calls)
    (hplain : ∀ c ∈ calls, c.Plain) (hclock : calls.Pairwise (Call.Follows s root)) :
    (AlwaysIndexed s projectId root calls ↔ AlwaysSpelled s projectId root calls) ∧
      ((∀ c ∈ calls, c.Normal root) → AlwaysIndexed s projectId root calls) := by
  have hiff : AlwaysIndexed s projectId root calls ↔ AlwaysSpelled s projectId root calls := by
    induction hrun with
    | start => exact Iff.rfl
    | @call c past hrun hok ih =>
      obtain ⟨hc, hpast⟩ := List.forall_mem_cons.mp hplain
      obtain ⟨hfollows, hearlier⟩ := List.pairwise_cons.mp hclock
      obtain ⟨t, found, after, ht, hscan, hafter, hready, hdone⟩ := (hrun.call c hok).exists_pass hplain
      rw [alwaysSpelled_cons ht, AlwaysIndexed, hafter, ih hpast hearlier]
      refine and_congr_left fun hbefore => ⟨spelled_of_indexed hscan hready hdone, fun hspelled => ?_⟩
      exact indexed_of_spelled hplain hfollows hscan hready hdone hspelled
        (hrun.reflects hpast hbefore ht)
  exact ⟨hiff, fun hnormal => hiff.mpr (hrun.spelled hplain hnormal)⟩

/-- A script as it is written first. -/
def written : Call := ⟨.holding [.file "a.php" [59] 1700000000000000000], false, none⟩

/-- The script after an edit. -/
def edited : Call := ⟨.holding [.file "a.php" [59, 59] 1700000001000000000], true, some 1⟩

theorem indexed_after_edit : (edited.files .default "/").map (·.path) = ["/a.php"] ∧
    AlwaysIndexed .default "p" "/" [edited, written] := by
  have hwritten : written.Plain := ⟨by decide +kernel, by decide +kernel, rfl⟩
  have hedited : edited.Plain := ⟨by decide +kernel, by decide +kernel, rfl⟩
  have hplain : ∀ c ∈ [edited, written], c.Plain := by simp [hwritten, hedited]
  have hnormal : ∀ c ∈ [edited, written], c.Normal "/" :=
    List.forall_mem_cons.mpr ⟨hedited.normal_of_target? rfl,
      List.forall_mem_singleton.mpr (hwritten.normal_of_target? rfl)⟩
  have hfirst : Run .default "p" "/" [written] :=
    Run.start.extend (by simp [hwritten]) (by decide +kernel) (by decide +kernel)
  have hrun : Run .default "p" "/" [edited, written] :=
    hfirst.extend hplain (by decide +kernel) (by decide +kernel)
  exact ⟨by decide +kernel, (indexed_iff_of_run hrun hplain (by decide +kernel)).2 hnormal⟩

/-- Calls before and after a folder on the way to the root becomes a link. -/
def unlinked : Call := ⟨plainDisk, false, none⟩

def linked : Call := ⟨linkedDisk, false, none⟩

/-- A root that is no normal form: the file is listed under another path once the link is there, and no
row has that path. -/
theorem not_indexed_of_link : ¬ ∀ (s : Scanner) (projectId root : String) (calls : List Call),
    Run s projectId root calls → (∀ c ∈ calls, c.Plain) → calls.Pairwise (Call.Follows s root) →
    AlwaysIndexed s projectId root calls := by
  intro h
  have hplain : ∀ c ∈ [linked, unlinked], c.Plain :=
    List.forall_mem_cons.mpr ⟨⟨by decide +kernel, by decide +kernel, rfl⟩,
      List.forall_mem_singleton.mpr ⟨by decide +kernel, by decide +kernel, rfl⟩⟩
  have hfirst : Run .default "p" "/a/..\\" [unlinked] :=
    Run.start.extend (List.forall_mem_cons.mp hplain).2 (by decide +kernel) (by decide +kernel)
  have hrun : Run .default "p" "/a/..\\" [linked, unlinked] :=
    hfirst.extend hplain (by decide +kernel) (by decide +kernel)
  let listed : Metadata := ⟨"/b/../x.txt", "x.txt", .file, 2, ⟨64135596800000000, some 0⟩,
    some "txt", none⟩
  obtain ⟨hindexed, _⟩ := h .default "p" "/a/..\\" [linked, unlinked] hrun hplain (by decide +kernel)
  obtain ⟨rows, r, _, hrows, hone, _⟩ := hindexed listed (by decide +kernel)
  have hnone : ((databaseAfter .default "p" "/a/..\\" [linked, unlinked]).filesOf "p").toOption.map
      (List.filter (·.path == listed.path)) = some [] := by decide +kernel
  rw [hrows] at hnone
  have hnil : rows.filter (·.path == listed.path) = [] := Option.some.inj hnone
  rw [hnil] at hone
  cases hone

end CodeAtlas.Project
