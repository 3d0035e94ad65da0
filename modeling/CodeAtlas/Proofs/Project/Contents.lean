import CodeAtlas.Proofs.Project.Reached
import CodeAtlas.Proofs.Scan.Reported

/-! # Content in the registry

A call writes the content that it has loaded into the rows of new and of newer files, and into no others.
So whether the registry has the content of a file was settled by the call that has written its row last. A
file that was registered without its content stays without it until it becomes newer, however often calls
ask for content in the meantime. -/

namespace CodeAtlas.Project

open CodeAtlas.Disk CodeAtlas.Scan CodeAtlas.Store
open CodeAtlas.Store.Process (on)

/-- A scan of a project, with all that it is given. -/
structure ScanCall where
  scanner : Scanner
  disk : Disk
  projectId : String
  root : String
  content : Bool
  maxFileSize? : Option Int

namespace ScanCall

def work (c : ScanCall) : Work Report :=
  scanProject c.scanner c.disk c.projectId c.root c.content c.maxFileSize?

/-- The entries that a call finds, or none if it cannot scan the disk. -/
def found (c : ScanCall) : List Metadata :=
  (c.scanner.scan c.disk (scanOptions c.content c.maxFileSize?) c.root).toOption.getD []

/-- No content of a larger file is loaded. -/
def limit (c : ScanCall) : Int := c.maxFileSize?.getD c.scanner.maxFileSize

/-- Whether a call loads the content of a file that it finds. -/
def Loads (c : ScanCall) (m : Metadata) : Prop :=
  c.content = true ∧ m.size ≤ c.limit ∧ m.path ∉ c.disk.unread

instance (c : ScanCall) (m : Metadata) : Decidable (c.Loads m) :=
  inferInstanceAs (Decidable (_ ∧ _ ∧ _))

/-- Whether the names on the disk are legal and do not end in a backslash. -/
def Proper (c : ScanCall) : Prop := c.disk.Legal ∧ c.disk.Unmarked

/-- Whether a call writes the row of a file: one that its change set has as new or as newer. -/
structure Writes (c : ScanCall) (db : Database) (m : Metadata) : Prop where
  found : m ∈ c.found
  changed : ∃ rows changes, db.filesOf c.projectId = .ok rows ∧
    c.scanner.changes c.disk c.root (snapshotOf rows) = .ok changes ∧
    m.bare ∈ changes.added ++ changes.modified

end ScanCall

/-- The database after some calls, of which the last comes first. -/
def scannedBy : List ScanCall → Database
  | [] => .empty
  | c :: past => (c.work (scannedBy past)).2

/-- The last of some calls that has written the row of a path in a project, and what it has found there. -/
inductive LastWriter (projectId key : String) : List ScanCall → ScanCall → Metadata → Prop
  | last {c : ScanCall} {past : List ScanCall} {m : Metadata} : c.projectId = projectId → m.key = key →
      c.Writes (scannedBy past) m → LastWriter projectId key (c :: past) c m
  | earlier {c c₀ : ScanCall} {past : List ScanCall} {m₀ : Metadata} :
      (∀ m, c.projectId = projectId → m.key = key → ¬ c.Writes (scannedBy past) m) →
      LastWriter projectId key past c₀ m₀ → LastWriter projectId key (c :: past) c₀ m₀

variable {c c₀ : ScanCall} {past : List ScanCall} {t after : Tables} {m m₀ : Metadata}
  {found : List Metadata} {projectId key : String}

namespace ScanCall

theorem found_eq (h : c.scanner.scan c.disk (scanOptions c.content c.maxFileSize?) c.root = .ok found) :
    c.found = found := by
  rw [ScanCall.found, h]
  rfl

theorem exists_scan (h : m ∈ c.found) : ∃ found,
    c.scanner.scan c.disk (scanOptions c.content c.maxFileSize?) c.root = .ok found ∧ m ∈ found := by
  unfold ScanCall.found at h
  cases hscan : c.scanner.scan c.disk (scanOptions c.content c.maxFileSize?) c.root with
  | error e => simp [hscan, Except.toOption] at h
  | ok found => exact ⟨found, rfl, by simpa [hscan, Except.toOption] using h⟩

/-- A call finds the content of a file exactly if it loads it, and then as it is. -/
theorem content?_of_found (hc : c.Proper) (hm : m ∈ c.found) (hf : m.isFile = true) :
    ∃ bytes, c.disk.bytes? m.path = some bytes ∧
      m.content? = if c.Loads m then some (textOf bytes) else none := by
  obtain ⟨found, hscan, hm⟩ := exists_scan hm
  obtain ⟨path, _, rfl, _⟩ := exists_of_scan hscan
  obtain ⟨v, hv, rfl⟩ := List.mem_map.mp hm
  let w := c.scanner.walk c.disk (scanOptions c.content c.maxFileSize?) path
  have hlegal : w.disk.Legal := hc.1
  obtain ⟨bytes, hb, hsize⟩ := Walk.report_bytes w v hf
  obtain ⟨_, _, _, hcontent⟩ := (describes_report hlegal hv).file bytes hb
  have hloads : w.limits.content = true ∧ (bytes.length : Int) ≤ w.limits.maxFileSize ∧
      pathTo w.root v.names ∉ w.disk.unread ↔ c.Loads (w.report v) := by
    rw [Loads, hsize, Walk.report_path]
    rfl
  refine ⟨bytes, ?_, hcontent.trans (if_congr hloads rfl rfl)⟩
  rw [Walk.report_path, ← hb]
  exact Walk.bytes?_of_mem_all hlegal hv

theorem instant_of_found (hc : c.Proper) (hm : m ∈ c.found) :
    m.modified.instant = (⟨m.modified.wall, none⟩ : Time.Moment).instant := by
  obtain ⟨found, hscan, hm⟩ := exists_scan hm
  exact (Pass.fitsRow_of_scan hc.1 hscan m hm).instant.trans (Int.sub_zero _).symm

theorem Writes.isFile {db : Database} (h : c.Writes db m) : m.isFile = true := by
  obtain ⟨rows, changes, _, hchanges, hm⟩ := h.changed
  obtain ⟨found, _, rfl⟩ := exists_of_map_ok hchanges
  have hfile : m.bare ∈ found.filter (·.isFile) := by
    rcases List.mem_append.mp hm with hm | hm <;> exact List.mem_of_mem_filter hm
  exact (List.mem_filter.mp hfile).2

/-- A call writes the rows of what its pass has as new or as newer. -/
theorem writes_iff (ht : t.Sound) (hc : c.Proper)
    (hscan : c.scanner.scan c.disk (scanOptions c.content c.maxFileSize?) c.root = .ok found) :
    c.Writes (on t) m ↔
      m ∈ Pass.added ⟨t, c.projectId, found⟩ ∨ m ∈ Pass.modified ⟨t, c.projectId, found⟩ := by
  let p : Pass := ⟨t, c.projectId, found⟩
  have hready : p.Ready := Pass.ready_of_scan ht hc.1 hc.2 hscan
  have hchanges := Pass.changes_of_scan (p := p) ht hc.1 hc.2 hscan
  rw [← List.mem_append]
  constructor
  · rintro ⟨hm, rows, changes, hrows, hsame, hbare⟩
    obtain rfl : p.rows = rows := Except.ok.inj hrows
    obtain rfl : p.changes = changes := Except.ok.inj (hchanges.symm.trans hsame)
    have hbare : m.bare ∈ (p.added ++ p.modified).map Metadata.bare := by
      rw [List.map_append]
      exact hbare
    obtain ⟨m', hm', he⟩ := List.mem_map.mp hbare
    rw [found_eq hscan] at hm
    have hkey : m'.key = m.key := by rw [← m'.bare_key, he, m.bare_key]
    exact eq_of_key_eq hready.distinct (Pass.mem_found_of_changed hm').1 hm hkey ▸ hm'
  · intro hm
    refine ⟨found_eq hscan ▸ (Pass.mem_found_of_changed hm).1, p.rows, p.changes, rfl, hchanges, ?_⟩
    have hbare : m.bare ∈ (p.added ++ p.modified).map Metadata.bare := List.mem_map_of_mem hm
    rw [List.map_append] at hbare
    exact hbare

end ScanCall

/-! ## What rows say of the call that has written them -/

theorem LastWriter.exists_writes {calls : List ScanCall} (h : LastWriter projectId key calls c₀ m₀) :
    c₀ ∈ calls ∧ c₀.projectId = projectId ∧ m₀.key = key ∧ ∃ db, c₀.Writes db m₀ := by
  induction h with
  | last hp hk hw => exact ⟨List.mem_cons_self, hp, hk, _, hw⟩
  | earlier _ _ ih =>
    obtain ⟨hc, hw⟩ := ih
    exact ⟨List.mem_cons_of_mem _ hc, hw⟩

/-- A row has the content and the time that the call which has written it last has found. -/
def Traced (calls : List ScanCall) (r : FileRecord) : Prop :=
  ∃ c₀ m₀, LastWriter r.projectId r.key calls c₀ m₀ ∧ r.content? = m₀.content? ∧
    r.modified = ⟨m₀.modified.wall, none⟩

/-- What holds of a row after a call: one that the call has written says what it has found, and any other
one was there before. -/
theorem traced_of_pass {p : Pass} {d : Disk} {r : FileRecord} (h : p.Ready) (hd : p.Done d after)
    (hp : p.projectId = c.projectId) (hpast : ∀ r ∈ p.tables.files, Traced past r)
    (hwrites : ∀ m, c.Writes (scannedBy past) m ↔ m ∈ p.added ∨ m ∈ p.modified)
    (hr : r ∈ after.files) : Traced (c :: past) r := by
  rcases hd.row_cases h hr with hkeep | ⟨r₀, m, hx, rfl⟩ | ⟨m, hx⟩
  · obtain ⟨c₀, m₀, hlast, hsays⟩ := hpast r hkeep.row
    refine ⟨c₀, m₀, .earlier (fun m hproject hkey hw => ?_) hlast, hsays⟩
    have hproject : r.projectId = p.projectId := (hp.trans hproject).symm
    rcases (hwrites m).mp hw with hm | hm
    · exact (Pass.mem_added.mp hm).2.2 r hkeep.row hproject hkey.symm
    · exact hkeep.current hproject m hm hkey
  · obtain ⟨hm, _, hproject, hkey⟩ := (Pass.mem_renewed h.sound.rows).mp hx
    have hw := (hwrites m).mpr (Or.inr hm)
    exact ⟨c, m, .last (hp.symm.trans hproject.symm) hkey.symm hw, rfl, rfl⟩
  · obtain ⟨hm, id, _, hrow⟩ := Pass.mem_createdFor hx
    obtain rfl : r = FileRecord.ofMetadata p.projectId id m := hrow
    exact ⟨c, m, .last hp.symm rfl ((hwrites m).mpr (Or.inl hm)), rfl, rfl⟩

theorem reached_scannedBy {calls : List ScanCall} (h : ∀ c ∈ calls, c.Proper) :
    Reached (scannedBy calls) := by
  induction calls with
  | nil => exact .empty
  | cons c past ih =>
    obtain ⟨⟨hl, hu⟩, hpast⟩ := List.forall_mem_cons.mp h
    exact .scanned c.scanner c.projectId c.root c.content c.maxFileSize? (ih hpast) hl hu

/-- After any calls, whether they have completed or not, rows say what the last call that has written them
has found. -/
theorem traced_of_scannedBy {calls : List ScanCall} (h : ∀ c ∈ calls, c.Proper)
    (ht : scannedBy calls = on t) : ∀ r ∈ t.files, Traced calls r := by
  induction calls generalizing t with
  | nil =>
    cases ht
    exact List.forall_mem_nil _
  | cons c past ih =>
    obtain ⟨hc, hpast⟩ := List.forall_mem_cons.mp h
    obtain ⟨now, hnow, hsound⟩ := (reached_scannedBy hpast).sound
    rw [scannedBy, hnow] at ht
    intro r hr
    cases hscan : c.scanner.scan c.disk (scanOptions c.content c.maxFileSize?) c.root with
    | error e =>
      rw [ScanCall.work, scanProject_of_error hscan] at ht
      cases ht
      obtain ⟨c₀, m₀, hlast, hsays⟩ := ih hpast hnow r hr
      refine ⟨c₀, m₀, .earlier (fun m _ _ hw => ?_) hlast, hsays⟩
      obtain ⟨_, hscan', _⟩ := ScanCall.exists_scan hw.found
      cases hscan.symm.trans hscan'
    | ok found =>
      let p : Pass := ⟨now, c.projectId, found⟩
      -- where the call breaks off does not matter, all its rows are written before it indexes anything
      obtain ⟨after, hafter, hdone, _⟩ := Pass.scanProject_done (p := p) hsound hc.1 hc.2 hscan
      rw [ScanCall.work, hafter] at ht
      cases ht
      have hready : p.Ready := Pass.ready_of_scan hsound hc.1 hc.2 hscan
      refine traced_of_pass (p := p) hready hdone rfl (ih hpast hnow) (fun m => ?_) hr
      rw [hnow]
      exact ScanCall.writes_iff hsound hc hscan

/-! ## The content of a file -/

/-- Whether a file that a call lists has become newer since an earlier call has listed it with other
bytes. -/
def Grown (past : List ScanCall) (c : ScanCall) (m : Metadata) : Prop :=
  ∀ c₀ ∈ past, c₀.projectId = c.projectId → ∀ m₀ ∈ c₀.found, m₀.isFile = true → m₀.key = m.key →
    c₀.disk.bytes? m₀.path ≠ c.disk.bytes? m.path → m.modified.isAfter m₀.modified = true

instance (past : List ScanCall) (c : ScanCall) (m : Metadata) : Decidable (Grown past c m) :=
  inferInstanceAs (Decidable (∀ c₀ ∈ past, _ → ∀ m₀ ∈ c₀.found, _ → _ → _ → _))

/-- A file whose row was not written by the last call has the bytes that it had when its row was
written. -/
theorem bytes?_of_lastWriter (hproper : ∀ c' ∈ c :: past, c'.Proper) (hgrown : Grown past c m)
    (hlast : LastWriter c.projectId m.key (c :: past) c₀ m₀) (hm : m ∈ c.found)
    (hcurrent : m.modified.isAfter m₀.modified = false) :
    c₀.disk.bytes? m₀.path = c.disk.bytes? m.path := by
  have hc := hproper c List.mem_cons_self
  cases hlast with
  | last _ hkey hw =>
    obtain ⟨found, hscan, hm⟩ := ScanCall.exists_scan hm
    have hm₀ := hw.found
    rw [ScanCall.found_eq hscan] at hm₀
    rw [eq_of_key_eq (nodup_keys_of_scan hc.1 hc.2 hscan) hm₀ hm hkey]
  | earlier _ hlast =>
    obtain ⟨hmem, hproject, hkey, _, hw⟩ := hlast.exists_writes
    by_contra hne
    rw [hgrown c₀ hmem hproject m₀ hw.found hw.isFile hkey hne] at hcurrent
    cases hcurrent

/-- After any calls of which the last has completed, every file that this call lists has exactly one row. If
files that change become newer, the row has the text of the file as it is now if the call that has written
the row last has loaded content, and no content otherwise. -/
theorem text_of_lastWriter (hproper : ∀ c' ∈ c :: past, c'.Proper)
    (hok : (c.work (scannedBy past)).1.isOk = true) (hm : m ∈ c.found) (hf : m.isFile = true)
    (hgrown : Grown past c m) : ∃ rows r bytes c₀ m₀,
      (scannedBy (c :: past)).filesOf c.projectId = .ok rows ∧ rows.filter (·.key == m.key) = [r] ∧
      c.disk.bytes? m.path = some bytes ∧ LastWriter c.projectId m.key (c :: past) c₀ m₀ ∧
      r.content? = if c₀.Loads m₀ then some (textOf bytes) else none := by
  obtain ⟨hc, hpast⟩ := List.forall_mem_cons.mp hproper
  obtain ⟨t, ht, hsound⟩ := (reached_scannedBy hpast).sound
  rw [ht] at hok
  obtain ⟨found, after, hscan, hafter, hready, hdone⟩ := exists_pass_of_isOk hsound hc.1 hc.2 hok
  have hscanned : scannedBy (c :: past) = on after := by
    rw [scannedBy, ht, ScanCall.work, hafter]
  have hfound := hm
  rw [ScanCall.found_eq hscan] at hfound
  obtain ⟨r, hr, hproject, hkey⟩ : ∃ r ∈ after.files, r.projectId = c.projectId ∧ r.key = m.key :=
    hdone.exists_row hready hfound hf
  obtain ⟨c₀, m₀, hlast, hcontent, htime⟩ := traced_of_scannedBy hproper hscanned r hr
  rw [hproject, hkey] at hlast
  obtain ⟨hmem, _, _, _, hw⟩ := hlast.exists_writes
  obtain ⟨bytes, hb, hloaded⟩ := ScanCall.content?_of_found (hproper c₀ hmem) hw.found hw.isFile
  have hcurrent : m.modified.isAfter m₀.modified = false := by
    rw [← hdone.current hready hr hproject hfound hf hkey, htime, Time.Moment.isAfter,
      ScanCall.instant_of_found (hproper c₀ hmem) hw.found]
    rfl
  refine ⟨(after.rowsOf c.projectId).map (·.handedOut), r.handedOut, bytes, c₀, m₀, ?_, ?_, ?_, hlast,
    hcontent.trans hloaded⟩
  · rw [hscanned]
    rfl
  · rw [← hkey]
    exact Tables.filter_handedOut (fun _ => rfl) (Tables.nodup_keys_rowsOf hdone.rows c.projectId)
      (Tables.mem_rowsOf.mpr ⟨hr, hproject⟩)
  · rw [← bytes?_of_lastWriter hproper hgrown hlast hm hcurrent, hb]

/-- A text file of one byte. -/
def textDisk : Disk := .holding [.file "a.txt" [97] defaultTime]

/-- A call for the text file, which stays as it is from call to call. -/
def textCall (content : Bool) : ScanCall := ⟨.default, textDisk, "p", "/", content, none⟩

def textFound : Metadata :=
  ⟨"/a.txt", "a.txt", .file, 1, ⟨63135596800000000, some 0⟩, some "txt", some "a"⟩

theorem textCall_proper (content : Bool) : (textCall content).Proper := by
  have hlegal : textDisk.Legal := by decide +kernel
  have hunmarked : textDisk.Unmarked := by decide +kernel
  exact ⟨hlegal, hunmarked⟩

/-- The file was registered without content, and so it has none when content is asked for. -/
theorem text_of_textCalls : ∃ rows r bytes c₀ m₀,
    (scannedBy [textCall true, textCall false]).filesOf "p" = .ok rows ∧
    rows.filter (·.key == textFound.key) = [r] ∧ (textCall true).disk.bytes? "/a.txt" = some bytes ∧
    LastWriter "p" textFound.key [textCall true, textCall false] c₀ m₀ ∧
    r.content? = if c₀.Loads m₀ then some (textOf bytes) else none :=
  text_of_lastWriter (c := textCall true)
    (List.forall_mem_cons.mpr ⟨textCall_proper true,
      List.forall_mem_singleton.mpr (textCall_proper false)⟩)
    (by decide +kernel) (m := textFound) (by decide +kernel) (by decide +kernel) (by decide +kernel)

/-- Content that is asked for, and that can be loaded, need not get into the registry. -/
theorem not_always_content : ¬ ∀ (past : List ScanCall) (c : ScanCall) (m : Metadata),
    (∀ c' ∈ c :: past, c'.Proper ∧ c'.disk = .ofRoot c'.disk.root) → c.content = true →
    (c.work (scannedBy past)).1.isOk = true → m ∈ c.found → m.isFile = true → m.size ≤ c.limit →
    Grown past c m → ∃ rows r bytes, (scannedBy (c :: past)).filesOf c.projectId = .ok rows ∧
      r ∈ rows ∧ r.key = m.key ∧ c.disk.bytes? m.path = some bytes ∧
      r.content? = some (textOf bytes) := by
  intro h
  obtain ⟨rows, r, bytes, hrows, hr, _, _, hcontent⟩ := h [textCall false] (textCall true) textFound
    (List.forall_mem_cons.mpr ⟨⟨textCall_proper true, rfl⟩,
      List.forall_mem_singleton.mpr ⟨textCall_proper false, rfl⟩⟩)
    rfl (by decide +kernel) (by decide +kernel) (by decide +kernel) (by decide +kernel)
    (by decide +kernel)
  have hnone : ((scannedBy [textCall true, textCall false]).filesOf "p").toOption.map
      (·.map (·.content?)) = some [none] := by decide +kernel
  have hrows : (scannedBy [textCall true, textCall false]).filesOf "p" = .ok rows := hrows
  rw [hrows] at hnone
  have hempty : r.content? ∈ [none] := Option.some.inj hnone ▸ List.mem_map_of_mem hr
  rw [hcontent] at hempty
  cases List.mem_singleton.mp hempty

end CodeAtlas.Project
