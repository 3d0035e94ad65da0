import CodeAtlas.Proofs.Attempts
import CodeAtlas.Proofs.Scan.Visits

/-! # What a scan finds

Whatever a scan reports of a file is so on the disk: its bytes, their number and its time. No two
entries of a scan share a normal form. A scan with content finds the same entries as one without, and
once a disk refuses nothing any more, a scan finds all that earlier ones have found. -/

namespace CodeAtlas.Scan

open CodeAtlas.Disk

/-! ## Entries without content -/

/-- An entry as a scan without content finds it. -/
def Metadata.bare (m : Metadata) : Metadata := { m with content? := none }

/-- The normal form of an entry's path. -/
def Metadata.key (m : Metadata) : String := Path.normalize m.path

/-- The same scan without content. -/
def ScanOptions.bare (o : ScanOptions) : ScanOptions :=
  { o with content := false, maxFileSize? := none }

@[simp] theorem Metadata.bare_key (m : Metadata) : m.bare.key = m.key := rfl

@[simp] theorem Metadata.bare_modified (m : Metadata) : m.bare.modified = m.modified := rfl

/-! ## All visits of a scan -/

namespace Walk

variable {w : Walk} {v : Visit}

/-- The visits of a walk to all that is below its root. -/
def all (w : Walk) : List Visit :=
  match w.disk.target? w.root with
  | some (.folder _ _ inner) => if w.enters w.root 0 then w.visits [] inner else []
  | _ => []

theorem mem_all (h : v ∈ w.all) : ∃ folder, w.disk.target? w.root = some folder ∧
    ∃ c ∈ folder.children, v ∈ w.visit [] c := by
  unfold all at h
  split at h
  · next own modified inner ht =>
    split at h
    · rw [visits_eq_flatMap] at h
      exact ⟨_, ht, List.mem_flatMap.mp h⟩
    · cases h
  · cases h

theorem leads_of_mem_all (hl : w.disk.Legal) (h : v ∈ w.all) :
    ∃ folder, w.disk.target? w.root = some folder ∧ folder.find? v.names = some v.entry := by
  obtain ⟨folder, ht, c, hc, hv⟩ := mem_all h
  have hlegal := Disk.every_of_target? hl ht
  obtain ⟨rest, hn, hf⟩ := leads_of_mem_visit ((Entry.every_iff.mp hlegal).2 c hc) hv
  exact ⟨folder, ht, by rw [hn, List.nil_append, Entry.find?_child hlegal hc, hf]⟩

theorem isName_of_mem_all (hl : w.disk.Legal) (h : v ∈ w.all) : ∀ n ∈ v.names, isName n = true := by
  obtain ⟨folder, ht, hf⟩ := leads_of_mem_all hl h
  exact Entry.isName_of_find? (Disk.every_of_target? hl ht) hf

theorem below_of_mem_all (hl : w.disk.Legal) (hu : w.disk.Unmarked) (h : v ∈ w.all) :
    Below v.names := by
  obtain ⟨folder, ht, hf⟩ := leads_of_mem_all hl h
  exact ⟨isName_of_mem_all hl h, v.above, v.entry.name, rfl,
    Entry.isMarked_of_find? (Disk.every_of_target? hu ht) hf⟩

theorem nodup_all (hl : w.disk.Legal) : (w.all.map Visit.names).Nodup := by
  unfold all
  split
  · next own modified inner ht =>
    split
    · have hlegal := Disk.every_of_target? hl ht
      rw [visits_eq_flatMap]
      exact nodup_children hlegal fun c hc => nodup_visit ((Entry.every_iff.mp hlegal).2 c hc) []
    · exact List.nodup_nil
  · exact List.nodup_nil

/-- Behind the folder where a walk begins, the path of a visited entry leads on by the names of the visit. -/
theorem places_of_mem_all (hl : w.disk.Legal) (h : v ∈ w.all) :
    ∃ way, trueNames w.disk.root w.root = .ok way ∧
      trueNames w.disk.root (pathTo w.root v.names) = .ok (way ++ v.names) ∧
      w.disk.target? (pathTo w.root v.names) = some v.entry := by
  obtain ⟨folder, ht, hf⟩ := leads_of_mem_all hl h
  obtain ⟨way, hplace, hway, hfolder⟩ := Disk.exists_of_target? ht
  obtain ⟨_, _, c, _, hv⟩ := mem_all h
  have hnames := isName_of_mem_all hl h
  have hfind : w.disk.root.find? (way ++ v.names) = some v.entry := by
    rw [Entry.find?_append, hfolder]
    exact hf
  have hbelow := placeOf?_below hplace (not_mem_pathTo (trueNames_ok hway).1 hnames)
    (namesOf_pathTo w.root hnames) (arePlain_of_isName hnames) hfind fun own target he => by
      have hshown := isShown_of_mem_visit hv
      rw [he] at hshown
      cases hshown
  exact ⟨way, hway, trueNames_of_placeOf? hbelow, (Disk.target?_of_placeOf? hbelow).trans hfind⟩

theorem trueNames_of_mem_all (hl : w.disk.Legal) (h : v ∈ w.all) {way : List String}
    (hway : trueNames w.disk.root w.root = .ok way) :
    trueNames w.disk.root (pathTo w.root v.names) = .ok (way ++ v.names) := by
  obtain ⟨way', hway', hnames, _⟩ := places_of_mem_all hl h
  rwa [Except.ok.inj (hway.symm.trans hway')]

/-- The path that is reported of a visited entry leads to it. -/
theorem target?_of_mem_all (hl : w.disk.Legal) (h : v ∈ w.all) :
    w.disk.target? (pathTo w.root v.names) = some v.entry := by
  obtain ⟨_, _, _, htarget⟩ := places_of_mem_all hl h
  exact htarget

theorem bytes?_of_mem_all (hl : w.disk.Legal) (h : v ∈ w.all) :
    w.disk.bytes? (pathTo w.root v.names) = v.entry.bytes? := by
  rw [Disk.bytes?, target?_of_mem_all hl h]
  rfl

/-- A walk that passes over less and goes into more finds all that another one finds. -/
theorem mem_all_mono (w w' : Walk) (hd : w'.disk.root = w.disk.root) (hr : w'.root = w.root)
    (hs : ∀ p, w'.skips p = true → w.skips p = true)
    (he : ∀ p n, w.enters p n = true → w'.enters p n = true) (h : v ∈ w.all) : v ∈ w'.all := by
  unfold all at h ⊢
  rw [Disk.target?, hd, hr, ← Disk.target?]
  split at h
  · next own modified inner ht =>
    split at h
    · next henters =>
      rw [visits_eq_flatMap] at h
      obtain ⟨c, hc, hv⟩ := List.mem_flatMap.mp h
      simp only [he _ _ henters, if_true, visits_eq_flatMap]
      exact List.mem_flatMap.mpr ⟨c, hc, visit_mono hr hs he hv⟩
    · cases h
  · cases h

theorem all_congr {w' : Walk} (hd : w'.disk = w.disk) (hr : w'.root = w.root)
    (hs : w'.skips = w.skips) (he : w'.enters = w.enters) : w'.all = w.all := by
  unfold all
  rw [hd, hr, he]
  split
  · next inner _ =>
    simp only [visits_eq_flatMap, List.flatMap_def]
    rw [List.map_congr_left fun c _ => visit_congr hr hs he [] c]
  · rfl

/-! ## What is reported of a visit -/

@[simp] theorem report_path (w : Walk) (v : Visit) : (w.report v).path = pathTo w.root v.names := by
  unfold report
  cases v.entry.bytes? <;> rfl

@[simp] theorem report_modified (w : Walk) (v : Visit) : (w.report v).modified =
    ⟨Time.epoch + Time.microsOfNanos v.entry.changed, some 0⟩ := by
  unfold report
  cases v.entry.bytes? <;> rfl

theorem report_content? (w : Walk) (v : Visit) : (w.report v).content? = none ∨
    (w.report v).content? = w.disk.readText? (pathTo w.root v.names) := by
  unfold report
  cases v.entry.bytes? with
  | none => exact Or.inl rfl
  | some bytes =>
    simp only [file, content?]
    split
    · exact Or.inr rfl
    · exact Or.inl rfl

/-- What is reported of a file is its number of bytes. -/
theorem report_bytes (w : Walk) (v : Visit) (h : (w.report v).isFile = true) :
    ∃ bytes, v.entry.bytes? = some bytes ∧ (w.report v).size = bytes.length := by
  unfold report at h ⊢
  cases hb : v.entry.bytes? with
  | none => simp [hb, folder, Metadata.isFile] at h
  | some bytes => exact ⟨bytes, rfl, rfl⟩

theorem report_folder (w : Walk) (v : Visit) (h : (w.report v).isFile = false) :
    v.entry.bytes? = none ∧ (w.report v).size = 0 := by
  unfold report at h ⊢
  cases hb : v.entry.bytes? with
  | none => exact ⟨rfl, rfl⟩
  | some bytes => simp [hb, file, Metadata.isFile] at h

theorem report_bare (w w' : Walk) (v : Visit) (h : w'.root = w.root)
    (hc : w'.limits.content = false) : w'.report v = (w.report v).bare := by
  unfold report
  cases v.entry.bytes? with
  | none => simp [h, folder, Metadata.bare]
  | some bytes => simp [h, file, content?, hc, Metadata.bare]

theorem describe_eq {m : Metadata} (h : w.describe v = .ok m) :
    m = w.report v ∧ Time.onCalendar (w.report v).modified.wall = true := by
  unfold describe at h
  cases ht : Time.Moment.ofNanos v.entry.changed with
  | error e => simp [ht, Except.map] at h
  | ok time =>
    obtain ⟨rfl, hc⟩ := ofNanos_eq ht
    simp only [ht, Except.map, Except.ok.injEq] at h
    exact ⟨h.symm, by simpa using hc⟩

end Walk

/-! ## Scans -/

variable {s : Scanner} {d d' : Disk} {o o' : ScanOptions} {root path : String}
  {found found' : List Metadata}

/-- The walk of a scan that begins at a resolved path. -/
def Scanner.walk (s : Scanner) (d : Disk) (o : ScanOptions) (path : String) : Walk :=
  ⟨d, path, s.limits o⟩

theorem scan_of_resolve (h : d.resolve root = .ok path) :
    s.scan d o root =
      ((s.walk d o path).all.mapM (s.walk d o path).describe).mapError .year := by
  have hentries (inner : List Entry) : (s.walk d o path).entries path 0 inner =
      ((s.walk d o path).visits [] inner).mapM (s.walk d o path).describe :=
    Walk.entries_eq_of_children fun c _ => Walk.entry_eq _ c []
  have hall : (s.walk d o path).all = match d.target? path with
      | some (.folder _ _ inner) =>
        if (s.walk d o path).enters path 0 then (s.walk d o path).visits [] inner else []
      | _ => [] := rfl
  have hscan : s.scan d o root = match d.target? path with
      | some (.folder _ _ inner) =>
        if (s.walk d o path).enters path 0 then
          ((s.walk d o path).entries path 0 inner).mapError .year
        else .ok []
      | _ => .ok [] := by
    simp only [Scanner.scan, h]
    rfl
  rw [hscan, hall]
  split
  · rw [hentries]
    split <;> rfl
  · rfl

theorem scan_of_unresolved {e : LinkError} (h : d.resolve root = .error e) :
    s.scan d o root = .error (.link e) := by
  simp only [Scanner.scan, h]

theorem exists_of_scan (h : s.scan d o root = .ok found) : ∃ path, d.resolve root = .ok path ∧
    found = (s.walk d o path).all.map (s.walk d o path).report ∧
    ∀ v ∈ (s.walk d o path).all,
      (s.walk d o path).describe v = .ok ((s.walk d o path).report v) := by
  cases hr : d.resolve root with
  | error e =>
    rw [scan_of_unresolved hr] at h
    cases h
  | ok path =>
    rw [scan_of_resolve hr] at h
    refine ⟨path, rfl, ?_⟩
    cases hm : (s.walk d o path).all.mapM (s.walk d o path).describe with
    | error e => simp [hm, mapError_error] at h
    | ok ms =>
      simp only [hm, mapError_ok, Except.ok.injEq] at h
      rw [← h]
      exact eq_of_mapM_ok (fun v m hv => (Walk.describe_eq hv).1) hm

/-- Content that a scan has loaded is what reading the file later yields. -/
theorem content?_of_scan (h : s.scan d o root = .ok found) :
    ∀ m ∈ found, m.content?.or (d.readText? m.path) = d.readText? m.path := by
  obtain ⟨path, _, rfl, _⟩ := exists_of_scan h
  intro m hm
  obtain ⟨v, _, rfl⟩ := List.mem_map.mp hm
  rcases Walk.report_content? (s.walk d o path) v with hc | hc
  · rw [hc, Option.none_or]
  · rw [hc, Walk.report_path, Scanner.walk, Option.or_self]

/-- What a scan reports of an entry holds of it on the disk. -/
structure Metadata.Agrees (m : Metadata) (d : Disk) : Prop where
  content : m.content?.or (d.readText? m.path) = d.readText? m.path
  universal : m.modified.offset? = some 0
  onCalendar : Time.onCalendar m.modified.wall = true
  bytes : m.isFile = true →
    ∃ bytes, d.bytes? m.path = some bytes ∧ m.size = bytes.length ∧ bytes.length < maxBytes

theorem agrees_of_scan (hl : d.Legal) (h : s.scan d o root = .ok found) :
    ∀ m ∈ found, m.Agrees d := by
  have hcontent := content?_of_scan h
  obtain ⟨path, _, rfl, hok⟩ := exists_of_scan h
  intro m hm
  obtain ⟨v, hv, rfl⟩ := List.mem_map.mp hm
  refine ⟨hcontent _ hm, by simp, (Walk.describe_eq (hok v hv)).2, fun hfile => ?_⟩
  obtain ⟨bytes, hb, hsize⟩ := Walk.report_bytes _ v hfile
  have ht := Walk.target?_of_mem_all (w := s.walk d o path) hl hv
  have hlegal := (Entry.every_iff.mp (Disk.every_of_target? hl ht)).1
  refine ⟨bytes, ?_, hsize, (Entry.isLegal_iff.mp hlegal).2.2 bytes hb⟩
  rw [Walk.report_path, ← hb]
  exact Walk.bytes?_of_mem_all (w := s.walk d o path) hl hv

theorem size_of_folder (h : s.scan d o root = .ok found) {m : Metadata} (hm : m ∈ found)
    (hf : m.isFile = false) : m.size = 0 := by
  obtain ⟨path, _, rfl, _⟩ := exists_of_scan h
  obtain ⟨v, _, rfl⟩ := List.mem_map.mp hm
  exact (Walk.report_folder _ v hf).2

theorem bytes?_of_folder (hl : d.Legal) (h : s.scan d o root = .ok found) {m : Metadata} (hm : m ∈ found)
    (hf : m.isFile = false) : d.bytes? m.path = none := by
  obtain ⟨path, _, rfl, _⟩ := exists_of_scan h
  obtain ⟨v, hv, rfl⟩ := List.mem_map.mp hm
  rw [Walk.report_path, ← (Walk.report_folder _ v hf).1]
  exact Walk.bytes?_of_mem_all (w := s.walk d o path) hl hv

/-- No two entries of a scan are taken for one. -/
theorem nodup_keys_of_scan (hl : d.Legal) (hu : d.Unmarked) (h : s.scan d o root = .ok found) :
    (found.map Metadata.key).Nodup := by
  obtain ⟨path, hr, rfl, _⟩ := exists_of_scan h
  have hnodup := List.pairwise_map.mp (Walk.nodup_all (w := s.walk d o path) hl)
  rw [List.map_map, List.Nodup, List.pairwise_map]
  refine hnodup.imp_of_mem fun {v v'} hv hv' hne he => hne ?_
  simp only [Function.comp_apply, Metadata.key, Walk.report_path] at he
  exact eq_of_normalize_eq (Disk.isRooted_resolve hr)
    (Walk.below_of_mem_all (w := s.walk d o path) hl hu hv)
    (Walk.below_of_mem_all (w := s.walk d o path) hl hu hv') he

/-- A scan that begins at a path in normal form reports every path in normal form. -/
theorem key_eq_path_of_scan (hl : d.Legal) (hu : d.Unmarked) (hr : d.resolve root = .ok path)
    (hn : Path.normalize path = path) (h : s.scan d o root = .ok found) :
    ∀ m ∈ found, m.key = m.path := by
  obtain ⟨_, hr', rfl, _⟩ := exists_of_scan h
  obtain rfl := Except.ok.inj (hr.symm.trans hr')
  intro m hm
  obtain ⟨v, hv, rfl⟩ := List.mem_map.mp hm
  have hbelow := Walk.below_of_mem_all (w := s.walk d o path) hl hu hv
  have hroot := Disk.isRooted_resolve hr
  rw [Metadata.key, Walk.report_path]
  exact (normalize_of_below hroot hbelow).trans (pathTo_of_normal hroot hn hbelow.1).symm

/-- Content changes nothing else in what a scan finds. -/
theorem scan_bare (s : Scanner) (d : Disk) (o : ScanOptions) (root : String) :
    s.scan d o.bare root = (s.scan d o root).map (List.map Metadata.bare) := by
  cases hr : d.resolve root with
  | error e =>
    rw [scan_of_unresolved hr, scan_of_unresolved hr]
    rfl
  | ok path =>
    have hall : (s.walk d o.bare path).all = (s.walk d o path).all := Walk.all_congr rfl rfl rfl rfl
    have hdescribe : (s.walk d o.bare path).describe =
        fun v => ((s.walk d o path).describe v).map Metadata.bare := by
      funext v
      rw [Walk.describe, Walk.describe, Walk.report_bare (s.walk d o path) (s.walk d o.bare path) v rfl rfl]
      cases Time.Moment.ofNanos v.entry.changed <;> rfl
    rw [scan_of_resolve hr, scan_of_resolve hr, hall, hdescribe, mapM_map_result]
    cases (s.walk d o path).all.mapM (s.walk d o path).describe <;> rfl

/-- A scan succeeds if its root can be resolved and a calendar can show all times. -/
theorem scan_of_dated (hl : d.Legal) (hd : d.Dated) (hr : d.resolve root = .ok path) :
    ∃ found, s.scan d o root = .ok found := by
  have hok : ∀ v ∈ (s.walk d o path).all,
      (s.walk d o path).describe v = .ok ((s.walk d o path).report v) := by
    intro v hv
    obtain ⟨folder, ht, hf⟩ := Walk.leads_of_mem_all hl hv
    obtain ⟨parent, hp, hc, _⟩ := Entry.exists_parent hf
    have hdated := (Entry.every_iff.mp (Entry.every_of_find? (Disk.every_of_target? hd ht) hp)).1
    have htime := List.all_eq_true.mp hdated _ hc
    rw [Walk.describe]
    cases hn : Time.Moment.ofNanos v.entry.changed with
    | error e => simp [hn, Except.toBool] at htime
    | ok time => rfl
  rw [scan_of_resolve hr, mapM_of_ok hok]
  exact ⟨_, rfl⟩

/-- On the same tree, a disk that refuses nothing shows all that one that refuses something does. -/
theorem mem_scan_of_calm (h : s.scan d o root = .ok found) (h' : s.scan d' o' root = .ok found')
    (hroot : d'.root = d.root) (hunlisted : d'.unlisted = []) (hunknown : d'.unknown = [])
    (ho : o'.bare = o.bare) : ∀ m ∈ found, m.bare ∈ found'.map Metadata.bare := by
  -- content plays no part, so both scans are taken without it
  have hb : s.scan d o.bare root = .ok (found.map Metadata.bare) := by
    rw [scan_bare, h]
    rfl
  have hb' : s.scan d' o.bare root = .ok (found'.map Metadata.bare) := by
    rw [← ho, scan_bare, h']
    rfl
  obtain ⟨path, hr, he, _⟩ := exists_of_scan hb
  obtain ⟨path', hr', he', _⟩ := exists_of_scan hb'
  have hresolve : d'.resolve root = d.resolve root := by
    rw [Disk.resolve, hroot, Disk.resolve]
  obtain rfl : path' = path := Except.ok.inj (hr'.symm.trans (hresolve.trans hr))
  intro m hm
  obtain ⟨v, hv, hmv⟩ := List.mem_map.mp (he ▸ List.mem_map_of_mem hm)
  have hv' : v ∈ (s.walk d' o.bare path').all := by
    refine Walk.mem_all_mono (s.walk d o.bare path') _ hroot rfl ?_ ?_ hv
    · intro p hp
      have hp : Path.excluded p path' (s.limits o.bare).patterns = true := by
        simpa [Walk.skips, Scanner.walk, hunknown] using hp
      simp [Walk.skips, Scanner.walk, hp]
    · intro p n hn
      have hn := (Bool.and_eq_true_iff.mp hn).1
      exact Bool.and_eq_true_iff.mpr ⟨hn, by simp [Scanner.walk, hunlisted]⟩
  rw [he', ← hmv]
  refine List.mem_map.mpr ⟨v, hv', ?_⟩
  have hsame := Walk.report_bare (s.walk d' o.bare path') (s.walk d o.bare path') v rfl rfl
  exact (Walk.report_bare (s.walk d' o.bare path') _ v rfl rfl).trans hsame.symm

end CodeAtlas.Scan
