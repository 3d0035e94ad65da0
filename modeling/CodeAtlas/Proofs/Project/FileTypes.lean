import CodeAtlas.Proofs.Outline.Language
import CodeAtlas.Proofs.Project.First
import CodeAtlas.Proofs.Project.Requests

/-! # Types of registered files

A row keeps the type that the file had by its name when the row was made, while the file is indexed in the language of
its extension. Both are read off one name, since nothing but the size, the content and the time of a row changes and
a file is only indexed for a row whose path has the same normal form. This holds after any requests on any disks, also
where a request stops half way. -/

namespace CodeAtlas.Project

open CodeAtlas.Disk CodeAtlas.Outline CodeAtlas.Scan CodeAtlas.Store
open CodeAtlas.Path (IsFileName IsDotted EndsInDot ReadAlike extension fileType? segments)
open CodeAtlas.Store.Process (on Ends)

variable {s : Scanner} {d : Disk} {o : ScanOptions} {projectId root folder name : String} {content : Bool}
  {maxFileSize? : Option Int} {t now after : Tables} {found : List Metadata} {names : List String} {m : Metadata}
  {r : FileRecord}

/-! ## What a scan says of a name -/

theorem isFileName_of_isName (h : isName name = true) : IsFileName name := by
  obtain ⟨⟨hne, hhere, hslash⟩, hup, _⟩ := isName_iff.mp h
  refine ⟨?_, ?_, ?_, hslash⟩
  · rintro rfl
    exact hne rfl
  · rintro rfl
    exact hhere rfl
  · rintro rfl
    exact hup rfl

/-- The name at the end of a path, which is also at the end of the normal form unless it ends in a backslash. -/
structure EndsIn (path name : String) : Prop where
  isFileName : IsFileName name
  last : (segments path.toList).getLast? = some name.toList
  normal : isMarked name = false → (segments (Path.normalize path).toList).getLast? = some name.toList

theorem getLast?_segments {path : String} (names : List String) (h : namesOf path = names ++ [name]) :
    (segments path.toList).getLast? = some name.toList := by
  have hlast := congrArg (fun l => (l.map String.toList).getLast?) h
  simpa [namesOf, Function.comp_def] using hlast

theorem endsIn_of_found (hl : d.Legal) (h : s.scan d o root = .ok found) (hm : m ∈ found) :
    EndsIn m.path m.name ∧ (m.isFile = true → m.extension? = fileType? m.name) := by
  obtain ⟨path, hr, rfl, _⟩ := exists_of_scan h
  obtain ⟨v, hv, rfl⟩ := List.mem_map.mp hm
  let w := s.walk d o path
  have hlegal : w.disk.Legal := hl
  have hnames := Walk.isName_of_mem_all hlegal hv
  have hname : isName v.entry.name = true := hnames _ (by simp [Visit.names])
  have hd := describes_report hlegal hv
  rw [hd.path, hd.name]
  refine ⟨⟨isFileName_of_isName hname, ?_, fun hmark => ?_⟩, fun hfile => ?_⟩
  · refine getLast?_segments (namesOf w.root ++ v.above) ?_
    rw [namesOf_pathTo w.root hnames, Visit.names, List.append_assoc]
  · have hrooted : Path.IsRooted w.root.toList := Disk.isRooted_resolve hr
    have hplain := (arePlain_baseOf w.root).append (arePlain_of_isName hnames)
    rw [Visit.names] at hplain
    rw [Visit.names, normalize_pathTo hrooted hnames hmark]
    refine getLast?_segments (baseOf w.root ++ v.above) ?_
    rw [namesOf_pathOf hplain, List.append_assoc]
  · obtain ⟨bytes, hb, _⟩ := Walk.report_bytes w v hfile
    exact (hd.file bytes hb).2.2.1

namespace EndsIn

variable {path : String}

theorem extension_eq (h : EndsIn path name) : extension path = extension name := by
  refine Path.extension_congr (h.last.trans ?_)
  rw [Path.segments_of_isPart h.isFileName.isPart]
  rfl

theorem extension_normalize (h : EndsIn path name) (hm : isMarked name = false) :
    extension (Path.normalize path) = extension path :=
  Path.extension_congr ((h.normal hm).trans h.last.symm)

theorem isSupported_eq (h : EndsIn path name) : isSupported path = isSupported name := by
  rw [isSupported, isSupported, h.extension_eq]

/-- The normal form of a supported path is supported. -/
theorem isSupported_normalize (h : EndsIn path name) (hs : isSupported path = true) :
    isSupported (Path.normalize path) = true := by
  have hm : isMarked name = false := by
    refine Bool.eq_false_iff.mpr fun hm => ?_
    rw [h.isSupported_eq, isSupported_of_marked h.isFileName hm] at hs
    cases hs
  rwa [isSupported, h.extension_normalize hm]

end EndsIn

/-! ## What steps keep -/

/-- What the registry says of the file of a row. -/
structure HasType (r : FileRecord) : Prop where
  endsIn : EndsIn r.path r.name
  extension? : r.extension? = fileType? r.name

theorem HasType.becomes {r' : FileRecord} (h : HasType r) (hr : r.Becomes r') : HasType r' := by
  obtain ⟨_, _, _, rfl⟩ := hr
  exact ⟨h.endsIn, h.extension?⟩

/-- Rows own what is stored, rows of files have the types of their names, and only supported files own records. -/
structure Typed (t : Tables) : Prop where
  owned : t.Owned
  types : ∀ r ∈ t.files, r.kind = .file → HasType r
  supported : ∀ r ∈ t.files, t.recordsOf r.fileId ≠ .none → isSupported r.key = true

namespace Typed

theorem register (h : Typed t) (hid : r.id = Database.nextFileId t) (hr : r.kind = .file → HasType r) :
    Typed { t with files := t.files ++ [r] } where
  owned := h.owned.append fun r' hr' => hid ▸ lt_nextFileId t r' hr'
  types := List.forall_mem_append.mpr ⟨h.types, List.forall_mem_singleton.mpr hr⟩
  supported := by
    refine List.forall_mem_append.mpr ⟨h.supported, List.forall_mem_singleton.mpr fun hne => absurd ?_ hne⟩
    exact h.owned.recordsOf_eq_none fun r' hr' => Nat.ne_of_lt (hid ▸ lt_nextFileId t r' hr')

theorem refresh (h : Typed t) {g : FileRecord → FileRecord} (hg : ∀ r : FileRecord, r.Becomes (g r)) :
    Typed { t with files := t.files.map g } where
  owned := h.owned.map hg
  types := List.forall_mem_map.mpr fun r hr hkind => (h.types r hr ((hg r).kind.symm.trans hkind)).becomes (hg r)
  supported := List.forall_mem_map.mpr fun r hr hne => by
    rw [FileRecord.fileId_eq (hg r).id] at hne
    rw [FileRecord.key, (hg r).place.2]
    exact h.supported r hr hne

theorem drop (h : Typed t) (hdrops : t.Drops r after) : Typed after where
  owned := hdrops.owned h.owned
  types r' hr' := h.types r' (List.mem_filter.mp (hdrops.files ▸ hr')).1
  supported r' hr' hne := h.supported r' (List.mem_filter.mp (hdrops.files ▸ hr')).1 fun hnone =>
    hne (hdrops.recordsOf_eq_none hnone)

/-- A file may be indexed for its row if its path is supported. -/
theorem touch (h : Typed t) (hrow : ∃ r' ∈ t.files, r'.id = r.id) (htouches : t.Touches r.fileId after)
    (hs : ∀ r' ∈ t.files, r'.id = r.id → isSupported r'.key = true) : Typed after where
  owned := htouches.owned h.owned hrow
  types := htouches.files ▸ h.types
  supported r' hr' hne := by
    rw [htouches.files] at hr'
    by_cases he : r'.fileId = r.fileId
    · exact hs r' hr' (FileRecord.fileId_injective he)
    · exact h.supported r' hr' (htouches.others _ he ▸ hne)

end Typed

/-! ## Rows for entries -/

/-- What is registered for a file says what was found of its stand-in. -/
theorem register_describes (projectId : String) (byPath : Keyed Metadata) (m : Metadata) (t : Tables) :
    (register projectId byPath m).Ends t
      (fun x after => x.2 = withContent byPath m ∧ (FileDraft.ofMetadata x.2).Describes projectId x.1 ∧
        x.1.id = Database.nextFileId t ∧ after = { t with files := t.files ++ [x.1.stored] })
      (fun after => after = t) := by
  have hstep : (Process.step (·.registerFile projectId (.ofMetadata (withContent byPath m))) :
      Work FileRecord).Ends t
      (fun r after => (FileDraft.ofMetadata (withContent byPath m)).Describes projectId r ∧
        r.id = Database.nextFileId t ∧ after = { t with files := t.files ++ [r.stored] })
      (fun after => after = t) := by
    refine Ends.step (fun r db h => ?_) rfl
    obtain ⟨hd, hid, _, hdb⟩ := registerFile_eq_ok.mp h
    exact ⟨_, hdb, hd, hid, rfl⟩
  unfold register
  exact hstep.bind fun r after hafter => Ends.pure ⟨rfl, hafter⟩

theorem hasType_of_describes (hl : d.Legal) (h : s.scan d o root = .ok found) (hm : m ∈ found)
    (hd : (FileDraft.ofMetadata m).Describes projectId r) (hkind : r.kind = .file) : HasType r.stored := by
  obtain ⟨hends, htype⟩ := endsIn_of_found hl h hm
  have hfile : m.isFile = true := by
    rw [Metadata.isFile, show m.kind = .file from hd.kind.trans hkind]
    rfl
  have hpath : m.path = r.path := Option.some.inj hd.path
  have hname : m.name = r.name := Option.some.inj hd.name
  rw [hpath, hname] at hends
  exact ⟨hends, hd.extension?.symm.trans (hname ▸ htype hfile)⟩

/-- Only supported files are indexed. -/
theorem reindex_cases (d : Disk) (r : FileRecord) (m : Metadata) (t : Tables) :
    let Q := fun after => after = t ∨ isSupported m.path = true ∧ t.Touches r.fileId after
    (reindex d r m).Ends t (fun _ => Q) Q := by
  intro Q
  cases hs : isSupported m.path with
  | false =>
    unfold reindex
    rw [hs]
    exact Ends.pure (.inl rfl)
  | true => exact (reindex_ends d r m t).mono (fun _ _ h => .inr ⟨hs, h⟩) fun _ h => .inr ⟨hs, h⟩

/-- What is refreshed is a row that was read, and what it is refreshed with is the stand-in of its file. -/
theorem refresh_pairs (rows : Keyed FileRecord) (byPath : Keyed Metadata) (m : Metadata) (t : Tables) :
    (refresh rows byPath m).Ends t
      (fun x? _ => ∀ x, x? = some x → rows.get? (Path.normalize m.path) = some x.1 ∧ x.2 = withContent byPath m)
      (fun _ => True) := by
  unfold refresh
  split
  · exact Ends.pure fun _ h => by cases h
  · next r hr =>
    refine Ends.bind (Q := fun _ _ => True) (Ends.update (fun db h => ?_) fun _ _ => trivial) fun _ _ _ => Ends.pure ?_
    · obtain ⟨_, hdb, _⟩ := exists_map_of_updateFile h
      exact ⟨_, hdb, trivial⟩
    · rintro _ ⟨⟩
      exact ⟨hr, rfl⟩

/-! ## A call -/

/-- The row of a pair is there under its number, and its path has the normal form of the entry's. -/
def Names (now : Tables) (x : FileRecord × Metadata) : Prop :=
  ∃ r ∈ now.files, r.id = x.1.id ∧ r.key = x.2.key

theorem Names.refresh {x : FileRecord × Metadata} (h : Names now x) {g : FileRecord → FileRecord}
    (hg : ∀ r : FileRecord, r.Becomes (g r)) : Names { now with files := now.files.map g } x := by
  obtain ⟨r, hr, hid, hkey⟩ := h
  refine ⟨g r, List.mem_map_of_mem hr, (hg r).id.trans hid, ?_⟩
  rw [FileRecord.key, (hg r).place.2]
  exact hkey

namespace Pass

variable {p : Pass}

/-- The pairs that are to be indexed: entries that were found, with rows of their paths. -/
def Pairs (p : Pass) (now : Tables) (l : List (FileRecord × Metadata)) : Prop :=
  ∀ x ∈ l, x.2 ∈ p.found ∧ Names now x

theorem registerAll_types (hl : d.Legal) (hscan : s.scan d o root = .ok p.found) (ht : Typed p.tables) :
    (p.differences.added.mapM (register p.projectId p.byPath)).Ends p.tables
      (fun created now => Typed now ∧ (∀ r ∈ p.tables.files, r ∈ now.files) ∧ p.Pairs now created) Typed := by
  refine Ends.mapM (I := fun _ created now => Typed now ∧ (∀ r ∈ p.tables.files, r ∈ now.files) ∧ p.Pairs now created)
    (fun front m rest created now he hi => ?_) ⟨ht, fun _ hr => hr, List.forall_mem_nil _⟩
  obtain ⟨hnow, hold, hpairs⟩ := hi
  obtain ⟨file, hfile, _, rfl⟩ := exists_file_of_added (m := m) (by rw [he]; simp)
  refine (register_describes p.projectId p.byPath file.bare now).mono ?_ ?_
  · rintro x _ ⟨hx, hd, hid, rfl⟩
    have hfound : x.2 ∈ p.found := hx ▸ standIn_mem hfile
    refine ⟨hnow.register hid (hasType_of_describes (r := x.1) hl hscan hfound hd), fun r hr =>
      List.mem_append_left _ (hold r hr), List.forall_mem_append.mpr ⟨fun y hy => ?_, ?_⟩⟩
    · obtain ⟨hy, r, hr, hrow⟩ := hpairs y hy
      exact ⟨hy, r, List.mem_append_left _ hr, hrow⟩
    · refine List.forall_mem_singleton.mpr ⟨hfound, x.1.stored, by simp, rfl, ?_⟩
      exact congrArg Path.normalize (Option.some.inj hd.path).symm
  · rintro _ rfl
    exact hnow

/-- A row that was read for a file is still there under its number. -/
theorem names_of_get? {file : Metadata} {x : FileRecord × Metadata} (hfile : file ∈ p.found)
    (hold : ∀ r ∈ p.tables.files, ∃ r' ∈ now.files, r.Becomes r')
    (hget : p.rowsByPath.get? (Path.normalize file.bare.path) = some x.1)
    (hwith : x.2 = withContent p.byPath file.bare) : x.2 ∈ p.found ∧ Names now x := by
  obtain ⟨hrow, hkey⟩ := mem_rows_of_get? hget
  obtain ⟨r, hr, hsame⟩ := mem_rows hrow
  obtain ⟨r', hr', hbecomes⟩ := hold r hr
  obtain ⟨_, _, _, hstand, _⟩ := exists_standIn hfile
  refine ⟨hwith ▸ standIn_mem hfile, r', hr', hbecomes.id.trans (hsame ▸ rfl), ?_⟩
  calc r'.key = r.key := congrArg Path.normalize hbecomes.place.2
    _ = x.1.key := by rw [hsame]; rfl
    _ = file.key := hkey
    _ = x.2.key := by rw [hwith]; exact hstand.symm

theorem refreshAll_types {created : List (FileRecord × Metadata)} (hnow : Typed now)
    (hold : ∀ r ∈ p.tables.files, r ∈ now.files) (hcreated : p.Pairs now created) :
    (p.differences.modified.mapM (refresh p.rowsByPath p.byPath)).Ends now
      (fun xs after => Typed after ∧ p.Pairs after (created ++ xs.filterMap id)) Typed := by
  refine (Ends.mapM (I := fun _ xs mid => Typed mid ∧ (∀ r ∈ p.tables.files, ∃ r' ∈ mid.files, r.Becomes r') ∧
    p.Pairs mid (created ++ xs.filterMap id)) (fun front m rest xs mid he hi => ?_)
    ⟨hnow, fun r hr => ⟨r, hold r hr, .refl r⟩, by simpa using hcreated⟩).mono (fun _ _ h => ⟨h.1, h.2.2⟩) fun _ h => h
  obtain ⟨hmid, hold, hpairs⟩ := hi
  obtain ⟨hm, _⟩ := List.mem_filter.mp (List.mem_filter.mp (show m ∈ p.differences.modified by rw [he]; simp)).1
  obtain ⟨file, hfile, rfl⟩ := List.mem_map.mp hm
  have hends := (refresh_ends p.rowsByPath p.byPath file.bare mid).and
    (refresh_pairs p.rowsByPath p.byPath file.bare mid)
  refine hends.mono ?_ ?_
  · rintro x? _ ⟨⟨g, rfl, hg, _⟩, hx⟩
    refine ⟨hmid.refresh hg, fun r hr => ?_, ?_⟩
    · obtain ⟨r', hr', hbecomes⟩ := hold r hr
      exact ⟨g r', List.mem_map_of_mem hr', hbecomes.trans (hg r')⟩
    rw [List.filterMap_append, ← List.append_assoc]
    refine List.forall_mem_append.mpr ⟨fun y hy => ⟨(hpairs y hy).1, (hpairs y hy).2.refresh hg⟩, fun x hmem => ?_⟩
    obtain ⟨y, hy, hsome⟩ := List.mem_filterMap.mp hmem
    obtain rfl := List.mem_singleton.mp hy
    obtain ⟨hget, hwith⟩ := hx x hsome
    obtain ⟨hfound, hnames⟩ := names_of_get? hfile hold hget hwith
    exact ⟨hfound, hnames.refresh hg⟩
  · rintro _ ⟨rfl, _⟩
    exact hmid

theorem removeAll_types (hnow : Typed now) :
    (p.differences.deleted.forM (removePath p.rowsByPath)).Ends now
      (fun _ after => Typed after ∧ ∀ r ∈ after.files, r ∈ now.files) Typed := by
  refine Ends.forM (I := fun _ mid => Typed mid ∧ ∀ r ∈ mid.files, r ∈ now.files)
    (fun front path rest mid _ hi => ?_) ⟨hnow, fun _ hr => hr⟩
  obtain ⟨hmid, hrows⟩ := hi
  refine (removePath_ends p.rowsByPath path mid).mono ?_ ?_
  · rintro _ after (rfl | ⟨r, _, hdrops⟩)
    · exact ⟨hmid, hrows⟩
    · exact ⟨hmid.drop hdrops, fun r' hr' => hrows r' (List.mem_filter.mp (hdrops.files ▸ hr')).1⟩
  · rintro after (rfl | ⟨r, _, hdrops⟩)
    · exact hmid
    · exact hmid.drop hdrops

end Pass

/-- Whether every pair has the row of its own path, if its row is still there. -/
def OwnPaths (l : List (FileRecord × Metadata)) (now : Tables) : Prop :=
  ∀ x ∈ l, ∀ r ∈ now.files, r.id = x.1.id → isSupported x.2.path = true → isSupported r.key = true

theorem syncProject_types (hl : d.Legal) (ht : Typed t) :
    (syncProject s d projectId root content maxFileSize?).Ends t
      (fun x now => Typed now ∧ OwnPaths x.todo now) Typed := by
  refine syncProject_ends_of ht fun found hscan => ?_
  unfold Pass.sync
  refine (Pass.registerAll_types hl hscan ht).bind ?_
  rintro created t₁ ⟨h₁, hold, hcreated⟩
  refine (Pass.refreshAll_types h₁ hold hcreated).bind ?_
  rintro refreshed t₂ ⟨h₂, hpairs⟩
  refine (Pass.removeAll_types h₂).bind ?_
  rintro _ t₃ ⟨h₃, hrows⟩
  refine Ends.pure ⟨h₃, fun x hx r hr hid hs => ?_⟩
  obtain ⟨hfound, r', hr', hid', hkey⟩ := hpairs x hx
  obtain rfl := h₂.owned.eq_of_id_eq (hrows r hr) hr' (hid.trans hid'.symm)
  rw [hkey]
  exact (endsIn_of_found hl hscan hfound).1.isSupported_normalize hs

theorem reindexAll_types (d : Disk) {l : List (FileRecord × Metadata)} (hnow : Typed now)
    (hrows : Remain (l.map Prod.fst) now) (hpaths : OwnPaths l now) :
    (reindexAll d l).Ends now (fun _ => Typed) Typed := by
  refine (Ends.mapM (I := fun _ _ mid => Typed mid ∧ mid.files = now.files) (fun front x rest _ mid he hi => ?_)
    ⟨hnow, rfl⟩).mono (fun _ _ h => h.1) fun _ h => h
  obtain ⟨hmid, hfiles⟩ := hi
  have hx : x ∈ l := by rw [he]; simp
  have hstep : ∀ after, after = mid ∨ isSupported x.2.path = true ∧ mid.Touches x.1.fileId after →
      Typed after ∧ after.files = now.files := by
    rintro after (rfl | ⟨hs, htouches⟩)
    · exact ⟨hmid, hfiles⟩
    · refine ⟨hmid.touch ?_ htouches ?_, htouches.files.trans hfiles⟩
      · rw [hfiles]
        exact hrows x.1 (List.mem_map_of_mem hx)
      · rw [hfiles]
        exact fun r hr hid => hpaths x hx r hr hid hs
  exact (reindex_cases d x.1 x.2 mid).mono (fun _ => hstep) fun after h => (hstep after h).1

/-- However a scan of a project ends, it leaves tables typed. -/
theorem scanProject_types (hl : d.Legal) (ht : Typed t) :
    (scanProject s d projectId root content maxFileSize?).Ends t (fun _ => Typed) Typed := by
  rw [scanProject_eq]
  refine (((syncProject_types hl ht).and (syncProject_ends ht.owned)).mono (fun _ _ h => h) fun _ h => h.1).bind ?_
  rintro x now ⟨⟨hnow, hpaths⟩, hready⟩
  exact (reindexAll_types d hnow hready.rows_todo hpaths).bind fun _ after hafter => Ends.pure hafter

/-! ## Runs -/

/-- Whether all names on the disk of a request are legal. -/
def Request.OnLegal : Request → Prop
  | .scan _ d .. => d.Legal
  | .remove _ => True

theorem typed_empty : Typed .empty := ⟨owned_empty, List.forall_mem_nil _, List.forall_mem_nil _⟩

theorem typed_of_requests {requests : List Request} (h : ∀ q ∈ requests, q.OnLegal) :
    ∃ t, served requests = on t ∧ Typed t := by
  induction requests with
  | nil => exact ⟨.empty, rfl, typed_empty⟩
  | cons q earlier ih =>
    obtain ⟨hq, hearlier⟩ := List.forall_mem_cons.mp h
    obtain ⟨t, ht, htyped⟩ := ih hearlier
    rw [served, ht]
    cases q with
    | scan s d projectId root content maxFileSize? => exact (scanProject_types hq htyped).snd
    | remove r => exact ((removeFile_ends r t).mono (fun _ _ h => htyped.drop h) fun _ h => htyped.drop h).snd

/-! ## Types and languages -/

/-- What the type of a row says of the language in which its file is indexed. -/
structure Identifies (t : Tables) (r : FileRecord) : Prop where
  name : IsFileName r.name
  type : r.extension? = fileType? r.name
  extension : extension r.path = extension r.name
  /-- The type names the language of the path, unless the file is supported and its name is dotted. -/
  language : languageOfType? r.extension? = languageOfExtension? (Path.extension r.path) ↔
    ¬ (IsDotted r.name ∧ isSupported r.path = true)
  missing : isSupported r.path = true → (r.extension? = none ↔ IsDotted r.name)
  /-- Files are indexed by the normal forms of their paths. -/
  indexed : t.recordsOf r.fileId ≠ .none → isSupported r.key = true
  normal : isMarked r.name = false → Path.extension r.key = Path.extension r.path

theorem Typed.identifies (h : Typed t) (hr : r ∈ t.files) (hkind : r.kind = .file) : Identifies t r := by
  obtain ⟨hends, htype⟩ := h.types r hr hkind
  have hname := hends.isFileName
  refine ⟨hname, htype, hends.extension_eq, ?_, fun hs => ?_, h.supported r hr, hends.extension_normalize⟩
  · rw [htype, hends.extension_eq, hends.isSupported_eq]
    exact languageOfType?_eq_iff hname
  · rw [htype]
    exact fileType?_eq_none_iff hname (hends.isSupported_eq ▸ hs)

/-- The type of a file is its extension without the dot exactly if its name is neither dotted nor ends in a dot. A
dotted name has an extension but no type, and a name that ends in a dot has no extension but an empty type. After any
requests the type of every registered file is that of its name, and so it names the language of the file unless the
file is supported and its name is dotted; these are the only supported files that have no type. -/
theorem types_of_requests (hname : IsFileName name) {requests : List Request}
    (hlegal : ∀ q ∈ requests, q.OnLegal) :
    (ReadAlike name ↔ ¬ IsDotted name ∧ ¬ EndsInDot name) ∧
    (IsDotted name → fileType? name = none ∧ ∃ type, extension name = "." ++ type) ∧
    (EndsInDot name → fileType? name = some "" ∧ extension name = "") ∧
    ∃ t, served requests = on t ∧ ∀ r ∈ t.files, r.kind = .file → Identifies t r := by
  refine ⟨Path.readAlike_iff hname, fun h => h.values hname, fun h => h.values hname, ?_⟩
  obtain ⟨t, ht, htyped⟩ := typed_of_requests hlegal
  exact ⟨t, ht, fun r hr hkind => htyped.identifies hr hkind⟩

/-- Scripts that cannot be read, one of them with a dotted name, and a file whose name ends in a dot. -/
def dottedDisk : Disk :=
  { Disk.holding [.file "..js" [59] defaultTime, .file "a.JS" [59] defaultTime, .file "b." [98] defaultTime] with
    unread := ["/..js", "/a.JS"] }

theorem types_of_dottedDisk :
    ¬ ReadAlike "..js" ∧
    (served [.scan .default dottedDisk "p" "/" false none]).tables?.map (fun t =>
      t.files.map fun r => (r.name, r.extension?, extension r.path)) =
        some [("..js", none, ".js"), ("a.JS", some "js", ".js"), ("b.", some "", "")] ∧
    ∃ t, served [.scan .default dottedDisk "p" "/" false none] = on t ∧
      ∀ r ∈ t.files, r.kind = .file → Identifies t r := by
  have hname : IsFileName "..js" := ⟨by decide, by decide, by decide, by decide⟩
  have hdotted : IsDotted "..js" :=
    ⟨['.'], ['j', 's'], ⟨rfl, by decide⟩, by decide, by decide, List.forall_mem_singleton.mpr rfl⟩
  have hlegal : dottedDisk.Legal := by decide +kernel
  have hrequests : ∀ q ∈ [Request.scan .default dottedDisk "p" "/" false none], q.OnLegal :=
    List.forall_mem_singleton.mpr hlegal
  obtain ⟨halike, _, _, hserved⟩ := types_of_requests hname hrequests
  exact ⟨fun h => (halike.mp h).1 hdotted, by decide +kernel, hserved⟩

/-- A script with a dotted name. -/
def dottedScript : Disk := .holding [.file "..php" [59] defaultTime]

def dottedMetadata : Metadata := ⟨"/..php", "..php", .file, 1, ⟨63135596800000000, some 0⟩, none, none⟩

/-- The type of a file need not be its extension, whether this is missing or not, and not every file that is indexed
has one. -/
theorem not_always_read_alike :
    (¬ ∀ name, IsFileName name → (fileType? name).isSome = true → ReadAlike name) ∧
    (¬ ∀ name, IsFileName name → fileType? name = none → ReadAlike name) ∧
    ¬ ∀ (d : Disk) (report : Report) (t : Tables), d.Legal → d.Unmarked →
      scanProject .default d "p" "/" false none .empty = (.ok report, on t) →
      report.totals.indexed = t.files.length → ∀ r ∈ t.files, r.extension? ≠ none := by
  refine ⟨fun h => ?_, fun h => ?_, fun h => ?_⟩
  · have halike := h "b." ⟨by decide, by decide, by decide, by decide⟩ (by decide +kernel)
    cases halike with
    | none hnone _ => exact absurd hnone (by decide +kernel)
    | some _ hext =>
      have hempty : extension "b." = "" := by decide +kernel
      exact Path.dot_append_ne_empty _ (hext.symm.trans hempty)
  · have halike := h "..js" ⟨by decide, by decide, by decide, by decide⟩ (by decide +kernel)
    cases halike with
    | none _ hext => exact absurd hext (by decide +kernel)
    | some hsome _ =>
      have hnone : fileType? "..js" = none := by decide +kernel
      cases hnone.symm.trans hsome
  · have hl : dottedScript.Legal := by decide +kernel
    have hu : dottedScript.Unmarked := by decide +kernel
    have hscan : Scanner.default.scan dottedScript (scanOptions false none) "/" = .ok [dottedMetadata] :=
      eq_ok_of_toOption (by decide +kernel)
    have hok : (scanProject .default dottedScript "p" "/" false none (on .empty)).1.isOk = true :=
      (isOk_iff_of_scan sound_empty hl hu hscan).mpr (by decide +kernel)
    obtain ⟨report, hcall⟩ := Process.eq_of_isOk _ _ hok
    obtain ⟨found, t, hscan', hdb, _, rfl, hdone⟩ := exists_pass sound_empty hl hu hcall
    cases hscan.symm.trans hscan'
    have hfiles : t.files = [.ofMetadata "p" 1 dottedMetadata] := hdone.files.trans (by decide +kernel)
    rw [hdb] at hcall
    refine h dottedScript _ t hl hu hcall ?_ _ (hfiles ▸ List.mem_singleton.mpr rfl) rfl
    rw [hfiles]
    decide +kernel

end CodeAtlas.Project
