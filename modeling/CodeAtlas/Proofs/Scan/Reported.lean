import CodeAtlas.Proofs.Scan.Listing

/-! # What a scan reports

All entries below a root that nothing keeps a scan from, each of them once and as it is on the disk, in the
order in which the folders list them. The root is resolved first, so what counts is where it leads to. -/

namespace CodeAtlas.Scan

open CodeAtlas.Disk

/-- Whether nothing keeps a scan that begins at this root from what the names lead to from there. -/
structure Open (d : Disk) (l : Limits) (root : String) (names : List String) : Prop where
  depth : (names.length : Int) ≤ l.maxDepth + 1
  allowed : ∀ name ∈ names, ∀ p ∈ l.patterns, ¬ p.toList <:+: name.toList
  listed : ∀ above, above <+: names → above ≠ names → pathTo root above ∉ d.unlisted
  known : ∀ above, above <+: names → above ≠ [] → pathTo root above ∉ d.unknown

/-- A walk goes the ways that are open for it. -/
theorem goes_iff_open {w : Walk} (hroot : Path.IsRooted w.root.toList) {names : List String}
    (hne : names ≠ []) (hnames : ∀ n ∈ names, isName n = true) :
    w.enters w.root 0 = true ∧ w.Goes 0 names ↔ Open w.disk w.limits w.root names := by
  have hlen : 0 < names.length := List.length_pos_iff.mpr hne
  have hskips : ∀ front, front <+: names → (w.skips (pathTo w.root front) = false ↔
      (∀ n ∈ front, ∀ p ∈ w.limits.patterns, ¬ p.toList <:+: n.toList) ∧
        pathTo w.root front ∉ w.disk.unknown) := by
    intro front hfront
    have hexcluded := excluded_pathTo hroot (fun n hn => hnames n (hfront.subset hn)) w.limits.patterns
    rw [Walk.skips, Bool.or_eq_false_iff, ← Bool.not_eq_true, hexcluded]
    simp
  have henters : ∀ (path : String) (n : Nat), w.enters path n = true ↔
      (n : Int) ≤ w.limits.maxDepth ∧ path ∉ w.disk.unlisted := by
    intro path n
    simp [Walk.enters]
  constructor
  · rintro ⟨henter, hgoes⟩
    have hentered : ∀ front, front <+: names → front ≠ names →
        (front.length : Int) ≤ w.limits.maxDepth ∧ pathTo w.root front ∉ w.disk.unlisted := by
      intro front hfront hfn
      rcases List.eq_nil_or_concat front with rfl | ⟨_, _, rfl⟩
      · exact (henters w.root 0).mp henter
      · exact (henters _ _).mp (hgoes.enters _ hfront (by simp) hfn)
    obtain ⟨front, last, rfl⟩ := (List.eq_nil_or_concat names).resolve_left hne
    refine ⟨?_, ?_, fun above ha hn => (hentered above ha hn).2, fun above ha hn => ?_⟩
    · have hdepth := (hentered front (by simp) (by simp)).1
      simp only [List.concat_eq_append, List.length_append, List.length_singleton]
      omega
    · exact ((hskips _ (List.prefix_refl _)).mp (hgoes.shows _ (List.prefix_refl _) hlen)).1
    · exact ((hskips above ha).mp (hgoes.shows above ha (List.length_pos_iff.mpr hn))).2
  · intro h
    have hdepth := h.depth
    refine ⟨(henters w.root 0).mpr ⟨by omega, h.listed [] (List.nil_prefix) hne.symm⟩, ?_, ?_⟩
    · intro front hfront hpos
      refine (hskips front hfront).mpr ⟨fun n hn => h.allowed n (hfront.subset hn), ?_⟩
      exact h.known front hfront (List.ne_nil_of_length_pos hpos)
    · intro front hfront _ hfn
      refine (henters _ _).mpr ⟨?_, h.listed front hfront hfn⟩
      have hle := hfront.length_le
      have hlt : front.length ≠ names.length := fun he => hfn (hfront.eq_of_length he)
      omega

/-- What a scan says of an entry. -/
structure Describes (d : Disk) (l : Limits) (root : String) (v : Visit) (m : Metadata) : Prop where
  path : m.path = pathTo root v.names
  name : m.name = v.entry.name
  modified : m.modified = ⟨Time.epoch + Time.microsOfNanos v.entry.changed, some 0⟩
  folder : v.entry.bytes? = none →
    m.kind = .folder ∧ m.size = 0 ∧ m.extension? = none ∧ m.content? = none
  file : ∀ bytes, v.entry.bytes? = some bytes →
    m.kind = .file ∧ m.size = bytes.length ∧ m.extension? = Path.fileType? v.entry.name ∧
      m.content? = if l.content = true ∧ (bytes.length : Int) ≤ l.maxFileSize ∧
        pathTo root v.names ∉ d.unread then some (textOf bytes) else none

theorem describes_report {w : Walk} (hl : w.disk.Legal) {v : Visit} (h : v ∈ w.all) :
    Describes w.disk w.limits w.root v (w.report v) where
  path := Walk.report_path w v
  name := by
    unfold Walk.report
    cases v.entry.bytes? <;> rfl
  modified := Walk.report_modified w v
  folder hb := by
    unfold Walk.report
    rw [hb]
    exact ⟨rfl, rfl, rfl, rfl⟩
  file bytes hb := by
    have htext : w.disk.readText? (pathTo w.root v.names) =
        if pathTo w.root v.names ∈ w.disk.unread then none else some (textOf bytes) := by
      rw [Disk.readText?_eq, Walk.bytes?_of_mem_all hl h, hb]
      simp
    unfold Walk.report
    rw [hb]
    refine ⟨rfl, rfl, rfl, ?_⟩
    simp only [Walk.file, Walk.content?, htext, Bool.and_eq_true, decide_eq_true_eq]
    split <;> split <;> simp_all

/-- The entries that a scan from this root reports, in their order. -/
structure Lists (d : Disk) (l : Limits) (root : String) (visits : List Visit)
    (found : List Metadata) : Prop where
  described : ∃ report : Visit → Metadata,
    found = visits.map report ∧ ∀ v ∈ visits, Describes d l root v (report v)
  once : (found.map (·.path)).Nodup
  exact : ∀ v : Visit, v ∈ visits ↔
    (∃ folder, d.target? root = some folder ∧ folder.find? v.names = some v.entry) ∧
      v.entry.isShown = true ∧ Open d l root v.names
  subtree : ∀ v ∈ visits, Leads visits v
  siblings : ∀ folder above parent, d.target? root = some folder → folder.find? above = some parent →
    (inFolder visits above).Sublist parent.children

variable {d : Disk} {root path : String}

theorem pathTo_injective {folder : String} {a b : List String} (ha : ∀ n ∈ a, isName n = true)
    (hb : ∀ n ∈ b, isName n = true) (h : pathTo folder a = pathTo folder b) : a = b := by
  have hnames := congrArg namesOf h
  rw [namesOf_pathTo folder ha, namesOf_pathTo folder hb] at hnames
  exact List.append_cancel_left hnames

theorem lists_all {w : Walk} (hl : w.disk.Legal) (hroot : Path.IsRooted w.root.toList) :
    Lists w.disk w.limits w.root w.all (w.all.map w.report) where
  described := ⟨w.report, rfl, fun _ hv => describes_report hl hv⟩
  once := by
    rw [List.map_map, List.Nodup, List.pairwise_map]
    refine (List.pairwise_map.mp (Walk.nodup_all hl)).imp_of_mem fun {u v} hu hv hne he => hne ?_
    simp only [Function.comp_apply, Walk.report_path] at he
    exact pathTo_injective (Walk.isName_of_mem_all hl hu) (Walk.isName_of_mem_all hl hv) he
  exact v := by
    rw [Walk.mem_all_iff hl]
    refine and_congr_right fun hfind => and_congr_right fun _ => ?_
    obtain ⟨folder, ht, hfind⟩ := hfind
    have hnames := Entry.isName_of_find? (Disk.every_of_target? hl ht) hfind
    exact goes_iff_open hroot (by simp [Visit.names]) hnames
  subtree := Walk.leads_all hl
  siblings _ _ _ ht hf := Walk.inFolder_all hl ht hf

/-- A path without links and double dots leads to what its names lead to. -/
theorem target?_pathOf (hl : d.Legal) {names : List String} (hp : ArePlain names)
    (hlinks : Unlinked d.root names) : d.target? (pathOf names) = d.root.find? names := by
  by_cases hz : '\x00' ∈ (pathOf names).toList
  · -- no entry has a name with this character
    have hnone : d.root.find? names = none := by
      refine Option.eq_none_iff_forall_ne_some.mpr fun e hf => ?_
      have hnames := Entry.isName_of_find? hl hf
      have hrooted : Path.IsRooted "/".toList := ⟨[], by decide +kernel, by decide +kernel⟩
      have hclean : '\x00' ∉ (pathTo "/" names).toList := not_mem_pathTo (by decide +kernel) hnames
      rw [pathTo_of_normal hrooted (by decide +kernel) hnames, show baseOf "/" = [] by decide +kernel,
        List.nil_append] at hclean
      exact hclean hz
    rw [hnone, Disk.target?, placeOf?, if_pos (by simpa using hz), Option.bind_none]
  · exact Disk.target?_of_placeOf? (placeOf?_pathOf hz hp hlinks)

/-- A resolved path leads to where the names of the path lead, if these run into no loop of links and do not
end at a name with a backslash at its end. -/
theorem target?_of_resolve (hl : d.Legal) (hr : d.resolve root = .ok path) {names : List String}
    (hway : followAll d.root (namesOf root) = ⟨true, names⟩)
    (hu : ∀ name ∈ names.getLast?, isMarked name = false) :
    d.target? path = d.root.find? names ∧ ∀ e, d.target? root = some e → d.target? path = some e := by
  have hp : ArePlain names := by
    have hsound := (sound_followAll d.root root).settled
    rw [hway] at hsound
    exact hsound rfl
  have htrue : trueNames d.root root = .ok names := by
    cases hn : trueNames d.root root with
    | error e =>
      rw [Disk.resolve, hn] at hr
      cases hr
    | ok names' => rw [(trueNames_ok hn).2, hway, settled_of_arePlain hp]
  have hpath : path = pathOf names := by
    rw [Disk.resolve, htrue] at hr
    refine (Except.ok.inj hr).symm.trans ?_
    rcases List.eq_nil_or_concat names with rfl | ⟨front, name, rfl⟩
    · decide +kernel
    · rw [List.concat_eq_append] at hp hu ⊢
      have hpart := (hp name (by simp)).1
      dsimp only
      rw [dropMark_pathOf front hpart (hu name (by simp)), String.ofList_toList]
  have htarget := target?_pathOf hl hp (unlinked_followAll hway)
  rw [← hpath] at htarget
  refine ⟨htarget, fun e he => ?_⟩
  obtain ⟨_, _, htrue', hfind⟩ := Disk.exists_of_target? he
  rw [htarget, Except.ok.inj (htrue.symm.trans htrue'), hfind]

/-- A scan resolves its root first, links included, and reports exactly the entries that nothing keeps it
from below the folder that the resolved path leads to. This is the folder to which the names of the root
lead, and the root itself if it leads anywhere, provided that it runs into no loop of links and does not end
at a name with a backslash at its end. -/
theorem lists_of_scan (hl : d.Legal) (hd : d.Dated) (s : Scanner) (o : ScanOptions)
    (hr : d.resolve root = .ok path) :
    (∃ visits found, s.scan d o root = .ok found ∧ Lists d (s.limits o) path visits found) ∧
    ∀ names, followAll d.root (namesOf root) = ⟨true, names⟩ →
      (∀ name ∈ names.getLast?, isMarked name = false) →
        d.target? path = d.root.find? names ∧
          ∀ e, d.target? root = some e → d.target? path = some e := by
  refine ⟨?_, fun names => target?_of_resolve hl hr⟩
  obtain ⟨found, hscan⟩ := scan_of_dated (s := s) (o := o) hl hd hr
  obtain ⟨path', hr', rfl, _⟩ := exists_of_scan hscan
  cases hr.symm.trans hr'
  exact ⟨_, _, hscan, lists_all (w := s.walk d o path) hl (Disk.isRooted_resolve hr)⟩

/-! ## A root that is a link -/

/-- A folder and a link to it. The folder holds one of each kind of entry, among them a folder that cannot
be listed, a file of which nothing is known and a file that cannot be read. -/
def linkedFolder : Disk :=
  { Disk.holding [
      .folder "b" defaultTime [
        .folder "dist" defaultTime [.file "out.js" [59] defaultTime],
        .folder "g" defaultTime [.file "h.txt" [98, 99] defaultTime],
        .link "k" "g",
        .special "p",
        .file "r.txt" [114] defaultTime,
        .folder "s" defaultTime [.file "t.txt" [116] defaultTime],
        .file "u.txt" [117] defaultTime],
      .link "l" "b"] with
    unlisted := ["/b/s"]
    unknown := ["/b/u.txt"]
    unread := ["/b/r.txt"] }

theorem lists_of_linkedFolder : ∃ visits found,
    Scanner.default.scan linkedFolder ⟨true, none, [], none⟩ "/l" = .ok found ∧
      Lists linkedFolder (Scanner.default.limits ⟨true, none, [], none⟩) "/b" visits found ∧
      found.map (fun m => (m.path, m.content?)) =
        [("/b/g", none), ("/b/g/h.txt", some "bc"), ("/b/r.txt", none), ("/b/s", none)] := by
  have hr : linkedFolder.resolve "/l" = .ok "/b" := eq_ok_of_toOption (by decide +kernel)
  obtain ⟨⟨visits, found, hscan, hlists⟩, _⟩ := lists_of_scan (by decide +kernel) (by decide +kernel)
    .default ⟨true, none, [], none⟩ hr
  have hfound : (Scanner.default.scan linkedFolder ⟨true, none, [], none⟩ "/l").toOption.map
      (·.map fun m => (m.path, m.content?)) = some
        [("/b/g", none), ("/b/g/h.txt", some "bc"), ("/b/r.txt", none), ("/b/s", none)] := by
    decide +kernel
  rw [hscan] at hfound
  exact ⟨visits, found, hscan, hlists, Option.some.inj hfound⟩

/-- The root itself need not be a folder for a scan to find something below it. -/
theorem not_only_below_folders : ¬ ∀ (s : Scanner) (d : Disk) (o : ScanOptions) (root : String)
    (found : List Metadata), d.Legal → d.Dated → isMarked root = false → s.scan d o root = .ok found →
    (∀ own modified inner, d.root.find? (namesOf root) ≠ some (.folder own modified inner)) →
    found = [] := by
  intro h
  have hr : linkedFolder.resolve "/l" = .ok "/b" := eq_ok_of_toOption (by decide +kernel)
  obtain ⟨found, hscan⟩ := scan_of_dated (s := .default) (o := .default) (by decide +kernel)
    (by decide +kernel) hr
  have hnames : namesOf "/l" = ["l"] := by decide +kernel
  have hnone := h .default linkedFolder .default "/l" found (by decide +kernel) (by decide +kernel)
    (by decide +kernel) hscan (fun _ _ _ hf => by
      rw [hnames] at hf
      cases hf)
  have hsome : (Scanner.default.scan linkedFolder .default "/l").toOption.map List.isEmpty =
    some false := by decide +kernel
  rw [hscan, hnone] at hsome
  cases hsome

end CodeAtlas.Scan
