import CodeAtlas.Proofs.Path.Relative
import CodeAtlas.Proofs.Scan.Spelling

/-! # The way to a path, and which names exclude it

From the root of a scan, or from any absolute path, the way to another path goes up and then down by names. A path
below the root is excluded by the names that the way goes down by, and by nothing in the path of the root: it is so
if one of the patterns occurs in one of these names. -/

namespace CodeAtlas.Scan

open CodeAtlas.Disk

variable {path root : String} {names : List String} {patterns : List String}

/-! ## The names on the way -/

/-- The names that a path comes to once each double dot has cancelled what it can. -/
def SettlesTo (path : String) (names : List String) : Prop :=
  Path.Settles (Path.isAbsolute path.toList) (Path.segments path.toList) (names.map String.toList)

theorem map_toList_inj {names names' : List String} :
    names.map String.toList = names'.map String.toList ↔ names = names' :=
  List.map_inj_right fun _ _ => String.toList_inj.mp

theorem settlesTo_iff (h : Path.isAbsolute path.toList = true) : SettlesTo path names ↔ names = baseOf path := by
  rw [SettlesTo, h, Path.settles_iff, ← toList_baseOf, map_toList_inj]

theorem isAbsolute_childPath (h : Path.isAbsolute root.toList = true) (name : String) :
    Path.isAbsolute (childPath root name).toList = true := by
  unfold childPath
  split <;> simp_all [Path.isAbsolute, List.head?_append]

theorem isAbsolute_pathTo (h : Path.isAbsolute root.toList = true) (names : List String) :
    Path.isAbsolute (pathTo root names).toList = true := by
  induction names generalizing root with
  | nil => exact h
  | cons name names ih => exact ih (isAbsolute_childPath h name)

theorem toList_relativeSegments (path root : String) :
    (Path.relativeSegments path root).map String.toList = Path.relative path root := by
  simp [Path.relativeSegments, Function.comp_def]

theorem exists_relativeSegments (h : Path.isAbsolute path.toList = true) (root : String) :
    ∃ n names, Path.relativeSegments path root = List.replicate n ".." ++ names ∧ ArePlain names := by
  obtain ⟨n, names, hway, hnames⟩ := Path.exists_relative h root
  refine ⟨n, names.map String.ofList, ?_, ?_⟩
  · rw [Path.relativeSegments, hway, List.map_append, List.map_replicate]
    rfl
  · intro name hname
    obtain ⟨s, hs, rfl⟩ := List.mem_map.mp hname
    simpa using hnames s hs

/-- The way from the root leads to what the path settles to. -/
theorem baseOf_relativeSegments (h : Path.isAbsolute path.toList = true) (root : String) :
    baseOf (pathTo root (Path.relativeSegments path root)) = baseOf path := by
  have hparts : ∀ n ∈ Path.relativeSegments path root, Path.IsPart n.toList := by
    intro n hn
    obtain ⟨s, hs, rfl⟩ := List.mem_map.mp hn
    simpa using Path.isPart_of_mem_relative h hs
  rw [← map_toList_inj, toList_baseOf, toList_baseOf, segments_pathTo root hparts, toList_relativeSegments,
    Path.resolve_relative h]

/-- The way only goes down if the path settles to what the root settles to and further names. -/
theorem relativeSegments_eq_iff (h : Path.isAbsolute path.toList = true) (hnames : ArePlain names) :
    Path.relativeSegments path root = names ↔ baseOf path = baseOf root ++ names := by
  have hup : ∀ s ∈ names.map String.toList, s ≠ Path.up := by
    intro s hs
    obtain ⟨n, hn, rfl⟩ := List.mem_map.mp hs
    exact (hnames n hn).2
  rw [← map_toList_inj, toList_relativeSegments, Path.relative_eq_iff h hup, ← toList_baseOf, ← toList_baseOf,
    ← List.map_append, map_toList_inj]

theorem relativeSegments_pathTo (hroot : Path.isAbsolute root.toList = true) (h : ArePlain names) :
    Path.relativeSegments (pathTo root names) root = names :=
  (relativeSegments_eq_iff (isAbsolute_pathTo hroot names) h).mpr (baseOf_pathTo root h)

/-! ## Patterns -/

theorem excluded_iff (h : Path.relativeSegments path root = names) :
    Path.excluded path root patterns = true ↔ ∃ n ∈ names, ∃ p ∈ patterns, p.toList <:+: n.toList := by
  rw [Path.excluded_iff, ← toList_relativeSegments, h]
  constructor
  · rintro ⟨_, hs, hp⟩
    obtain ⟨n, hn, rfl⟩ := List.mem_map.mp hs
    exact ⟨n, hn, hp⟩
  · rintro ⟨n, hn, hp⟩
    exact ⟨n.toList, List.mem_map_of_mem hn, hp⟩

theorem excluded_pathTo {folder : String} (hf : Path.IsRooted folder.toList) {names : List String}
    (h : ∀ n ∈ names, isName n = true) (patterns : List String) :
    Path.excluded (pathTo folder names) folder patterns = true ↔
      ∃ n ∈ names, ∃ p ∈ patterns, p.toList <:+: n.toList :=
  excluded_iff (relativeSegments_pathTo hf.isAbsolute (arePlain_of_isName h))

/-- From one absolute path to another the way goes up and then down by names. Written as a text it is split into its
parts again, and behind the root it settles to what the path settles to. It is a list of names exactly if the path
settles to these names behind what the root settles to, however the two are spelled; so it is the list of names that
is written behind a root, and it is empty exactly if both settle to the same. A path below the root is excluded exactly
if one of the patterns occurs in one of the names behind the root. -/
theorem relativeSegments_lead_to_path (hpath : Path.isAbsolute path.toList = true)
    (hroot : Path.isAbsolute root.toList = true) :
    ∃ ps rs, SettlesTo path ps ∧ SettlesTo root rs ∧
      (∃ n names, Path.relativeSegments path root = List.replicate n ".." ++ names ∧ ArePlain names) ∧
      Path.segments (Path.join (Path.relative path root)) = Path.relative path root ∧
      SettlesTo (pathTo root (Path.relativeSegments path root)) ps ∧
      (∀ names, ArePlain names → (Path.relativeSegments path root = names ↔ ps = rs ++ names)) ∧
      (∀ names, ArePlain names → Path.relativeSegments (pathTo root names) root = names) ∧
      (Path.relativeSegments path root = [] ↔ ps = rs) ∧
      ∀ names, ArePlain names → ps = rs ++ names → ∀ patterns,
        (Path.excluded path root patterns = true ↔ ∃ n ∈ names, ∃ p ∈ patterns, p.toList <:+: n.toList) := by
  refine ⟨baseOf path, baseOf root, (settlesTo_iff hpath).mpr rfl, (settlesTo_iff hroot).mpr rfl,
    exists_relativeSegments hpath root, Path.segments_join_relative hpath root, ?_, fun names hnames => ?_,
    fun names hnames => ?_, ?_, fun names hnames hbelow patterns => ?_⟩
  · rw [settlesTo_iff (isAbsolute_pathTo hroot _), baseOf_relativeSegments hpath]
  · exact relativeSegments_eq_iff hpath hnames
  · exact relativeSegments_pathTo hroot hnames
  · rw [relativeSegments_eq_iff hpath (List.forall_mem_nil _), List.append_nil]
  · exact excluded_iff ((relativeSegments_eq_iff hpath hnames).mpr hbelow)

/-- A pattern that occurs in the path of the root does not exclude what is below it. -/
theorem relativeSegments_of_spellings :
    Path.relativeSegments "/srv/lib/../build//src/./main.js" "//srv/build/x/.." = ["src", "main.js"] ∧
      Path.excluded "/srv/lib/../build//src/./main.js" "//srv/build/x/.." ["build"] = false ∧
      Path.excluded "/srv/lib/../build//src/./main.js" "//srv/build/x/.." ["build", "ain."] = true := by
  have hpath : Path.isAbsolute "/srv/lib/../build//src/./main.js".toList = true := by decide +kernel
  have hroot : Path.isAbsolute "//srv/build/x/..".toList = true := by decide +kernel
  have hnames : ArePlain ["src", "main.js"] := arePlain_of_isName (by decide +kernel)
  obtain ⟨ps, rs, hps, hrs, _, _, _, hway, _, _, hexcluded⟩ := relativeSegments_lead_to_path hpath hroot
  have hbelow : ps = rs ++ ["src", "main.js"] := by
    rw [(settlesTo_iff hpath).mp hps, (settlesTo_iff hroot).mp hrs]
    decide +kernel
  refine ⟨(hway _ hnames).mpr hbelow, Bool.eq_false_iff.mpr fun h => ?_, (hexcluded _ hnames hbelow _).mpr ?_⟩
  · exact absurd ((hexcluded _ hnames hbelow _).mp h) (by decide +kernel)
  · decide +kernel

end CodeAtlas.Scan
