import CodeAtlas.Proofs.Keyed
import CodeAtlas.Proofs.Scan.Reported

/-! # Names that end in a backslash

The normal form of a path does without a backslash at its end, as if this were a slash. So two entries of
a scan are taken for one exactly if the name of the one is the name of the other with a backslash behind
it: a name that has a backslash at its end loses only this one. -/

namespace CodeAtlas.Scan

open CodeAtlas.Disk

/-- Whether a path is another one with a backslash behind it, which has none at its end. -/
def Marks (other path : String) : Prop := path = other ++ "\\" ∧ isMarked other = false

instance (other path : String) : Decidable (Marks other path) := inferInstanceAs (Decidable (_ ∧ _))

/-! ## A backslash behind a name -/

theorem isMarked_iff {name : String} :
    isMarked name = true ↔ ∃ front, name.toList = front ++ ['\\'] := by
  rw [isMarked, beq_iff_eq, List.getLast?_eq_some_iff]

theorem isMarked_append (name : String) : isMarked (name ++ "\\") = true :=
  isMarked_iff.mpr ⟨name.toList, by simp⟩

theorem dropMark_append {cs : List Char} (h : cs ≠ []) : Path.dropMark (cs ++ ['\\']) = cs := by
  have hlength := List.length_pos_iff.mpr h
  simp [Path.dropMark, List.getLast?_append, hlength]

theorem isName_append {name : String} (h : isName name = true) : isName (name ++ "\\") = true := by
  obtain ⟨⟨hne, _, hslash⟩, _, hnull⟩ := isName_iff.mp h
  have hlist : (name ++ "\\").toList = name.toList ++ ['\\'] := by simp
  -- neither one dot nor two end in a backslash
  have hdots {cs : List Char} (hc : '\\' ∉ cs) : name.toList ++ ['\\'] ≠ cs := by
    rintro rfl
    simp at hc
  rw [isName_iff, hlist]
  refine ⟨⟨by simp, hdots (by decide), ?_⟩, hdots (by decide), ?_⟩
  · simpa using hslash
  · simpa using hnull

theorem childPath_append (folder name : String) :
    childPath folder (name ++ "\\") = childPath folder name ++ "\\" := by
  unfold childPath
  split <;> simp only [String.append_assoc]

theorem pathTo_append_mark (folder : String) (names : List String) (name : String) :
    pathTo folder (names ++ [name ++ "\\"]) = pathTo folder (names ++ [name]) ++ "\\" := by
  rw [pathTo_append_singleton, pathTo_append_singleton, childPath_append]

theorem join_append_mark (ss : List Path.Segment) (s : Path.Segment) :
    Path.join (ss ++ [s ++ ['\\']]) = Path.join (ss ++ [s]) ++ ['\\'] := by
  cases ss with
  | nil => rfl
  | cons t ss =>
    have hne := List.cons_ne_nil t ss
    rw [Path.join_append_singleton hne, Path.join_append_singleton hne]
    simp

theorem toList_pathOf_append_mark (names : List String) (name : String) :
    (pathOf (names ++ [name ++ "\\"])).toList = (pathOf (names ++ [name])).toList ++ ['\\'] := by
  have hjoin := join_append_mark (names.map String.toList) name.toList
  simp [pathOf, hjoin]

theorem isMarked_pathTo (folder : String) (names : List String) {name : String}
    (h : isName name = true) : isMarked (pathTo folder (names ++ [name])) = isMarked name := by
  obtain ⟨c, hc⟩ : ∃ c, name.toList.getLast? = some c := by
    cases hl : name.toList.getLast? with
    | none => exact absurd (List.getLast?_eq_none_iff.mp hl) (isName_iff.mp h).1.1
    | some c => exact ⟨c, rfl⟩
  rw [pathTo_append_singleton, isMarked, isMarked]
  rcases childPath_cases (pathTo folder names) name with ⟨front, _, hp⟩ | hp
  all_goals rw [hp, List.getLast?_append, List.getLast?_cons, hc]; rfl

/-! ## Entries that are taken for one -/

section

variable {folder : String} {names names' : List String} {name name' : String}

/-- A name that ends in a backslash loses it in the normal form. -/
theorem normalize_pathTo_of_marked (hf : Path.IsRooted folder.toList)
    (h : ∀ n ∈ names ++ [name], isName n = true) (hm : isMarked name = true) :
    (pathOf (baseOf folder ++ (names ++ [name]))).toList =
      (Path.normalize (pathTo folder (names ++ [name]))).toList ++ ['\\'] := by
  have hname := (isName_iff.mp (h name (by simp))).1
  have hlast : (pathOf (baseOf folder ++ (names ++ [name]))).toList.getLast? = some '\\' := by
    rw [← List.append_assoc, getLast?_pathOf _ hname]
    exact beq_iff_eq.mp hm
  obtain ⟨front, hfront⟩ := List.getLast?_eq_some_iff.mp hlast
  have hne : front ≠ [] := by
    rintro rfl
    have hrooted := congrArg List.head? hfront
    simp [pathOf] at hrooted
  rw [normalize_pathTo_eq hf h, hfront, dropMark_append hne, String.toList_ofList]

theorem normalize_eq_of_marks (hf : Path.IsRooted folder.toList)
    (h : ∀ n ∈ names ++ [name], isName n = true) (h' : ∀ n ∈ names', isName n = true)
    (hm : Marks (pathTo folder (names ++ [name])) (pathTo folder names')) :
    Path.normalize (pathTo folder (names ++ [name])) = Path.normalize (pathTo folder names') := by
  obtain ⟨hpath, hunmarked⟩ := hm
  have hname : isName name = true := h name (by simp)
  rw [isMarked_pathTo folder names hname] at hunmarked
  have hlonger : ∀ n ∈ names ++ [name ++ "\\"], isName n = true :=
    List.forall_mem_append.mpr ⟨fun n hn => h n (List.mem_append_left _ hn),
      List.forall_mem_singleton.mpr (isName_append hname)⟩
  rw [← pathTo_append_mark] at hpath
  have hmarked := normalize_pathTo_of_marked hf hlonger (isMarked_append name)
  rw [← List.append_assoc, toList_pathOf_append_mark, List.append_assoc] at hmarked
  rw [pathTo_injective h' hlonger hpath, normalize_pathTo hf h hunmarked, ← String.toList_inj]
  exact List.append_cancel_right hmarked

/-- A name with a backslash at its end has the normal form of a name without one only if it is that name
and the backslash. -/
theorem marks_of_normalize_eq (hf : Path.IsRooted folder.toList)
    (h : ∀ n ∈ names ++ [name], isName n = true) (h' : ∀ n ∈ names' ++ [name'], isName n = true)
    (hm : isMarked name = false) (hm' : isMarked name' = true)
    (he : Path.normalize (pathTo folder (names ++ [name])) =
      Path.normalize (pathTo folder (names' ++ [name']))) :
    Marks (pathTo folder (names ++ [name])) (pathTo folder (names' ++ [name'])) := by
  have hname : isName name = true := h name (by simp)
  have hlonger : ∀ n ∈ names ++ [name ++ "\\"], isName n = true :=
    List.forall_mem_append.mpr ⟨fun n hn => h n (List.mem_append_left _ hn),
      List.forall_mem_singleton.mpr (isName_append hname)⟩
  have hpath : pathOf (baseOf folder ++ (names' ++ [name'])) =
      pathOf (baseOf folder ++ (names ++ [name ++ "\\"])) := by
    rw [← String.toList_inj, normalize_pathTo_of_marked hf h' hm', ← he, normalize_pathTo hf h hm,
      ← List.append_assoc, ← List.append_assoc, toList_pathOf_append_mark]
  have hsame : names' ++ [name'] = names ++ [name ++ "\\"] :=
    List.append_cancel_left (pathOf_injective
      ((arePlain_baseOf folder).append (arePlain_of_isName h'))
      ((arePlain_baseOf folder).append (arePlain_of_isName hlonger)) hpath)
  exact ⟨by rw [hsame, pathTo_append_mark], by rw [isMarked_pathTo folder names hname, hm]⟩

/-- Two paths of a scan have one normal form only if they are the same, or one is the other with a
backslash behind it. -/
theorem normalize_eq_iff (hf : Path.IsRooted folder.toList)
    (h : ∀ n ∈ names ++ [name], isName n = true) (h' : ∀ n ∈ names' ++ [name'], isName n = true) :
    Path.normalize (pathTo folder (names ++ [name])) =
        Path.normalize (pathTo folder (names' ++ [name'])) ↔
      names ++ [name] = names' ++ [name'] ∨
        Marks (pathTo folder (names ++ [name])) (pathTo folder (names' ++ [name'])) ∨
        Marks (pathTo folder (names' ++ [name'])) (pathTo folder (names ++ [name])) := by
  have hinj := pathOf_injective ((arePlain_baseOf folder).append (arePlain_of_isName h))
    ((arePlain_baseOf folder).append (arePlain_of_isName h'))
  constructor
  · intro he
    cases hm : isMarked name with
    | false =>
      cases hm' : isMarked name' with
      | false =>
        rw [normalize_pathTo hf h hm, normalize_pathTo hf h' hm'] at he
        exact Or.inl (List.append_cancel_left (hinj he))
      | true => exact Or.inr (Or.inl (marks_of_normalize_eq hf h h' hm hm' he))
    | true =>
      cases hm' : isMarked name' with
      | false => exact Or.inr (Or.inr (marks_of_normalize_eq hf h' h hm' hm he.symm))
      | true =>
        refine Or.inl (List.append_cancel_left (hinj (String.toList_inj.mp ?_)))
        rw [normalize_pathTo_of_marked hf h hm, normalize_pathTo_of_marked hf h' hm', he]
  · rintro (hsame | hmarks | hmarks)
    · rw [hsame]
    · exact normalize_eq_of_marks hf h h' hmarks
    · exact (normalize_eq_of_marks hf h' h hmarks).symm

end

variable {s : Scanner} {d : Disk} {o : ScanOptions} {root : String} {found : List Metadata}

theorem nodup_paths_of_scan (hl : d.Legal) (h : s.scan d o root = .ok found) :
    (found.map (·.path)).Nodup := by
  obtain ⟨path, hr, rfl, _⟩ := exists_of_scan h
  exact (lists_all (w := s.walk d o path) hl (Disk.isRooted_resolve hr)).once

/-- Two entries of a scan are taken for one exactly if the path of one is that of the other with a
backslash behind it. -/
theorem key_eq_iff_of_scan (hl : d.Legal) (h : s.scan d o root = .ok found) {m m' : Metadata}
    (hm : m ∈ found) (hm' : m' ∈ found) :
    m.key = m'.key ↔ m = m' ∨ Marks m.path m'.path ∨ Marks m'.path m.path := by
  have hpaths := nodup_paths_of_scan hl h
  have hsame : m = m' ↔ m.path = m'.path := ⟨congrArg _, eq_of_key_eq hpaths hm hm'⟩
  obtain ⟨path, hr, rfl, _⟩ := exists_of_scan h
  obtain ⟨v, hv, rfl⟩ := List.mem_map.mp hm
  obtain ⟨v', hv', rfl⟩ := List.mem_map.mp hm'
  have hnames := Walk.isName_of_mem_all (w := s.walk d o path) hl hv
  have hnames' := Walk.isName_of_mem_all (w := s.walk d o path) hl hv'
  rw [hsame]
  simp only [Metadata.key, Walk.report_path]
  rw [show pathTo (s.walk d o path).root v.names = pathTo (s.walk d o path).root v'.names ↔
    v.names = v'.names from ⟨pathTo_injective hnames hnames', congrArg _⟩]
  exact normalize_eq_iff (Disk.isRooted_resolve hr) hnames hnames'

/-- The entries of a scan are told apart unless the path of one is that of another with a backslash
behind it. -/
theorem nodup_keys_iff_of_scan (hl : d.Legal) (h : s.scan d o root = .ok found) :
    (found.map Metadata.key).Nodup ↔ ∀ m ∈ found, ∀ m' ∈ found, ¬ Marks m.path m'.path := by
  constructor
  · intro hkeys m hm m' hm' hmarks
    obtain rfl := eq_of_key_eq hkeys hm hm' ((key_eq_iff_of_scan hl h hm hm').mpr (Or.inr (Or.inl hmarks)))
    have hlength := congrArg (·.toList.length) hmarks.1
    simp at hlength
  · intro hno
    refine List.pairwise_map.mpr ((List.pairwise_map.mp (nodup_paths_of_scan hl h)).imp_of_mem ?_)
    intro m m' hm hm' hne he
    rcases (key_eq_iff_of_scan hl h hm hm').mp he with rfl | hmarks | hmarks
    · exact hne rfl
    · exact hno m hm m' hm' hmarks
    · exact hno m' hm' m hm hmarks

end CodeAtlas.Scan
