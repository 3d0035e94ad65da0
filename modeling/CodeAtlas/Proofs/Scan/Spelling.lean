import CodeAtlas.Proofs.Disk.Follow
import CodeAtlas.Scan.Scanner

/-! # How a scan spells paths

The path of an entry is that of the folder where the scan begins with the names behind it that lead
to the entry. Its normal form has the settled names of that folder and then the same names, so two
entries of a scan have one normal form only if they are the same entry; and a scan that begins at a
path in normal form spells every path in normal form. -/

namespace CodeAtlas.Scan

open CodeAtlas.Disk

/-- The path of what the names lead to from a folder. -/
def pathTo (folder : String) (names : List String) : String := names.foldl childPath folder

theorem pathTo_append_singleton (folder : String) (names : List String) (name : String) :
    pathTo folder (names ++ [name]) = childPath (pathTo folder names) name := by
  simp [pathTo]

theorem childPath_cases (folder name : String) :
    (∃ front, folder.toList = front ++ ['/'] ∧
      (childPath folder name).toList = front ++ '/' :: name.toList) ∨
    (childPath folder name).toList = folder.toList ++ '/' :: name.toList := by
  unfold childPath
  split
  · next h =>
    obtain ⟨front, hf⟩ := List.getLast?_eq_some_iff.mp (by simpa using h)
    exact Or.inl ⟨front, hf, by simp [hf]⟩
  · exact Or.inr (by simp)

theorem segments_childPath (folder : String) {name : String} (h : Path.IsPart name.toList) :
    Path.segments (childPath folder name).toList = Path.segments folder.toList ++ [name.toList] := by
  have hs := Path.segments_of_isPart h
  rcases childPath_cases folder name with ⟨front, hf, hc⟩ | hc
  · rw [hc, hf, Path.segments_append_slash, Path.segments_append_slash_nil, hs]
  · rw [hc, Path.segments_append_slash, hs]

theorem segments_pathTo (folder : String) {names : List String} (h : ∀ n ∈ names, Path.IsPart n.toList) :
    Path.segments (pathTo folder names).toList =
      Path.segments folder.toList ++ names.map String.toList := by
  induction names generalizing folder with
  | nil => simp [pathTo]
  | cons name names ih =>
    obtain ⟨hname, hnames⟩ := List.forall_mem_cons.mp h
    have hrest := ih (childPath folder name) hnames
    rw [segments_childPath folder hname] at hrest
    simpa [pathTo] using hrest

theorem namesOf_pathTo (folder : String) {names : List String}
    (h : ∀ n ∈ names, isName n = true) : namesOf (pathTo folder names) = namesOf folder ++ names := by
  have hparts : ∀ n ∈ names, Path.IsPart n.toList := fun n hn => (isName_iff.mp (h n hn)).1
  simp [namesOf, segments_pathTo folder hparts, Function.comp_def]

theorem isRooted_childPath {folder : String} (hf : Path.IsRooted folder.toList) {name : String}
    (h : isName name = true) : Path.IsRooted (childPath folder name).toList := by
  obtain ⟨rest, hr, hd⟩ := hf
  obtain ⟨⟨hne, _, hs⟩, _⟩ := isName_iff.mp h
  obtain ⟨c, cs, hn⟩ := List.exists_cons_of_ne_nil hne
  have hc : c ≠ '/' := fun hc => hs (by rw [hn, hc]; exact List.mem_cons_self)
  rcases childPath_cases folder name with ⟨front, hf, hp⟩ | hp
  · rw [hr] at hf
    cases front with
    | nil => exact ⟨name.toList, by simpa using hp, by simpa [hn] using hc⟩
    | cons f front =>
      obtain ⟨rfl, hrest⟩ : f = '/' ∧ rest = front ++ ['/'] := by simpa [eq_comm] using hf
      refine ⟨front ++ '/' :: name.toList, by simpa using hp, ?_⟩
      rw [hrest] at hd
      cases front with
      | nil => simp at hd
      | cons d front => simpa using hd
  · rw [hr] at hp
    cases rest with
    | nil =>
      -- the folder is the root, whose path ends in a slash
      have hroot : folder = "/" := by
        rw [← String.toList_inj, hr]
        decide +kernel
      refine ⟨name.toList, ?_, by simpa [hn] using hc⟩
      simp [childPath, hroot]
    | cons d rest => exact ⟨d :: rest ++ '/' :: name.toList, by simpa using hp, by simpa using hd⟩

theorem isRooted_pathTo {folder : String} (hf : Path.IsRooted folder.toList) {names : List String}
    (h : ∀ n ∈ names, isName n = true) : Path.IsRooted (pathTo folder names).toList := by
  induction names generalizing folder with
  | nil => exact hf
  | cons name names ih =>
    exact ih (isRooted_childPath hf (h name List.mem_cons_self))
      fun n hn => h n (List.mem_cons_of_mem name hn)

theorem not_mem_pathTo {folder : String} (hf : '\x00' ∉ folder.toList) {names : List String}
    (h : ∀ n ∈ names, isName n = true) : '\x00' ∉ (pathTo folder names).toList := by
  induction names generalizing folder with
  | nil => exact hf
  | cons name names ih =>
    refine ih ?_ fun n hn => h n (List.mem_cons_of_mem name hn)
    have hz := (isName_iff.mp (h name List.mem_cons_self)).2.2
    rcases childPath_cases folder name with ⟨front, hfront, hp⟩ | hp
    · rw [hfront] at hf
      rw [hp]
      simp_all
    · rw [hp]
      simp_all

/-! ## Normal forms -/

/-- The names of a folder with nothing left to resolve. -/
def baseOf (folder : String) : List String := settled (namesOf folder)

theorem arePlain_baseOf (folder : String) : ArePlain (baseOf folder) :=
  arePlain_settled fun _ h => isPart_of_mem_namesOf h

theorem toList_baseOf (folder : String) :
    (baseOf folder).map String.toList = Path.resolve true (Path.segments folder.toList) := by
  simp [baseOf, settled, namesOf, Function.comp_def]

theorem baseOf_pathTo (folder : String) {names : List String} (h : ArePlain names) :
    baseOf (pathTo folder names) = baseOf folder ++ names := by
  have hnames : namesOf (pathTo folder names) = namesOf folder ++ names := by
    simp [namesOf, segments_pathTo folder fun n hn => (h n hn).1, Function.comp_def]
  rw [baseOf, hnames, settled_append _ h, baseOf]

theorem collapse_eq {folder : String} (hf : Path.IsRooted folder.toList) :
    Path.collapse folder.toList = (pathOf (baseOf folder)).toList := by
  simp [hf.collapse, pathOf, baseOf, settled, namesOf, Function.comp_def]

theorem getLast?_pathOf (names : List String) {name : String} (h : Path.IsPart name.toList) :
    (pathOf (names ++ [name])).toList.getLast? = name.toList.getLast? := by
  have hne := h.1
  obtain ⟨c, hc⟩ : ∃ c, name.toList.getLast? = some c := by
    cases hl : name.toList.getLast? with
    | none => exact absurd (List.getLast?_eq_none_iff.mp hl) hne
    | some c => exact ⟨c, rfl⟩
  simp [pathOf, List.getLast?_cons, Path.getLast?_join hne, hc]

/-- A path loses nothing at its end unless its last name ends in a backslash. -/
theorem dropMark_pathOf (names : List String) {name : String} (h : Path.IsPart name.toList)
    (hm : isMarked name = false) :
    Path.dropMark (pathOf (names ++ [name])).toList = (pathOf (names ++ [name])).toList := by
  obtain ⟨c, hc⟩ : ∃ c, name.toList.getLast? = some c := by
    cases hl : name.toList.getLast? with
    | none => exact absurd (List.getLast?_eq_none_iff.mp hl) h.1
    | some c => exact ⟨c, rfl⟩
  have hslash : c ≠ '/' := by
    rintro rfl
    exact h.2.2 (List.mem_of_getLast? hc)
  have hback : c ≠ '\\' := by
    rintro rfl
    simp [isMarked, hc] at hm
  refine Path.dropMark_of_getLast? (c := c) ?_ hslash hback
  rw [getLast?_pathOf _ h, hc]

/-- The normal form of a path that a scan spells is its settled form without a mark at its end. -/
theorem normalize_pathTo_eq {folder : String} (hf : Path.IsRooted folder.toList)
    {names : List String} (h : ∀ n ∈ names, isName n = true) :
    Path.normalize (pathTo folder names) =
      String.ofList (Path.dropMark (pathOf (baseOf folder ++ names)).toList) := by
  rw [Path.normalize, Path.normalizeChars, collapse_eq (isRooted_pathTo hf h),
    baseOf_pathTo folder (arePlain_of_isName h)]

theorem normalize_pathTo {folder : String} (hf : Path.IsRooted folder.toList) {names : List String}
    {name : String} (h : ∀ n ∈ names ++ [name], isName n = true) (hm : isMarked name = false) :
    Path.normalize (pathTo folder (names ++ [name])) =
      pathOf (baseOf folder ++ (names ++ [name])) := by
  have hname : isName name = true := h name (List.mem_append_right names List.mem_cons_self)
  rw [normalize_pathTo_eq hf h, ← List.append_assoc, dropMark_pathOf _ (isName_iff.mp hname).1 hm,
    String.ofList_toList]

/-- The names behind a folder, as the path of an unmarked entry has them. -/
def Below (names : List String) : Prop :=
  (∀ n ∈ names, isName n = true) ∧ ∃ front name, names = front ++ [name] ∧ isMarked name = false

theorem normalize_of_below {folder : String} (hf : Path.IsRooted folder.toList)
    {names : List String} (h : Below names) :
    Path.normalize (pathTo folder names) = pathOf (baseOf folder ++ names) := by
  obtain ⟨hn, front, name, rfl, hm⟩ := h
  exact normalize_pathTo hf hn hm

/-- No two entries of one scan are taken for one. -/
theorem eq_of_normalize_eq {folder : String} (hf : Path.IsRooted folder.toList)
    {a b : List String} (ha : Below a) (hb : Below b)
    (h : Path.normalize (pathTo folder a) = Path.normalize (pathTo folder b)) : a = b := by
  rw [normalize_of_below hf ha, normalize_of_below hf hb] at h
  exact List.append_cancel_left (pathOf_injective
    ((arePlain_baseOf folder).append (arePlain_of_isName ha.1))
    ((arePlain_baseOf folder).append (arePlain_of_isName hb.1)) h)

theorem childPath_pathOf {names : List String} (h : ArePlain names) {name : String} :
    childPath (pathOf names) name = pathOf (names ++ [name]) := by
  rcases List.eq_nil_or_concat names with rfl | ⟨front, last, rfl⟩
  · rw [← String.toList_inj]
    simp [childPath, pathOf, Path.join]
  · have hlast := h last (by simp)
    have hend : (pathOf (front ++ [last])).toList.getLast? ≠ some '/' := by
      have hg : (pathOf (front ++ [last])).toList.getLast? = some '/' →
          last.toList.getLast? = some '/' := by
        cases hl : last.toList.getLast? with
        | none => exact absurd (List.getLast?_eq_none_iff.mp hl) hlast.1.1
        | some c => simp [pathOf, List.getLast?_cons, Path.getLast?_join hlast.1.1, hl]
      exact fun he => hlast.1.2.2 (List.mem_of_getLast? (hg he))
    have hne : front.map String.toList ++ [last.toList] ≠ [] := by simp
    have hj := Path.join_append_singleton hne name.toList
    rw [← String.toList_inj]
    simp only [List.concat_eq_append] at hend ⊢
    simp only [childPath, beq_iff_eq, hend, if_false]
    simpa [pathOf] using hj.symm

/-- Below a folder in normal form all paths are spelled in normal form. -/
theorem pathTo_of_normal {folder : String} (hf : Path.IsRooted folder.toList)
    (hn : Path.normalize folder = folder) {names : List String}
    (h : ∀ n ∈ names, isName n = true) :
    pathTo folder names = pathOf (baseOf folder ++ names) := by
  have hchars : Path.normalizeChars folder.toList = folder.toList := by
    have := congrArg String.toList hn
    simpa [Path.normalize] using this
  have hfolder : folder = pathOf (baseOf folder) := by
    rw [← String.toList_inj, ← collapse_eq hf, hf.collapse_of_normal hchars]
  have hstep : ∀ (names base : List String), ArePlain base → (∀ n ∈ names, isName n = true) →
      pathTo (pathOf base) names = pathOf (base ++ names) := by
    intro names
    induction names with
    | nil => intro base _ _; simp [pathTo]
    | cons name names ih =>
      intro base hb hnames
      have hname : ArePlain [name] := arePlain_of_isName fun n hm =>
        hnames n (List.mem_singleton.mp hm ▸ List.mem_cons_self)
      have hrest := ih (base ++ [name]) (hb.append hname)
        fun n hm => hnames n (List.mem_cons_of_mem name hm)
      rw [← childPath_pathOf hb] at hrest
      simpa [pathTo] using hrest
  conv => lhs; rw [hfolder]
  exact hstep names (baseOf folder) (arePlain_baseOf folder) h

/-- A root at which there is something is resolved to a path in normal form. -/
theorem normal_of_target? {d : Disk} (hl : d.Legal) (hu : d.Unmarked) {root path : String} {e : Entry}
    (ht : d.target? root = some e) (hr : d.resolve root = .ok path) :
    Path.normalize path = path := by
  obtain ⟨names, _, hn, hf⟩ := Disk.exists_of_target? ht
  have hpath : path = String.ofList (Path.dropMark (pathOf names).toList) := by
    rw [Disk.resolve, hn] at hr
    exact (Except.ok.inj hr).symm
  rcases List.eq_nil_or_concat names with rfl | ⟨front, name, rfl⟩
  · rw [hpath]
    decide +kernel
  · rw [List.concat_eq_append] at hf hpath
    have hnames := Entry.isName_of_find? hl hf
    have hmark := Entry.isMarked_of_find? hu hf
    have hroot : Path.IsRooted "/".toList := ⟨[], by decide +kernel, by decide +kernel⟩
    have hbase : baseOf "/" = [] := by decide +kernel
    have hslash : pathTo "/" (front ++ [name]) = pathOf (front ++ [name]) := by
      rw [pathTo_of_normal hroot (by decide +kernel) hnames, hbase, List.nil_append]
    have hpart := (isName_iff.mp (hnames name (by simp))).1
    rw [hpath, dropMark_pathOf front hpart hmark, String.ofList_toList, ← hslash,
      normalize_pathTo hroot hnames hmark, hbase, List.nil_append, hslash]

end CodeAtlas.Scan
