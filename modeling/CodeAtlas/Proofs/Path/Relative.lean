import CodeAtlas.Path.Pattern
import CodeAtlas.Proofs.Path.Cancelling

/-! # The way from a root to a path

The way goes up once for each part of the root that the path does not have in common with it, and then down by the
parts of the path that are left. To go up cancels the parts of the root one by one from its end, so the root with the
way behind it settles to the path. A way that does not go up at all is what the path has behind the root. -/

namespace CodeAtlas.Path

open Relation (ReflTransGen)

variable {rooted : Bool} {names : List Segment}

/-! ## Between resolved parts -/

section

variable {root path : List Segment}

theorem dropCommon_spec (ss ts : List Segment) :
    ∃ common, ss = common ++ (dropCommon ss ts).1 ∧ ts = common ++ (dropCommon ss ts).2 := by
  fun_induction dropCommon ss ts with
  | case1 ss s ts ih =>
    obtain ⟨common, hs, ht⟩ := ih
    exact ⟨s :: common, congrArg (s :: ·) hs, congrArg (s :: ·) ht⟩
  | case2 => exact ⟨[], rfl, rfl⟩
  | case3 => exact ⟨[], rfl, rfl⟩

/-- What the way goes up by is behind the common part of the root, and what it goes down by is behind that of the
path. -/
theorem exists_way (root path : List Segment) : ∃ common gone names, root = common ++ gone ∧ path = common ++ names ∧
    way root path = List.replicate gone.length up ++ names := by
  obtain ⟨common, hroot, hpath⟩ := dropCommon_spec root path
  exact ⟨common, _, _, hroot, hpath, by rw [way, List.map_const']⟩

/-- From a list of parts to one that goes on behind it the way is what it goes on with. -/
theorem way_append (ss ts : List Segment) : way ss (ss ++ ts) = ts := by
  have h : dropCommon ss (ss ++ ts) = ([], ts) := by
    induction ss with
    | nil => cases ts <;> rfl
    | cons s ss ih => simp [dropCommon, ih]
  simp [way, h]

theorem way_eq_iff (hnames : ∀ s ∈ names, s ≠ up) : way root path = names ↔ path = root ++ names := by
  constructor
  · intro h
    obtain ⟨common, gone, rest, hroot, hpath, hway⟩ := exists_way root path
    rw [h] at hway
    have hgone : gone = [] := by
      refine List.eq_nil_iff_forall_not_mem.mpr fun s hs => ?_
      have hup : up ∈ names := by
        rw [hway]
        exact List.mem_append_left rest (List.mem_replicate.mpr ⟨Nat.ne_of_gt (List.length_pos_of_mem hs), rfl⟩)
      exact hnames up hup rfl
    subst hgone
    rw [hroot, hpath, hway]
    simp
  · rintro rfl
    exact way_append root names

/-- Double dots cancel as many names before them as there are double dots. -/
theorem cancels_back (common : List Segment) {gone : List Segment} (names : List Segment) (h : ∀ s ∈ gone, s ≠ up) :
    ReflTransGen (Cancels rooted) (common ++ gone ++ (List.replicate gone.length up ++ names)) (common ++ names) := by
  induction gone generalizing common names with
  | nil => simpa using ReflTransGen.refl
  | cons s gone ih =>
    obtain ⟨hs, hgone⟩ := List.forall_mem_cons.mp h
    -- the first name that is gone meets the last of the double dots
    have hinner := ih (common ++ [s]) (up :: names) hgone
    have hlast : ReflTransGen (Cancels rooted) (common ++ [s] ++ up :: names) (common ++ names) := by
      simpa using ReflTransGen.single (Cancels.pair common names hs)
    simpa [List.replicate_succ'] using hinner.trans hlast

theorem resolve_of_ne_up (h : ∀ s ∈ path, s ≠ up) : resolve rooted path = path :=
  resolve_append rooted [] h

theorem resolve_way (hroot : ∀ s ∈ root, s ≠ up) (hpath : ∀ s ∈ path, s ≠ up) :
    resolve rooted (root ++ way root path) = path := by
  obtain ⟨common, gone, names, rfl, rfl, hway⟩ := exists_way root path
  have hgone : ∀ s ∈ gone, s ≠ up := fun s hs => hroot s (List.mem_append_right common hs)
  rw [hway, resolve_eq_of_cancels (cancels_back common names hgone), resolve_of_ne_up hpath]

theorem resolve_resolve_append (rooted : Bool) (ss ts : List Segment) :
    resolve rooted (resolve rooted ss ++ ts) = resolve rooted (ss ++ ts) := by
  have h : (resolve rooted ss).foldl (enter rooted) [] = ss.foldl (enter rooted) [] :=
    List.reverse_inj.mp (resolve_resolve rooted ss)
  rw [resolve, List.foldl_append, h, resolve, List.foldl_append]

end

/-! ## Between paths -/

section

variable {path root : String} {patterns : List String}

theorem relative_eq (h : isAbsolute path.toList = true) (root : String) :
    relative path root = way (resolve true (segments root.toList)) (resolve true (segments path.toList)) := by
  have hnonempty : path.isEmpty = false := by
    refine Bool.eq_false_iff.mpr fun he => ?_
    rw [String.isEmpty_iff.mp he] at h
    cases h
  rw [relative, hnonempty, if_neg Bool.false_ne_true]

/-- The way goes up first, then down by names. -/
theorem exists_relative (h : isAbsolute path.toList = true) (root : String) :
    ∃ n names, relative path root = List.replicate n up ++ names ∧ ∀ s ∈ names, IsPart s ∧ s ≠ up := by
  rw [relative_eq h]
  obtain ⟨common, gone, names, -, hpath, hway⟩ := exists_way (resolve true (segments root.toList))
    (resolve true (segments path.toList))
  refine ⟨gone.length, names, hway, fun s hs => ?_⟩
  obtain ⟨hs, hup⟩ := mem_resolve (hpath ▸ List.mem_append_right common hs)
  exact ⟨isPart_of_mem_segments hs, hup⟩

theorem isPart_of_mem_relative (hpath : isAbsolute path.toList = true) {s : Segment} (h : s ∈ relative path root) :
    IsPart s := by
  obtain ⟨n, names, hway, hnames⟩ := exists_relative hpath root
  rw [hway] at h
  rcases List.mem_append.mp h with h | h
  · rw [List.eq_of_mem_replicate h]
    exact ⟨by decide, by decide, by decide⟩
  · exact (hnames s h).1

/-- Written as one text and split again, the way stays what it is. -/
theorem segments_join_relative (h : isAbsolute path.toList = true) (root : String) :
    segments (join (relative path root)) = relative path root :=
  segments_join fun _ => isPart_of_mem_relative h

/-- The root with the way behind it is resolved to what the path is resolved to. -/
theorem resolve_relative (h : isAbsolute path.toList = true) (root : String) :
    resolve true (segments root.toList ++ relative path root) = resolve true (segments path.toList) := by
  have hplain : ∀ ss : List Segment, ∀ s ∈ resolve true ss, s ≠ up := fun _ _ hs => (mem_resolve hs).2
  rw [relative_eq h, ← resolve_resolve_append, resolve_way (hplain _) (hplain _)]

theorem relative_eq_iff (h : isAbsolute path.toList = true) (hnames : ∀ s ∈ names, s ≠ up) :
    relative path root = names ↔
      resolve true (segments path.toList) = resolve true (segments root.toList) ++ names := by
  rw [relative_eq h, way_eq_iff hnames]

/-! ## Patterns -/

theorem occursIn_iff {pattern cs : List Char} : occursIn pattern cs = true ↔ pattern <:+: cs := by
  induction cs with
  | nil => simp [occursIn]
  | cons c cs ih =>
    rw [occursIn, Bool.or_eq_true, ih, List.isPrefixOf_iff_prefix, List.infix_cons_iff]

theorem excluded_iff :
    excluded path root patterns = true ↔ ∃ s ∈ relative path root, ∃ p ∈ patterns, p.toList <:+: s := by
  simp [excluded, matchesAny, occursIn_iff]

end

end CodeAtlas.Path
