import CodeAtlas.Proofs.Path.Cancelling

/-! # Canonical paths

The normal form of a path is the only canonical spelling of what the path settles to, as long as no backslash is
dropped from its end. So two paths have one normal form exactly if their parts settle to the same parts. Only two
slashes at the start of an absolute path make a difference that its parts do not show. -/

namespace CodeAtlas.Path

variable {path path' : String} {cs : List Char} {ss : List Segment} {slashes : Nat}

/-- Parts behind some slashes. -/
def spell (slashes : Nat) (ss : List Segment) : List Char := List.replicate slashes '/' ++ join ss

/-- The canonical spellings: a dot, the root, names behind double dots, or names behind one or two slashes. -/
inductive IsCanonical : List Char → Prop
  | here : IsCanonical here
  | root : IsCanonical ['/']
  | relative (n : Nat) (names : List Segment) : (∀ s ∈ names, IsPart s ∧ s ≠ up) → List.replicate n up ++ names ≠ [] →
      IsCanonical (join (List.replicate n up ++ names))
  | absolute (slashes : Nat) (names : List Segment) : slashes = 1 ∨ slashes = 2 → (∀ s ∈ names, IsPart s ∧ s ≠ up) →
      names ≠ [] → IsCanonical (spell slashes names)

/-- Whether a path begins with exactly two slashes. -/
def BeginsWithTwo (cs : List Char) : Prop := ∃ rest, cs = '/' :: '/' :: rest ∧ rest.head? ≠ some '/'

/-- Whether the parts of a path can be resolved without a backslash at the end of the path. -/
def EndsUnmarked (path : String) : Prop := (collapse path.toList).getLast? ≠ some '\\'

instance (path : String) : Decidable (EndsUnmarked path) := inferInstanceAs (Decidable (_ ≠ _))

/-! ## Slashes at the start -/

theorem takeWhile_of_head? {rest : List Char} (h : rest.head? ≠ some '/') : rest.takeWhile (· == '/') = [] := by
  cases rest with
  | nil => rfl
  | cons c rest =>
    have hc : c ≠ '/' := by simpa using h
    simp [hc]

/-- A relative path begins with no slash and counts as one without any; an absolute one counts as one with one slash,
unless it begins with exactly two. -/
theorem leadingSlashes_cases (cs : List Char) :
    leadingSlashes cs = 0 ∧ isAbsolute cs = false ∨
      isAbsolute cs = true ∧ (leadingSlashes cs = 1 ∨ leadingSlashes cs = 2 ∧ BeginsWithTwo cs) := by
  by_cases hcs : cs.head? = some '/'
  · obtain ⟨rest, rfl⟩ := List.head?_eq_some_iff.mp hcs
    refine .inr ⟨rfl, ?_⟩
    by_cases hrest : rest.head? = some '/'
    · obtain ⟨more, rfl⟩ := List.head?_eq_some_iff.mp hrest
      by_cases hmore : more.head? = some '/'
      · obtain ⟨_, rfl⟩ := List.head?_eq_some_iff.mp hmore
        exact .inl (by simp [leadingSlashes])
      · refine .inr ⟨?_, more, rfl, hmore⟩
        simp [leadingSlashes, takeWhile_of_head? hmore]
    · exact .inl (IsRooted.leadingSlashes ⟨rest, rfl, hrest⟩)
  · refine .inl ⟨?_, by simpa [isAbsolute] using hcs⟩
    rw [leadingSlashes, takeWhile_of_head? hcs]

theorem leadingSlashes_eq (h : ¬ BeginsWithTwo cs) : leadingSlashes cs = if isAbsolute cs = true then 1 else 0 := by
  rcases leadingSlashes_cases cs with ⟨hn, ha⟩ | ⟨ha, hn | ⟨_, htwo⟩⟩
  · rw [hn, ha]
    rfl
  · rw [hn, ha]
    rfl
  · exact absurd htwo h

theorem leadingSlashes_bne (cs : List Char) : (leadingSlashes cs != 0) = isAbsolute cs := by
  rcases leadingSlashes_cases cs with ⟨hn, ha⟩ | ⟨ha, hn | ⟨hn, _⟩⟩ <;> rw [hn, ha] <;> rfl

theorem leadingSlashes_few (cs : List Char) :
    leadingSlashes cs = 0 ∨ leadingSlashes cs = 1 ∨ leadingSlashes cs = 2 := by
  rcases leadingSlashes_cases cs with ⟨hn, _⟩ | ⟨_, hn | ⟨hn, _⟩⟩ <;> omega

theorem head?_join (h : ∀ s ∈ ss, IsPart s) : (join ss).head? ≠ some '/' := by
  obtain ⟨rest, he, hrest⟩ := isRooted_join h
  rwa [List.cons_inj_right .. |>.mp he]

theorem leadingSlashes_spell (h : ∀ s ∈ ss, IsPart s) (hfew : slashes = 0 ∨ slashes = 1 ∨ slashes = 2) :
    leadingSlashes (spell slashes ss) = slashes := by
  have htake : (spell slashes ss).takeWhile (· == '/') = List.replicate slashes '/' := by
    rw [spell, List.takeWhile_append_of_pos (by simp), takeWhile_of_head? (head?_join h), List.append_nil]
  rw [leadingSlashes, htake]
  rcases hfew with rfl | rfl | rfl <;> rfl

theorem segments_spell (h : ∀ s ∈ ss, IsPart s) (slashes : Nat) : segments (spell slashes ss) = ss := by
  induction slashes with
  | zero => exact segments_join h
  | succ n ih => rw [spell, List.replicate_succ, List.cons_append, segments_cons_slash, ← spell, ih]

/-- The last character of a path of parts is no slash. -/
theorem exists_getLast?_spell (h : ∀ s ∈ ss, IsPart s) (hne : ss ≠ []) (slashes : Nat) :
    ∃ c, (spell slashes ss).getLast? = some c ∧ c ≠ '/' := by
  obtain ⟨front, s, rfl⟩ := (List.eq_nil_or_concat ss).resolve_left hne
  rw [List.concat_eq_append] at h ⊢
  obtain ⟨hs, _, hslash⟩ := h s (by simp)
  obtain ⟨c, hc⟩ := Option.ne_none_iff_exists'.mp (mt List.getLast?_eq_none_iff.mp hs)
  refine ⟨c, ?_, fun he => hslash (he ▸ List.mem_of_getLast? hc)⟩
  rw [spell, List.getLast?_append, getLast?_join hs, hc]
  rfl

theorem spell_ne_nil (h : ∀ s ∈ ss, IsPart s) (hne : ss ≠ []) (slashes : Nat) : spell slashes ss ≠ [] := by
  obtain ⟨c, hc, _⟩ := exists_getLast?_spell h hne slashes
  intro he
  rw [he] at hc
  cases hc

/-! ## The normal form -/

/-- The parts of a path once all is cancelled that can be. -/
def settledParts (cs : List Char) : List Segment := resolve (isAbsolute cs) (segments cs)

theorem isPart_of_mem_settledParts {s : Segment} (h : s ∈ settledParts cs) : IsPart s :=
  isPart_of_mem_segments ((resolve_sublist _ (segments cs)).subset h)

theorem collapse_eq (cs : List Char) :
    collapse cs = if spell (leadingSlashes cs) (settledParts cs) = [] then here
      else spell (leadingSlashes cs) (settledParts cs) := by
  simp only [collapse, leadingSlashes_bne, List.isEmpty_iff]
  rfl

theorem collapse_of_ne_nil (h : settledParts cs ≠ []) :
    collapse cs = spell (leadingSlashes cs) (settledParts cs) :=
  (collapse_eq cs).trans (if_neg (spell_ne_nil (fun _ => isPart_of_mem_settledParts) h _))

/-- The canonical spelling of parts that have settled. -/
def canonical (slashes : Nat) (ss : List Segment) : List Char :=
  if ss = [] then (if slashes = 0 then here else ['/']) else spell slashes ss

theorem normalizeChars_eq (h : (collapse cs).getLast? ≠ some '\\') :
    normalizeChars cs = canonical (leadingSlashes cs) (settledParts cs) := by
  unfold normalizeChars canonical
  by_cases hss : settledParts cs = []
  · rw [if_pos hss, collapse_eq, hss]
    rcases leadingSlashes_few cs with hn | hn | hn <;> rw [hn] <;> rfl
  · obtain ⟨c, hc, hslash⟩ :=
      exists_getLast?_spell (fun _ => isPart_of_mem_settledParts) hss (leadingSlashes cs)
    rw [collapse_of_ne_nil hss, hc] at h
    rw [if_neg hss, collapse_of_ne_nil hss]
    exact dropMark_of_getLast? hc hslash fun he => h (congrArg some he)

section

variable (hparts : ∀ s ∈ ss, IsPart s) (hfew : slashes = 0 ∨ slashes = 1 ∨ slashes = 2)

include hparts

theorem segments_canonical : segments (canonical slashes ss) = ss := by
  unfold canonical
  split
  · next hss => split <;> rw [hss] <;> rfl
  · exact segments_spell hparts slashes

include hfew

theorem leadingSlashes_canonical :
    leadingSlashes (canonical slashes ss) = if ss = [] then min slashes 1 else slashes := by
  unfold canonical
  split
  · rcases hfew with rfl | rfl | rfl <;> rfl
  · exact leadingSlashes_spell hparts hfew

theorem isAbsolute_canonical : isAbsolute (canonical slashes ss) = (slashes != 0) := by
  rw [← leadingSlashes_bne, leadingSlashes_canonical hparts hfew]
  split
  · rcases hfew with rfl | rfl | rfl <;> rfl
  · rfl

/-- A canonical spelling is left as it is. -/
theorem collapse_canonical (hsettled : resolve (slashes != 0) ss = ss) :
    collapse (canonical slashes ss) = canonical slashes ss := by
  have hsame : settledParts (canonical slashes ss) = ss := by
    rw [settledParts, segments_canonical hparts, isAbsolute_canonical hparts hfew, hsettled]
  rw [collapse_eq, hsame, leadingSlashes_canonical hparts hfew]
  unfold canonical
  split
  · next hss =>
    subst hss
    rcases hfew with rfl | rfl | rfl <;> rfl
  · next hss => exact if_neg (spell_ne_nil hparts hss slashes)

end

theorem isCanonical_canonical (hparts : ∀ s ∈ ss, IsPart s) (hfew : slashes = 0 ∨ slashes = 1 ∨ slashes = 2)
    (hclimb : IsClimb (slashes != 0) ss) : IsCanonical (canonical slashes ss) := by
  unfold canonical
  split
  · split
    · exact .here
    · exact .root
  · next hss =>
    obtain ⟨n, names, rfl, hnames, hn⟩ := hclimb
    have hplain : ∀ s ∈ names, IsPart s ∧ s ≠ up := fun s hs => ⟨hparts s (List.mem_append_right _ hs), hnames s hs⟩
    rcases hfew with rfl | hfew
    · exact .relative n names hplain hss
    · obtain rfl : n = 0 := hn (by rcases hfew with rfl | rfl <;> rfl)
      exact .absolute slashes names hfew hplain hss

theorem IsCanonical.eq_root (h : IsCanonical cs) (hlast : cs.getLast? = some '/') : cs = ['/'] := by
  have hparts {n : Nat} {names : List Segment} (hnames : ∀ s ∈ names, IsPart s ∧ s ≠ up) :
      ∀ s ∈ List.replicate n up ++ names, IsPart s := by
    refine List.forall_mem_append.mpr ⟨fun s hs => ?_, fun s hs => (hnames s hs).1⟩
    rw [List.eq_of_mem_replicate hs]
    exact ⟨by decide, by decide, by decide⟩
  cases h with
  | here => cases hlast
  | root => rfl
  | relative n names hnames hne =>
    obtain ⟨c, hc, hslash⟩ := exists_getLast?_spell (hparts hnames) hne 0
    exact absurd (Option.some.inj (hc.symm.trans hlast)) hslash
  | absolute slashes names _ hnames hne =>
    obtain ⟨c, hc, hslash⟩ := exists_getLast?_spell (fun s hs => (hnames s hs).1) hne slashes
    exact absurd (Option.some.inj (hc.symm.trans hlast)) hslash

/-! ## Paths -/

theorem toList_normalize (h : EndsUnmarked path) : (normalize path).toList =
    canonical (leadingSlashes path.toList) (settledParts path.toList) := by
  rw [normalize, String.toList_ofList, normalizeChars_eq h]

theorem settledParts_eq (cs : List Char) :
    resolve (leadingSlashes cs != 0) (settledParts cs) = settledParts cs := by
  rw [leadingSlashes_bne, settledParts, resolve_resolve]

theorem segments_normalize (h : EndsUnmarked path) : segments (normalize path).toList = settledParts path.toList := by
  rw [toList_normalize h, segments_canonical fun _ => isPart_of_mem_settledParts]

theorem isAbsolute_normalize (h : EndsUnmarked path) :
    isAbsolute (normalize path).toList = isAbsolute path.toList := by
  rw [toList_normalize h, isAbsolute_canonical (fun _ => isPart_of_mem_settledParts) (leadingSlashes_few _),
    leadingSlashes_bne]

theorem collapse_normalize (h : EndsUnmarked path) :
    collapse (normalize path).toList = (normalize path).toList := by
  rw [toList_normalize h]
  exact collapse_canonical (fun _ => isPart_of_mem_settledParts) (leadingSlashes_few _) (settledParts_eq _)

theorem isCanonical_normalize (h : EndsUnmarked path) : IsCanonical (normalize path).toList := by
  rw [toList_normalize h]
  refine isCanonical_canonical (fun _ => isPart_of_mem_settledParts) (leadingSlashes_few _) ?_
  rw [leadingSlashes_bne]
  exact isClimb_resolve _ _

theorem endsUnmarked_normalize (h : EndsUnmarked path) : EndsUnmarked (normalize path) := by
  rw [EndsUnmarked, collapse_normalize h, toList_normalize h]
  unfold canonical
  split
  · split <;> decide
  · next hss =>
    rw [← collapse_of_ne_nil hss]
    exact h

theorem settledParts_normalize (h : EndsUnmarked path) :
    settledParts (normalize path).toList = settledParts path.toList := by
  rw [settledParts, isAbsolute_normalize h, segments_normalize h, settledParts, resolve_resolve]

theorem normalize_normalize (h : EndsUnmarked path) : normalize (normalize path) = normalize path := by
  rw [← String.toList_inj, toList_normalize (endsUnmarked_normalize h), settledParts_normalize h, toList_normalize h,
    leadingSlashes_canonical (fun _ => isPart_of_mem_settledParts) (leadingSlashes_few _)]
  unfold canonical
  split
  · rcases leadingSlashes_few path.toList with hn | hn | hn <;> rw [hn] <;> rfl
  · rfl

/-- A relative path of which nothing is left is a dot. -/
theorem normalize_eq_here_iff (h : EndsUnmarked path) :
    normalize path = "." ↔ isAbsolute path.toList = false ∧ settledParts path.toList = [] := by
  constructor
  · intro hdot
    rw [← isAbsolute_normalize h, ← segments_normalize h, hdot]
    exact ⟨by decide, by decide⟩
  · rintro ⟨habs, hss⟩
    rcases leadingSlashes_cases path.toList with ⟨hn, _⟩ | ⟨ha, _⟩
    · rw [← String.toList_inj, toList_normalize h, hss, hn]
      rfl
    · cases habs.symm.trans ha

/-- Two slashes at the start apart, paths of one kind have one normal form if their parts settle to the same. -/
theorem normalize_eq_iff (h : EndsUnmarked path) (h' : EndsUnmarked path')
    (hkind : isAbsolute path'.toList = isAbsolute path.toList) (htwo : ¬ BeginsWithTwo path.toList)
    (htwo' : ¬ BeginsWithTwo path'.toList) :
    normalize path = normalize path' ↔ settledParts path.toList = settledParts path'.toList := by
  constructor
  · intro he
    rw [← segments_normalize h, he, segments_normalize h']
  · intro he
    have hslashes : leadingSlashes path.toList = leadingSlashes path'.toList := by
      rw [leadingSlashes_eq htwo, leadingSlashes_eq htwo', hkind]
    rw [← String.toList_inj, toList_normalize h, toList_normalize h', he, hslashes]

/-- The normal form of a path is the canonical spelling of what its parts settle to. To take the normal form again
changes nothing, absolute paths stay absolute and relative ones relative, and paths of one kind that do not begin with
exactly two slashes have one normal form exactly if their parts settle to the same. -/
theorem normalize_canonical (h : EndsUnmarked path) :
    normalize (normalize path) = normalize path ∧
    isAbsolute (normalize path).toList = isAbsolute path.toList ∧
    IsCanonical (normalize path).toList ∧
    ((normalize path).toList.getLast? = some '/' → normalize path = "/") ∧
    (∀ ss, Settles (isAbsolute path.toList) (segments path.toList) ss ↔ ss = segments (normalize path).toList) ∧
    (normalize path = "." ↔ isAbsolute path.toList = false ∧ Settles false (segments path.toList) []) ∧
    ∀ path', EndsUnmarked path' → isAbsolute path'.toList = isAbsolute path.toList →
      ¬ BeginsWithTwo path.toList → ¬ BeginsWithTwo path'.toList →
      (normalize path = normalize path' ↔ ∃ ss, Settles (isAbsolute path.toList) (segments path.toList) ss ∧
        Settles (isAbsolute path'.toList) (segments path'.toList) ss) := by
  refine ⟨normalize_normalize h, isAbsolute_normalize h, isCanonical_normalize h, fun hlast => ?_, fun ss => ?_, ?_,
    fun path' h' hkind htwo htwo' => ?_⟩
  · exact String.toList_inj.mp ((isCanonical_normalize h).eq_root hlast)
  · rw [settles_iff, segments_normalize h]
    rfl
  · rw [normalize_eq_here_iff h]
    refine and_congr_right fun habs => ?_
    rw [settles_iff, settledParts, habs, eq_comm]
  · rw [normalize_eq_iff h h' hkind htwo htwo']
    simp only [settles_iff, exists_eq_left]
    rfl

/-- Two spellings of one path. -/
theorem canonical_of_spellings : normalize "x/../../a//b/." = "../a/b" ∧
    IsCanonical (normalize "x/../../a//b/.").toList ∧
    (normalize "x/../../a//b/." = normalize "../a/c/../b/" ↔
      ∃ ss, Settles (isAbsolute "x/../../a//b/.".toList) (segments "x/../../a//b/.".toList) ss ∧
        Settles (isAbsolute "../a/c/../b/".toList) (segments "../a/c/../b/".toList) ss) := by
  have hspelling : EndsUnmarked "x/../../a//b/." := by decide +kernel
  have hother : EndsUnmarked "../a/c/../b/" := by decide +kernel
  have htwo : ¬ BeginsWithTwo "x/../../a//b/.".toList := by
    rintro ⟨rest, he, _⟩
    cases he
  have htwo' : ¬ BeginsWithTwo "../a/c/../b/".toList := by
    rintro ⟨rest, he, _⟩
    cases he
  obtain ⟨_, _, hcanonical, _, _, _, hsame⟩ := normalize_canonical hspelling
  exact ⟨by decide +kernel, hcanonical, hsame _ hother (by decide +kernel) htwo htwo'⟩

end CodeAtlas.Path
