import CodeAtlas.Path.Normal

/-! # Parts of a path

Splitting a path and joining its parts are inverse on parts that say something: those that are
neither empty nor a single dot and hold no slash. Names behind a path are parts behind its parts,
and resolving double dots leaves them alone. -/

namespace CodeAtlas.Path

/-- What a path is made of once it is split and the parts that say nothing are dropped. -/
def IsPart (s : Segment) : Prop := s ≠ [] ∧ s ≠ here ∧ '/' ∉ s

/-! ## Splitting and joining -/

theorem split_append_slash (a b : List Char) : split (a ++ '/' :: b) = split a ++ split b := by
  induction a with
  | nil =>
    simp only [List.nil_append, split]
    cases h : split b with
    | nil => exact absurd h (split_ne_nil b)
    | cons s ss => simp
  | cons c a ih =>
    simp only [List.cons_append, split, ih]
    cases h : split a with
    | nil => exact absurd h (split_ne_nil a)
    | cons s ss =>
      simp only [List.cons_append]
      split <;> rfl

theorem split_of_not_mem {s : List Char} (h : '/' ∉ s) : split s = [s] := by
  induction s with
  | nil => rfl
  | cons c s ih =>
    simp only [List.mem_cons, not_or] at h
    simp only [split, ih h.2]
    rw [if_neg (Ne.symm h.1)]

theorem not_mem_of_mem_split {cs : List Char} {s : Segment} (h : s ∈ split cs) : '/' ∉ s := by
  induction cs generalizing s with
  | nil =>
    rw [split, List.mem_singleton] at h
    simp [h]
  | cons c cs ih =>
    simp only [split] at h
    cases hs : split cs with
    | nil => exact absurd hs (split_ne_nil cs)
    | cons t ts =>
      simp only [hs] at h ih
      split at h
      · rcases List.mem_cons.mp h with rfl | h
        · simp
        · exact ih h
      · next hc =>
        rcases List.mem_cons.mp h with rfl | h
        · simp only [List.mem_cons, not_or]
          exact ⟨Ne.symm hc, ih List.mem_cons_self⟩
        · exact ih (List.mem_cons_of_mem t h)

theorem isPart_of_mem_segments {cs : List Char} {s : Segment} (h : s ∈ segments cs) :
    IsPart s := by
  obtain ⟨hs, hp⟩ := List.mem_filter.mp h
  have hp := Bool.and_eq_true_iff.mp hp
  exact ⟨by simpa using hp.1, by simpa using hp.2, not_mem_of_mem_split hs⟩

theorem segments_of_isPart {s : Segment} (h : IsPart s) : segments s = [s] := by
  obtain ⟨hn, hd, hs⟩ := h
  simp [segments, split_of_not_mem hs, hn, hd]

theorem segments_append_slash (a b : List Char) :
    segments (a ++ '/' :: b) = segments a ++ segments b := by
  simp only [segments, split_append_slash, List.filter_append]

theorem segments_cons_slash (cs : List Char) : segments ('/' :: cs) = segments cs := by
  have h := segments_append_slash [] cs
  simpa [segments, split] using h

/-- A slash at the end of a path makes no part. -/
theorem segments_append_slash_nil (a : List Char) : segments (a ++ ['/']) = segments a := by
  rw [segments_append_slash]
  simp [segments, split]

theorem segments_join {ss : List Segment} (h : ∀ s ∈ ss, IsPart s) : segments (join ss) = ss := by
  induction ss with
  | nil => simp [join, segments, split]
  | cons s ss ih =>
    have hs := segments_of_isPart (h s List.mem_cons_self)
    have ht := ih fun t ht => h t (List.mem_cons_of_mem s ht)
    cases ss with
    | nil => rw [join, hs]
    | cons t ts => rw [join, segments_append_slash, hs, ht, List.singleton_append]

/-- The last character of a joined path is that of its last part. -/
theorem getLast?_join {ss : List Segment} {s : Segment} (h : s ≠ []) :
    (join (ss ++ [s])).getLast? = s.getLast? := by
  induction ss with
  | nil => rfl
  | cons t ss ih =>
    obtain ⟨u, us, hu⟩ : ∃ u us, ss ++ [s] = u :: us := by
      cases ss with
      | nil => exact ⟨s, [], rfl⟩
      | cons u us => exact ⟨u, us ++ [s], rfl⟩
    obtain ⟨c, hc⟩ : ∃ c, s.getLast? = some c := by
      cases hl : s.getLast? with
      | none => exact absurd (List.getLast?_eq_none_iff.mp hl) h
      | some c => exact ⟨c, rfl⟩
    rw [List.cons_append, hu, join, ← hu, List.getLast?_append, List.getLast?_cons, ih, hc]
    rfl

theorem join_append_singleton {ss : List Segment} (h : ss ≠ []) (s : Segment) :
    join (ss ++ [s]) = join ss ++ '/' :: s := by
  induction ss with
  | nil => exact absurd rfl h
  | cons t ss ih =>
    cases ss with
    | nil => rfl
    | cons u us =>
      have := ih (List.cons_ne_nil u us)
      simp only [List.cons_append, join] at this ⊢
      rw [this, List.append_assoc, List.cons_append]

theorem length_join_le_cons (s : Segment) (ss : List Segment) :
    (join ss).length ≤ (join (s :: ss)).length := by
  cases ss with
  | nil => simp [join]
  | cons t ts =>
    simp only [join, List.length_append, List.length_cons]
    omega

/-- A path does not get longer when parts of it are left out. -/
theorem length_join_le {ss ts : List Segment} (h : ss.Sublist ts) :
    (join ss).length ≤ (join ts).length := by
  induction h with
  | slnil => simp
  | cons s _ ih => exact Nat.le_trans ih (length_join_le_cons s _)
  | @cons_cons ss ts s hsub ih =>
    cases ts with
    | nil =>
      obtain rfl := List.sublist_nil.mp hsub
      exact Nat.le_refl _
    | cons t ts =>
      cases ss with
      | nil =>
        simp only [join, List.length_append, List.length_cons]
        omega
      | cons u us =>
        simp only [join, List.length_append, List.length_cons] at ih ⊢
        omega

/-! ## Double dots -/

theorem foldl_enter_of_ne_up (rooted : Bool) (acc : List Segment) {ss : List Segment}
    (h : ∀ s ∈ ss, s ≠ up) : ss.foldl (enter rooted) acc = ss.reverse ++ acc := by
  induction ss generalizing acc with
  | nil => rfl
  | cons s ss ih =>
    have hs : enter rooted acc s = s :: acc := by
      simp [enter, h s List.mem_cons_self]
    rw [List.foldl_cons, hs, ih _ fun t ht => h t (List.mem_cons_of_mem s ht)]
    simp

theorem resolve_append (rooted : Bool) (ss : List Segment) {ts : List Segment}
    (h : ∀ t ∈ ts, t ≠ up) : resolve rooted (ss ++ ts) = resolve rooted ss ++ ts := by
  simp [resolve, List.foldl_append, foldl_enter_of_ne_up rooted _ h]

/-- No double dots are left below the root. -/
theorem mem_foldl_enter {ss acc : List Segment} (hacc : ∀ s ∈ acc, s ≠ up) {s : Segment}
    (h : s ∈ ss.foldl (enter true) acc) : s ≠ up ∧ (s ∈ ss ∨ s ∈ acc) := by
  induction ss generalizing acc with
  | nil => exact ⟨hacc s h, Or.inr h⟩
  | cons t ss ih =>
    have hstep : ∀ u ∈ enter true acc t, u ≠ up ∧ (u = t ∨ u ∈ acc) := by
      intro u hu
      by_cases ht : t = up
      · cases acc with
        | nil => simp [enter, ht] at hu
        | cons a acc =>
          have ha : a ≠ up := hacc a List.mem_cons_self
          have hu : u ∈ acc := by simpa [enter, ht, ha] using hu
          exact ⟨hacc u (List.mem_cons_of_mem a hu), Or.inr (List.mem_cons_of_mem a hu)⟩
      · have hu : u = t ∨ u ∈ acc := by simpa [enter, ht] using hu
        rcases hu with rfl | hu
        · exact ⟨ht, Or.inl rfl⟩
        · exact ⟨hacc u hu, Or.inr hu⟩
    obtain ⟨hne, hm⟩ := ih (fun u hu => (hstep u hu).1) h
    refine ⟨hne, ?_⟩
    rcases hm with hm | hm
    · exact Or.inl (List.mem_cons_of_mem t hm)
    · rcases (hstep s hm).2 with rfl | hm
      · exact Or.inl List.mem_cons_self
      · exact Or.inr hm

theorem mem_resolve {ss : List Segment} {s : Segment} (h : s ∈ resolve true ss) :
    s ∈ ss ∧ s ≠ up := by
  obtain ⟨hne, hm⟩ := mem_foldl_enter (List.forall_mem_nil _) (List.mem_reverse.mp h)
  exact ⟨by simpa using hm, hne⟩

/-- Resolving double dots only leaves parts out. -/
theorem enter_sublist (rooted : Bool) (acc : List Segment) (s : Segment) :
    (enter rooted acc s).Sublist (s :: acc) := by
  unfold enter
  split
  · exact List.Sublist.refl _
  · next hs =>
    have hs : s = up := by simpa using hs
    split
    · split <;> simp [hs]
    · split
      · obtain rfl := hs
        exact List.Sublist.refl _
      · exact (List.sublist_cons_self _ _).trans (List.sublist_cons_self _ _)

theorem foldl_enter_sublist (rooted : Bool) (acc ss : List Segment) :
    (ss.foldl (enter rooted) acc).Sublist (ss.reverse ++ acc) := by
  induction ss generalizing acc with
  | nil => exact List.Sublist.refl _
  | cons s ss ih =>
    have h := (ih (enter rooted acc s)).trans ((enter_sublist rooted acc s).append_left ss.reverse)
    simpa using h

theorem resolve_sublist (rooted : Bool) (ss : List Segment) : (resolve rooted ss).Sublist ss := by
  have h := foldl_enter_sublist rooted [] ss
  rw [List.append_nil] at h
  simpa [resolve] using h.reverse

/-! ## Absolute paths -/

/-- The path begins with a single slash. -/
def IsRooted (cs : List Char) : Prop := ∃ rest, cs = '/' :: rest ∧ rest.head? ≠ some '/'

theorem IsRooted.isAbsolute {cs : List Char} (h : IsRooted cs) : isAbsolute cs = true := by
  obtain ⟨rest, rfl, _⟩ := h
  rfl

theorem IsRooted.leadingSlashes {cs : List Char} (h : IsRooted cs) : leadingSlashes cs = 1 := by
  obtain ⟨rest, rfl, hr⟩ := h
  have ht : rest.takeWhile (· == '/') = [] := by
    cases rest with
    | nil => rfl
    | cons c rest =>
      have hc : c ≠ '/' := by simpa using hr
      simp [hc]
  simp [Path.leadingSlashes, ht]

theorem IsRooted.collapse {cs : List Char} (h : IsRooted cs) :
    collapse cs = '/' :: join (resolve true (segments cs)) := by
  simp [Path.collapse, h.leadingSlashes]

theorem isRooted_join {ss : List Segment} (h : ∀ s ∈ ss, IsPart s) : IsRooted ('/' :: join ss) := by
  refine ⟨join ss, rfl, ?_⟩
  cases ss with
  | nil => simp [join]
  | cons s ss =>
    obtain ⟨hn, _, hs⟩ := h s List.mem_cons_self
    obtain ⟨c, cs, rfl⟩ := List.exists_cons_of_ne_nil hn
    have hc : c ≠ '/' := fun hc => hs (hc ▸ List.mem_cons_self)
    cases ss <;> simpa [join] using hc

theorem dropMark_cases (cs : List Char) :
    dropMark cs = cs ∨ 1 < cs.length ∧ dropMark cs = cs.dropLast := by
  unfold dropMark
  split
  · split
    · next h => exact Or.inr ⟨by simpa using (Bool.and_eq_true_iff.mp h).1, rfl⟩
    · exact Or.inl rfl
  · exact Or.inl rfl

theorem dropMark_of_getLast? {cs : List Char} {c : Char} (h : cs.getLast? = some c)
    (hs : c ≠ '/') (hb : c ≠ '\\') : dropMark cs = cs := by
  simp [dropMark, h, hs, hb]

theorem IsRooted.dropMark {cs : List Char} (h : IsRooted cs) : IsRooted (dropMark cs) := by
  rcases dropMark_cases cs with he | ⟨hl, he⟩
  · rwa [he]
  · obtain ⟨rest, rfl, hr⟩ := h
    rw [he]
    cases rest with
    | nil => simp at hl
    | cons c rest =>
      refine ⟨(c :: rest).dropLast, rfl, ?_⟩
      cases rest with
      | nil => simp
      | cons d rest => simpa using hr

/-- An absolute path does not get longer in the form that is collapsed. -/
theorem IsRooted.length_collapse_le {cs : List Char} (h : IsRooted cs) :
    (Path.collapse cs).length ≤ cs.length := by
  rw [h.collapse]
  obtain ⟨rest, rfl, _⟩ := h
  have hsub : (resolve true (segments rest)).Sublist (split rest) :=
    (resolve_sublist true _).trans List.filter_sublist
  have hlen := length_join_le hsub
  rw [join_split] at hlen
  simpa [segments_cons_slash] using hlen

/-- A path in normal form is collapsed: nothing was dropped from its end. -/
theorem IsRooted.collapse_of_normal {cs : List Char} (h : IsRooted cs)
    (hn : normalizeChars cs = cs) : Path.collapse cs = cs := by
  have hle := h.length_collapse_le
  unfold normalizeChars at hn
  rcases dropMark_cases (Path.collapse cs) with he | ⟨hl, he⟩
  · rwa [he] at hn
  · rw [he] at hn
    have := congrArg List.length hn
    rw [List.length_dropLast] at this
    omega

end CodeAtlas.Path
