import CodeAtlas.Outline.Parse
import CodeAtlas.Proofs.Attempts
import CodeAtlas.Proofs.Store.Records
import CodeAtlas.Proofs.Tree.Columns

/-! # Lines and columns

Every line and column that is found in a text counts characters of it, so there are none that a row of
the index could not hold, unless the text itself is larger than any file. -/

namespace CodeAtlas.Outline

open CodeAtlas.Store CodeAtlas.Tree

/-- A line or column of a text with the given number of characters. -/
def Within (size : Nat) (n : Int) : Prop := 0 ≤ n ∧ n ≤ size + 1

/-- All lines and columns of a finding are those of a text of the given size. -/
def Finding.Within (size : Nat) : Finding → Prop
  | .entity _ e => Outline.Within size e.startLine ∧ Outline.Within size e.endLine ∧
      Outline.Within size e.startColumn ∧ Outline.Within size e.endColumn
  | .importing i => Outline.Within size i.line
  | .exporting e => Outline.Within size e.line

variable {s : Source} {path : String}

theorem within_line (s : Source) (n : Node) : Within s.chars.length (s.line n) := by
  have h : (s.position n.start).row ≤ s.chars.length := s.row_le n.start
  unfold Source.line Within
  omega

theorem within_sight (path : String) (s : Source) (n : Node) (name : String) (kind : EntityKind)
    (t : Traits) : (sight path s n name kind t).Within s.chars.length := by
  have hrow (b : Nat) : (s.position b).row ≤ s.chars.length := s.row_le b
  have hcolumn (b : Nat) : (s.position b).column ≤ s.chars.length := s.column_le b
  have hstart := And.intro (hrow n.start) (hcolumn n.start)
  have hstop := And.intro (hrow n.stop) (hcolumn n.stop)
  simp only [sight, Source.span, Finding.Within, Within]
  omega

/-! ## Scripts -/

theorem Script.within_member {owner : String} {m : Node} {fs : List Finding}
    (h : member path s owner m = .ok fs) : ∀ f ∈ fs, f.Within s.chars.length := by
  unfold member at h
  split at h
  · cases hv : memberVisibility s m with
    | error e => simp [hv, bind, Except.bind] at h
    | ok v =>
      simp only [hv, bind, Except.bind, pure, Except.pure, Except.ok.injEq] at h
      rw [← h]
      exact List.forall_mem_singleton.mpr (within_sight ..)
  · split at h
    · cases hv : memberVisibility s m with
      | error e => simp [hv, bind, Except.bind] at h
      | ok v =>
        simp only [hv, bind, Except.bind, pure, Except.pure, Except.ok.injEq] at h
        rw [← h]
        exact List.forall_mem_singleton.mpr (within_sight ..)
    · cases h
      exact List.forall_mem_nil _

theorem Script.within_members {owner : String} {body? : Option Node} {fs : List Finding}
    (h : members path s owner body? = .ok fs) : ∀ f ∈ fs, f.Within s.chars.length := by
  cases body? with
  | none =>
    cases h
    exact List.forall_mem_nil _
  | some body =>
    simp only [members] at h
    cases hm : body.namedChildren.mapM (member path s owner) with
    | error e => simp [hm, bind, Except.bind] at h
    | ok fss =>
      simp only [hm, bind, Except.bind, pure, Except.pure, Except.ok.injEq] at h
      have hall := forall_of_mapM_ok (fun _ _ hfs => within_member hfs) hm
      rw [← h]
      intro f hf
      obtain ⟨fs, hfs, hf⟩ := List.mem_flatten.mp hf
      exact hall fs hfs f hf

theorem Script.within_importOf? {n : Node} {i : Import} (h : importOf? s n = some i) :
    Within s.chars.length i.line := by
  unfold importOf? at h
  obtain ⟨source, _, rfl⟩ := Option.map_eq_some_iff.mp h
  exact within_line s n

theorem Script.within_exportsOf {n : Node} {e : Export} (h : e ∈ exportsOf s n) :
    Within s.chars.length e.line := by
  unfold exportsOf at h
  split at h
  · rw [List.mem_singleton.mp h]
    exact within_line s n
  · obtain ⟨name, _, rfl⟩ := List.mem_map.mp h
    exact within_line s n

theorem Script.within_findings {sourceType : SourceType} {above : Above} {n : Node}
    {fs : List Finding} (h : findings path s sourceType above n = .ok fs) :
    ∀ f ∈ fs, f.Within s.chars.length := by
  unfold findings at h
  split at h
  · cases h
    exact List.forall_mem_singleton.mpr (within_sight ..)
  split at h
  · split at h
    · cases h
    · cases h
      intro f hf
      obtain ⟨i, hi, rfl⟩ := Option.map_eq_some_iff.mp (Option.mem_toList.mp hf)
      exact within_importOf? hi
  split at h
  · split at h
    · cases h
    · cases h
      intro f hf
      obtain ⟨e, he, rfl⟩ := List.mem_map.mp hf
      exact within_exportsOf he
  split at h
  · cases h
    exact List.forall_mem_singleton.mpr (within_sight ..)
  split at h
  · cases hm : members path s (nameOr s n anonymousClass) (n.child? "body") with
    | error e => simp [hm, bind, Except.bind] at h
    | ok inside =>
      simp only [hm, bind, Except.bind, pure, Except.pure, Except.ok.injEq] at h
      rw [← h]
      exact List.forall_mem_cons.mpr ⟨within_sight .., within_members hm⟩
  · split at h
    · cases h
      exact List.forall_mem_singleton.mpr (within_sight ..)
    · cases h
      exact List.forall_mem_nil _

theorem Script.within_extract {sourceType : SourceType} {root : Node} {fs : List Finding}
    (h : extract path s sourceType root = .ok fs) : ∀ f ∈ fs, f.Within s.chars.length := by
  unfold extract at h
  generalize hm : (visits root).mapM (m := Except String) _ = result at h
  cases result with
  | error e => simp [bind, Except.bind] at h
  | ok fss =>
    simp only [bind, Except.bind, pure, Except.pure, Except.ok.injEq] at h
    have hall := forall_of_mapM_ok (fun _ _ hfs => within_findings hfs) hm
    rw [← h]
    intro f hf
    obtain ⟨fs, hfs, hf⟩ := List.mem_flatten.mp hf
    exact hall fs hfs f hf

/-! ## PHP files -/

theorem Php.within_importOf? {outer? : Option String} {clause : Node} {i : Import}
    (h : importOf? s outer? clause = some i) : Within s.chars.length i.line := by
  unfold importOf? at h
  obtain ⟨name, _, rfl⟩ := Option.map_eq_some_iff.mp h
  exact within_line s clause

theorem Php.within_importsOf {n : Node} {i : Import} (h : i ∈ importsOf s n) :
    Within s.chars.length i.line := by
  unfold importsOf at h
  dsimp only at h
  split at h
  · obtain ⟨clause, _, hi⟩ := List.mem_filterMap.mp h
    exact within_importOf? hi
  · obtain ⟨clause, _, hi⟩ := List.mem_filterMap.mp h
    exact within_importOf? hi

theorem Php.within_findings {enclosing : Option String} {n : Node} {f : Finding}
    (h : f ∈ findings path s enclosing n) : f.Within s.chars.length := by
  unfold findings at h
  split at h
  case h_5 =>
    obtain ⟨element, _, rfl⟩ := List.mem_map.mp h
    exact within_sight ..
  case h_6 =>
    obtain ⟨i, hi, rfl⟩ := List.mem_map.mp h
    exact within_importsOf hi
  case h_7 => cases h
  all_goals
    rw [List.mem_singleton.mp h]
    exact within_sight ..

theorem Php.within_extract {root : Node} {f : Finding} (h : f ∈ extract path s root) :
    f.Within s.chars.length := by
  obtain ⟨⟨enclosing, n⟩, _, hf⟩ := List.mem_flatMap.mp h
  exact within_findings hf

/-! ## Files -/

theorem isStorable_of_within {size : Nat} (hsize : size < 9223372036854775807) {n : Int}
    (h : Within size n) : isStorable n = true := by
  unfold Within at h
  simp only [isStorable, Bool.and_eq_true, decide_eq_true_eq]
  omega

theorem fitsRows_failed (path language message : String) :
    FitsRows (.failed path language message) where
  entities := List.forall_mem_nil _
  imports := List.forall_mem_nil _
  exports := List.forall_mem_nil _

theorem fitsRows_ofFindings {size : Nat} (hsize : size < 9223372036854775807)
    {language : String} {fs : List Finding} (h : ∀ f ∈ fs, f.Within size) :
    FitsRows (.ofFindings path language fs) where
  entities e he := by
    obtain ⟨f, hf, hfe⟩ := List.mem_filterMap.mp (List.mem_mergeSort.mp he)
    cases f with
    | entity node _ =>
      cases hfe
      obtain ⟨h₁, h₂, h₃, h₄⟩ := h _ hf
      intro n hn
      have hn : n = e.startLine ∨ n = e.endLine ∨ n = e.startColumn ∨ n = e.endColumn := by
        simpa [EntityDraft.integers, EntityDraft.ofEntity] using hn
      rcases hn with rfl | rfl | rfl | rfl <;> exact isStorable_of_within hsize ‹_›
    | _ => cases hfe
  imports i hi := by
    obtain ⟨f, hf, hfi⟩ := List.mem_filterMap.mp hi
    cases f with
    | importing _ =>
      cases hfi
      exact isStorable_of_within hsize (h _ hf)
    | _ => cases hfi
  exports e he := by
    obtain ⟨f, hf, hfe⟩ := List.mem_filterMap.mp he
    cases f with
    | exporting _ =>
      cases hfe
      exact isStorable_of_within hsize (h _ hf)
    | _ => cases hfe

/-- What a text declares can be stored, whatever the text. -/
theorem fitsRows_parse {source : String} (hsize : source.toList.length < 9223372036854775807)
    (path : String) (o : Options) : FitsRows (parse path source o) := by
  unfold parse
  split
  · next l _ =>
    unfold Family.parse Family.read
    split
    · exact fitsRows_failed ..
    · split
      · exact fitsRows_failed ..
      · next fs hfs =>
        refine fitsRows_ofFindings hsize ?_
        cases hfamily : l.family with
        | script =>
          rw [hfamily] at hfs
          exact Script.within_extract hfs
        | php =>
          rw [hfamily] at hfs
          cases hfs
          exact fun f hf => Php.within_extract hf
  · exact fitsRows_failed ..

end CodeAtlas.Outline
