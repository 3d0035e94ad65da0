import CodeAtlas.Path.Extension
import CodeAtlas.Proofs.Path.Segments
import CodeAtlas.Proofs.Text.LastMark

/-! # Two readings of a file name

The extension of a path and the type of a file are both what stands behind the last dot of a name, in lower case. They
are not read by one rule: dots at the start of a name count for the extension but not for the type, and a dot at its end
is no extension but an empty type. So they agree except for names of these two forms. -/

namespace CodeAtlas.Path

open CodeAtlas.Text (SplitsLast)

variable {name path path' : String} {cs front back : List Char}

/-- Whether a file can have a name. -/
structure IsFileName (name : String) : Prop where
  nonempty : name ≠ ""
  not_here : name ≠ "."
  not_up : name ≠ ".."
  no_slash : '/' ∉ name.toList

/-- Whether the type of a file is its extension without the dot. -/
inductive ReadAlike (name : String) : Prop
  | none : fileType? name = .none → extension name = "" → ReadAlike name
  | some {type : String} : fileType? name = .some type → extension name = "." ++ type → ReadAlike name

/-- Whether a name begins with two dots or more and has no other dots, but something behind them. -/
def IsDotted (name : String) : Prop :=
  ∃ dots rest, SplitsLast '.' name.toList dots rest ∧ dots ≠ [] ∧ rest ≠ [] ∧ ∀ c ∈ dots, c = '.'

/-- Whether a name ends in a dot and does not consist of dots. -/
def EndsInDot (name : String) : Prop := ∃ front, SplitsLast '.' name.toList front [] ∧ ∃ c ∈ front, c ≠ '.'

theorem IsFileName.isPart (h : IsFileName name) : IsPart name.toList := by
  refine ⟨?_, ?_, h.no_slash⟩
  · simpa using h.nonempty
  · intro he
    exact h.not_here (String.toList_inj.mp (he.trans (by decide)))

/-! ## The last dot -/

theorem atLastDot_of_unmarked (h : '.' ∉ cs) : atLastDot cs = none := by
  rw [atLastDot, Text.dropWhile_reverse_of_unmarked h]

theorem atLastDot_of_splitsLast (h : SplitsLast '.' cs front back) : atLastDot cs = some (back, front.reverse) := by
  rw [atLastDot, h.dropWhile_reverse, h.takeWhile_reverse, List.reverse_reverse]

/-- What is behind a dot, in lower case. -/
def lowered (cs : List Char) : String := String.ofList (Text.lowerFrom ['.'] cs)

theorem lower_dot (cs : List Char) : Text.lower (String.ofList ('.' :: cs)) = "." ++ lowered cs := by
  rw [← String.toList_inj]
  simp [Text.lower, Text.lowerFrom, lowered]

/-! ## Extensions -/

/-- An extension depends on nothing but the last part of a path. -/
theorem extension_congr (h : (segments path.toList).getLast? = (segments path'.toList).getLast?) :
    extension path = extension path' := by
  rw [extension, extension, h]

theorem extension_eq (h : IsFileName name) : extension name = match atLastDot name.toList with
    | some (after, before) =>
      if after.isEmpty || before.isEmpty then "" else Text.lower (String.ofList ('.' :: after))
    | none => "" := by
  rw [extension, segments_of_isPart h.isPart]
  rfl

theorem extension_of_unmarked (h : IsFileName name) (hdot : '.' ∉ name.toList) : extension name = "" := by
  rw [extension_eq h, atLastDot_of_unmarked hdot]

theorem extension_of_splitsLast (h : IsFileName name) (hsplit : SplitsLast '.' name.toList front back) :
    extension name = if back = [] ∨ front = [] then "" else "." ++ lowered back := by
  rw [extension_eq h, atLastDot_of_splitsLast hsplit]
  dsimp only
  rw [lower_dot]
  simp only [List.isEmpty_reverse, Bool.or_eq_true, List.isEmpty_iff]

/-! ## Types -/

theorem fileType?_eq (h : IsFileName name) : fileType? name = match atLastDot name.toList with
    | some (after, before) =>
      if before.all (· == '.') then none
      else some (String.ofList ((Text.lower (String.ofList ('.' :: after))).toList.drop 1))
    | none => none := by
  have hlast : (name.toList.reverse.takeWhile (· != '/')).reverse = name.toList := by
    rw [Text.takeWhile_reverse_of_unmarked h.no_slash, List.reverse_reverse]
  cases hdot : atLastDot name.toList with
  | none => simp only [fileType?, hlast, hdot]
  | some parts => simp only [fileType?, hlast, hdot]

theorem fileType?_of_unmarked (h : IsFileName name) (hdot : '.' ∉ name.toList) : fileType? name = none := by
  rw [fileType?_eq h, atLastDot_of_unmarked hdot]

theorem fileType?_of_splitsLast (h : IsFileName name) (hsplit : SplitsLast '.' name.toList front back) :
    fileType? name = if front.all (· == '.') then none else some (lowered back) := by
  rw [fileType?_eq h, atLastDot_of_splitsLast hsplit]
  dsimp only
  rw [lower_dot]
  simp

theorem all_dots_iff : front.all (· == '.') = true ↔ ∀ c ∈ front, c = '.' := by
  simp only [List.all_eq_true, beq_iff_eq]

/-! ## Both -/

theorem IsDotted.values (h : IsDotted name) (hname : IsFileName name) :
    fileType? name = none ∧ ∃ type, extension name = "." ++ type := by
  obtain ⟨dots, rest, hsplit, hdots, hrest, hall⟩ := h
  rw [fileType?_of_splitsLast hname hsplit, extension_of_splitsLast hname hsplit, if_pos (all_dots_iff.mpr hall),
    if_neg (not_or.mpr ⟨hrest, hdots⟩)]
  exact ⟨rfl, _, rfl⟩

theorem EndsInDot.values (h : EndsInDot name) (hname : IsFileName name) :
    fileType? name = some "" ∧ extension name = "" := by
  obtain ⟨front, hsplit, c, hc, hne⟩ := h
  rw [fileType?_of_splitsLast hname hsplit, extension_of_splitsLast hname hsplit,
    if_neg fun hall => hne (all_dots_iff.mp hall c hc), if_pos (.inl rfl)]
  exact ⟨rfl, rfl⟩

theorem readAlike_of_neither (hname : IsFileName name) (hdotted : ¬ IsDotted name) (hends : ¬ EndsInDot name) :
    ReadAlike name := by
  rcases Text.unmarked_or_splitsLast '.' name.toList with hdot | ⟨front, back, hsplit⟩
  · exact .none (fileType?_of_unmarked hname hdot) (extension_of_unmarked hname hdot)
  have htype := fileType?_of_splitsLast hname hsplit
  have hextension := extension_of_splitsLast hname hsplit
  by_cases hall : ∀ c ∈ front, c = '.'
  · -- no dot but those at the start, so there must be nothing between them or behind them
    have hnothing : back = [] ∨ front = [] := Decidable.or_iff_not_imp_left.mpr fun hback =>
      Decidable.not_not.mp fun hfront => hdotted ⟨front, back, hsplit, hfront, hback, hall⟩
    rw [if_pos (all_dots_iff.mpr hall)] at htype
    rw [if_pos hnothing] at hextension
    exact .none htype hextension
  · have hback : back ≠ [] := by
      rintro rfl
      exact hends ⟨front, hsplit, by simpa using hall⟩
    have hfront : front ≠ [] := by
      rintro rfl
      exact hall (List.forall_mem_nil _)
    rw [if_neg (mt all_dots_iff.mp hall)] at htype
    rw [if_neg (not_or.mpr ⟨hback, hfront⟩)] at hextension
    exact .some htype hextension

theorem dot_append_ne_empty (type : String) : "." ++ type ≠ "" := by
  intro he
  have := congrArg String.toList he
  simp at this

theorem readAlike_iff (hname : IsFileName name) : ReadAlike name ↔ ¬ IsDotted name ∧ ¬ EndsInDot name := by
  constructor
  · intro halike
    refine ⟨fun h => ?_, fun h => ?_⟩
    · obtain ⟨hnone, type, htype⟩ := h.values hname
      cases halike with
      | none _ hempty => exact dot_append_ne_empty type (htype.symm.trans hempty)
      | some hsome _ => cases hnone.symm.trans hsome
    · obtain ⟨hsome, hempty⟩ := h.values hname
      cases halike with
      | none hnone _ => cases hnone.symm.trans hsome
      | some _ htype => exact dot_append_ne_empty _ (htype.symm.trans hempty)
  · rintro ⟨hdotted, hends⟩
    exact readAlike_of_neither hname hdotted hends

end CodeAtlas.Path
