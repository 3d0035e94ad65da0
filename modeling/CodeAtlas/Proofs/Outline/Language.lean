import CodeAtlas.Outline.Parse
import CodeAtlas.Proofs.Disk.Legal
import CodeAtlas.Proofs.Path.Suffix

/-! # Types and languages

The language of a file is that of its extension. The type of the file names the same language, except for names that
have an extension but no type: those that begin with two dots and have no others. -/

namespace CodeAtlas.Outline

open CodeAtlas.Disk (isMarked)
open CodeAtlas.Path (IsFileName IsDotted EndsInDot ReadAlike extension fileType?)

variable {name path ext : String}

/-- The language that the type of a file names. -/
def languageOfType? (type? : Option String) : Option FileLanguage :=
  type?.bind fun type => languageOfExtension? ("." ++ type)

theorem isSupported_iff : isSupported path = true ↔ languageOfExtension? (extension path) ≠ none := by
  rw [isSupported, Option.isSome_iff_ne_none]

/-- The type of a file names the language of its extension, unless the file is supported and has no type. -/
theorem languageOfType?_eq_iff (h : IsFileName name) :
    languageOfType? (fileType? name) = languageOfExtension? (extension name) ↔
      ¬ (IsDotted name ∧ isSupported name = true) := by
  have hempty : languageOfExtension? "" = none := rfl
  have hdot : languageOfExtension? ("." ++ "") = none := rfl
  rw [isSupported_iff]
  by_cases hdotted : IsDotted name
  · rw [(hdotted.values h).1]
    simp [languageOfType?, hdotted, eq_comm]
  have hsame : languageOfType? (fileType? name) = languageOfExtension? (extension name) := by
    by_cases hends : EndsInDot name
    · obtain ⟨htype, hext⟩ := hends.values h
      rw [htype, hext, hempty]
      exact hdot
    · cases Path.readAlike_of_neither h hdotted hends with
      | none htype hext =>
        rw [htype, hext, hempty]
        rfl
      | some htype hext =>
        rw [htype, hext]
        rfl
  simp [hdotted, hsame]

/-- A supported file has no type exactly if its name begins with two dots and has no others. -/
theorem fileType?_eq_none_iff (h : IsFileName name) (hs : isSupported name = true) :
    fileType? name = none ↔ IsDotted name := by
  refine ⟨fun hnone => Classical.byContradiction fun hdotted => ?_, fun hdotted => (hdotted.values h).1⟩
  have hsame := (languageOfType?_eq_iff h).mpr fun hboth => hdotted hboth.1
  rw [hnone] at hsame
  exact isSupported_iff.mp hs hsame.symm

/-! ## Names that end in a backslash -/

theorem getLast?_lowerFrom (before cs : List Char) :
    (Text.lowerFrom before (cs ++ ['\\'])).getLast? = some '\\' := by
  induction cs generalizing before with
  | nil => rfl
  | cons c cs ih => rw [List.cons_append, Text.lowerFrom, List.getLast?_append, ih, Option.some_or]

theorem getLast?_of_supported (h : languageOfExtension? ext ≠ none) : ext.toList.getLast? ≠ some '\\' := by
  have hscript : ∀ x ∈ scriptExtensions, x.1.toList.getLast? ≠ some '\\' := by decide
  unfold languageOfExtension? at h
  split at h
  · next x _ hfind =>
    have hkey : x = ext := by simpa using List.find?_some hfind
    rw [← hkey]
    exact hscript _ (List.mem_of_find?_eq_some hfind)
  · split at h
    · next hphp =>
      rw [eq_of_beq hphp]
      decide
    · exact absurd rfl h

/-- A backslash at the end of a name would be one at the end of its extension. -/
theorem isSupported_of_marked (h : IsFileName name) (hm : isMarked name = true) : isSupported name = false := by
  refine Bool.eq_false_iff.mpr fun hs => ?_
  have hlanguage := isSupported_iff.mp hs
  have hlast := getLast?_of_supported hlanguage
  rcases Text.unmarked_or_splitsLast '.' name.toList with hdot | ⟨front, back, hsplit⟩
  · rw [Path.extension_of_unmarked h hdot] at hlanguage
    exact hlanguage rfl
  rw [Path.extension_of_splitsLast h hsplit] at hlast hlanguage
  split at hlast
  · next hnothing =>
    rw [if_pos hnothing] at hlanguage
    exact hlanguage rfl
  · next hboth =>
    have hback : back ≠ [] := fun he => hboth (.inl he)
    obtain ⟨cs, c, rfl⟩ := (List.eq_nil_or_concat back).resolve_left hback
    rw [List.concat_eq_append] at hsplit hlast
    have hmark : name.toList.getLast? = some '\\' := by simpa [isMarked] using hm
    rw [hsplit.eq, ← List.cons_append, ← List.append_assoc, List.getLast?_concat] at hmark
    obtain rfl := Option.some.inj hmark
    refine hlast ?_
    rw [String.toList_append, List.getLast?_append, Path.lowered, String.toList_ofList, getLast?_lowerFrom]
    rfl

end CodeAtlas.Outline
