import CodeAtlas.Proofs.Outline.Script.Reported

/-! # What a script is refused for

A visit refuses the whole script for an import or export outside a module, and for a member of a reported class
with a modifier that is not known. The walk ends with the first refusal in the order of the text. -/

namespace CodeAtlas.Outline

open CodeAtlas.Tree

theorem Visibility.ofName?_eq_none_iff {text : String} :
    Visibility.ofName? text = none ↔ text ∉ ["public", "private", "protected"] := by
  rw [ofName?, List.find?_eq_none]
  simp [all, name, @eq_comm _ _ text]

namespace Script

variable {path : String} {s : Source} {sourceType : SourceType}

instance (n : Node) : Decidable (IsModular n) := inferInstanceAs (Decidable (_ ∨ _))

/-- Why a class refuses a node of its body: it is a member with a modifier that is not known. -/
def memberRefusal? (s : Source) (v : Trail × Node) : Option String :=
  if (memberKind? v.2).isSome then
    ((modifierText? s v.2).filter (· ∉ ["public", "private", "protected"])).map unknownVisibility
  else none

/-- Why a visit refuses the file. A class is refused for the first of its members. -/
def refusal? (s : Source) (sourceType : SourceType) (v : Trail × Node) : Option String :=
  if reportedKind? v.1 v.2 = some .«class» then (inBody v.2).findSome? (memberRefusal? s)
  else if IsModular v.2 ∧ sourceType = .asScript then some (noModule s v.2)
  else none

/-! ## One visit -/

theorem failure?_memberVisibility (s : Source) (m : Node) : failure? (memberVisibility s m) =
    ((modifierText? s m).filter (· ∉ ["public", "private", "protected"])).map unknownVisibility := by
  unfold memberVisibility
  cases modifierText? s m with
  | none => cases memberKey? m <;> rfl
  | some text =>
    rw [Option.filter_some]
    dsimp only
    split
    · next v hv =>
      have hknown : ¬ text ∉ ["public", "private", "protected"] := by
        rw [← Visibility.ofName?_eq_none_iff, hv]
        exact nofun
      rw [if_neg (by simpa using hknown)]
      rfl
    · next hv =>
      rw [if_pos (by simpa using Visibility.ofName?_eq_none_iff.mp hv)]
      rfl

theorem failure?_member (path : String) (s : Source) (owner : String) (v : Trail × Node) :
    failure? (member path s owner v.2) = memberRefusal? s v := by
  rw [memberRefusal?]
  rcases member_eq path s owner v.2 with ⟨hkind, hmember⟩ | ⟨kind, hkind, t, _, hmember⟩
  · rw [hmember, hkind]
    rfl
  · rw [hmember, hkind, failure?_map, failure?_memberVisibility]
    rfl

theorem failure?_members (path : String) (s : Source) (owner : String) (n : Node) :
    failure? (members path s owner (n.child? "body")) =
      (inBody n).findSome? (memberRefusal? s) := by
  rw [members_eq, failure?_map, failure?_mapM]
  exact congrArg (List.findSome? · (inBody n)) (funext (failure?_member path s owner))

theorem failure?_findings (path : String) (s : Source) (sourceType : SourceType)
    (v : Trail × Node) :
    failure? (findings path s sourceType v.1.getLast? v.2) = refusal? s sourceType v := by
  have hfinds := finds_findings path s sourceType v.1 v.2
  rw [refusal?]
  generalize findings path s sourceType v.1.getLast? v.2 = result at hfinds ⊢
  cases hfinds with
  | @entity kind _ _ hkind hne _ =>
    have hmodular : ¬ (IsModular v.2 ∧ sourceType = .asScript) := by
      rintro ⟨h, _⟩
      rw [reportedKind?_of_isModular h] at hkind
      cases hkind
    rw [if_neg (by simpa [hkind] using hne), if_neg hmodular]
    rfl
  | classAndMembers hkind _ => rw [if_pos hkind, failure?_map, failure?_members]
  | refused hkind hmodular hscript =>
    rw [if_neg (by simp [hkind]), if_pos ⟨hmodular, hscript⟩]
    rfl
  | noEntity hkind hmodular _ =>
    rw [if_neg (by simp [hkind]), if_neg hmodular]
    rfl

/-! ## The whole walk -/

theorem handed_eq_getLast? (t : Trail) :
    Node.handed (γ := Above) (fun _ n i => some (n, i)) none t = t.getLast? := by
  rcases List.eq_nil_or_concat t with rfl | ⟨t, step, rfl⟩
  · rfl
  · rw [List.concat_eq_append, Node.handed_append, List.getLast?_append]
    rfl

theorem visits_eq (root : Node) :
    visits root = root.tour.map fun v => (v.1.getLast?, v.2) := by
  rw [visits, Node.walk_eq_map_tour]
  exact congrArg (List.map · root.tour) (funext fun v => by rw [handed_eq_getLast?])

theorem extract_eq (path : String) (s : Source) (sourceType : SourceType) (root : Node) :
    extract path s sourceType root =
      (root.tour.mapM fun v => findings path s sourceType v.1.getLast? v.2).map List.flatten := by
  rw [extract, visits_eq, List.mapM_map, bind_pure_comp]
  rfl

theorem failure?_extract (path : String) (s : Source) (sourceType : SourceType) (root : Node) :
    failure? (extract path s sourceType root) = root.tour.findSome? (refusal? s sourceType) := by
  rw [extract_eq, failure?_map, failure?_mapM]
  exact congrArg (List.findSome? · root.tour) (funext (failure?_findings path s sourceType))

/-- Whether a class reports a member with a modifier that is not known. -/
def HasUnknownModifier (s : Source) (n : Node) : Prop :=
  ∃ v ∈ inBody n, (memberKind? v.2).isSome = true ∧
    ∃ text, modifierText? s v.2 = some text ∧ text ∉ ["public", "private", "protected"]

theorem memberRefusal?_eq_none_iff {v : Trail × Node} : memberRefusal? s v = none ↔
    ¬ ((memberKind? v.2).isSome = true ∧
      ∃ text, modifierText? s v.2 = some text ∧ text ∉ ["public", "private", "protected"]) := by
  rw [memberRefusal?]
  split
  · next hkind =>
    cases modifierText? s v.2 <;> simp [hkind]
  · next hkind => simp [hkind]

theorem refusal?_eq_none_iff {t : Trail} {n : Node} : refusal? s sourceType (t, n) = none ↔
    ¬ (sourceType = .asScript ∧ IsModular n) ∧
      ¬ (reportedKind? t n = some .«class» ∧ HasUnknownModifier s n) := by
  rw [refusal?]
  split
  · next hclass =>
    have hmodular : ¬ IsModular n := by
      intro h
      rw [reportedKind?_of_isModular h] at hclass
      cases hclass
    rw [List.findSome?_eq_none_iff]
    simp only [memberRefusal?_eq_none_iff, HasUnknownModifier]
    simp [hmodular, hclass]
  · next hclass =>
    split
    · next h => simp [h.1, h.2]
    · next h => simp [hclass, mt And.symm h]

end Script

end CodeAtlas.Outline
