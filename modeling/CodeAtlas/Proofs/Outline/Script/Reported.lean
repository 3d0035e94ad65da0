import CodeAtlas.Outline.Script
import CodeAtlas.Proofs.Outline.Declaration

/-! # What a script reports

Which nodes of an ECMAScript or TypeScript tree are reported, as what, and in which order: by their type, by
the type of their parent, and for the members of a class by the class. All that a visit can do follows from
it. -/

namespace CodeAtlas.Outline.Script

open CodeAtlas.Tree

/-! ## By type -/

/-- Whether a node stands right below an `export`. -/
def isExported (above : Trail) : Bool :=
  above.getLast?.any fun step => step.1.type == "export_statement"

/-- What a node is reported as. An expression is reported only if it is exported. -/
def reportedKind? (above : Trail) (n : Node) : Option EntityKind :=
  match n.type with
  | "arrow_function" => some .function
  | "function_declaration" | "generator_function_declaration" => some .function
  | "function_expression" | "function" | "generator_function" =>
    if isExported above then some .function else none
  | "class_declaration" | "abstract_class_declaration" => some .«class»
  | "class" => if isExported above then some .«class» else none
  | "interface_declaration" => some .interface
  | "type_alias_declaration" => some .typeAlias
  | _ => none

/-- What a node in the body of a class is reported as by the class. -/
def memberKind? (m : Node) : Option EntityKind :=
  match m.type with
  | "method_definition" => some .method
  | "field_definition" | "public_field_definition" => some .property
  | _ => none

/-- The named nodes in the body of a class, each with the way there. -/
def inBody (n : Node) : List (Trail × Node) :=
  match n.numberedChild? "body" with
  | none => []
  | some (body, i) => body.numbered.map fun (m, j) => ([(n, i), (body, j)], m)

/-- The name of a class. -/
def className (s : Source) (n : Node) : String := nameOr s n "AnonymousClass"

/-- What a class declares of a node in its body. -/
def declaredMember? (above : Trail) (owner : String) (v : Trail × Node) : Option Declaration :=
  (memberKind? v.2).map fun kind => ⟨above ++ v.1, v.2, kind, some owner⟩

/-- What a visited node declares: itself if it is reported, and the members of its body if it is reported as
a class. -/
def declared (s : Source) (v : Trail × Node) : List Declaration :=
  match reportedKind? v.1 v.2 with
  | none => []
  | some .«class» => ⟨v.1, v.2, .«class», none⟩ ::
      (inBody v.2).filterMap (declaredMember? v.1 (className s v.2))
  | some kind => [⟨v.1, v.2, kind, none⟩]

/-- Whether a node is an import or an export. -/
def IsModular (n : Node) : Prop := n.type = "import_statement" ∨ n.type = "export_statement"

/-! ## What a visit does -/

variable {path : String} {s : Source} {sourceType : SourceType} {above : Trail} {n m : Node}

theorem isExportValue_getLast? (above : Trail) :
    isExportValue above.getLast? = isExported above := by
  unfold isExportValue isExported
  cases above.getLast? <;> rfl

theorem reportedKind?_of_isModular (h : IsModular n) : reportedKind? above n = none := by
  rcases h with h | h <;> simp [reportedKind?, h]

/-- The tests that a visit makes come to the same. -/
theorem reportedKind?_eq (above : Trail) (n : Node) : reportedKind? above n =
    if n.type == "arrow_function" || isFunction above.getLast? n then some .function
    else if isClass above.getLast? n then some .«class» else typeKind? n.type := by
  rw [isFunction, isClass, isExportValue_getLast?]
  fun_cases reportedKind? above n
  all_goals simp_all [functionDeclarations, functionExpressions, classDeclarations,
    classExpressions, typeKind?]

/-- All that a visit can do. -/
inductive Finds (path : String) (s : Source) (sourceType : SourceType) (above : Trail) (n : Node) :
    Except String (List Finding) → Prop
  | entity {kind : EntityKind} {name : String} {t : Traits} : reportedKind? above n = some kind →
      kind ≠ .«class» → t.parentClass? = none →
      Finds path s sourceType above n (.ok [sight path s n name kind t])
  | classAndMembers {t : Traits} : reportedKind? above n = some .«class» → t.parentClass? = none →
      Finds path s sourceType above n
        ((members path s (className s n) (n.child? "body")).map fun inside =>
          sight path s n (className s n) .«class» t :: inside)
  | refused : reportedKind? above n = none → IsModular n → sourceType = .asScript →
      Finds path s sourceType above n (.error (noModule s n))
  | noEntity {fs : List Finding} : reportedKind? above n = none →
      ¬ (IsModular n ∧ sourceType = .asScript) → fs.filterMap Finding.entity? = [] →
      Finds path s sourceType above n (.ok fs)

theorem finds_findings (path : String) (s : Source) (sourceType : SourceType) (above : Trail)
    (n : Node) :
    Finds path s sourceType above n (findings path s sourceType above.getLast? n) := by
  have hkind := reportedKind?_eq above n
  unfold findings
  split
  · next h =>
    have hfunction : reportedKind? above n = some .function := by simpa [h] using hkind
    exact .entity hfunction nofun rfl
  split
  · next h =>
    have hmodular : IsModular n := .inl (eq_of_beq h)
    have hnone : reportedKind? above n = none := reportedKind?_of_isModular hmodular
    split
    · next hscript => exact .refused hnone hmodular hscript
    · next hscript =>
      refine .noEntity hnone (fun h => hscript h.2) ?_
      cases importOf? s n <;> rfl
  split
  · next h =>
    have hmodular : IsModular n := .inr (eq_of_beq h)
    have hnone : reportedKind? above n = none := reportedKind?_of_isModular hmodular
    split
    · next hscript => exact .refused hnone hmodular hscript
    · next hscript =>
      refine .noEntity hnone (fun h => hscript h.2) ?_
      rw [List.filterMap_map]
      exact List.filterMap_none _
  next harrow himport hexport =>
  have hmodular : ¬ IsModular n := by
    rintro (h | h)
    · exact himport (beq_iff_eq.mpr h)
    · exact hexport (beq_iff_eq.mpr h)
  split
  · next h =>
    have hfunction : reportedKind? above n = some .function := by simpa [h] using hkind
    exact .entity hfunction nofun rfl
  split
  · next hfunction h =>
    have hclass : reportedKind? above n = some .«class» := by simpa [harrow, hfunction, h] using hkind
    dsimp only
    rw [bind_pure_comp]
    exact .classAndMembers hclass rfl
  next hfunction hclass =>
  have hkind : reportedKind? above n = typeKind? n.type := by
    simpa [harrow, hfunction, hclass] using hkind
  split
  · next kind h =>
    refine .entity (hkind.trans h) (fun he => ?_) rfl
    rw [he, typeKind?] at h
    split at h
    · cases h
    · split at h <;> cases h
  · next h => exact .noEntity (hkind.trans h) (fun h => hmodular h.1) rfl

theorem findings_of_arrow (h : n.type = "arrow_function") (above : Above) :
    findings path s sourceType above n = .ok [sight path s n (arrowName s above) .function (callable s n)] := by
  rw [findings, h]
  rfl

/-- What an entity without a name goes by. -/
def unnamed (kind : EntityKind) : String := if kind = .«class» then "AnonymousClass" else "anonymous"

/-- What a visit finds for the node itself if it is reported and no arrow function. -/
def ownFinding (path : String) (s : Source) (above : Trail) (n : Node) (kind : EntityKind) : Finding :=
  sight path s n (nameOr s n (unnamed kind)) kind
    { (if kind = .function then callable s n else Traits.none) with isExported? := some (isExported above) }

/-- All that a visit finds if the node is neither an arrow function nor a statement of a module. -/
theorem findings_eq (harrow : n.type ≠ "arrow_function") (hmodular : ¬ IsModular n) :
    findings path s sourceType above.getLast? n = match reportedKind? above n with
      | none => .ok []
      | some .«class» => (members path s (className s n) (n.child? "body")).map
          (ownFinding path s above n .«class» :: ·)
      | some kind => .ok [ownFinding path s above n kind] := by
  obtain ⟨himport, hexport⟩ := not_or.mp hmodular
  have hkind : reportedKind? above n = if isFunction above.getLast? n = true then some .function
      else if isClass above.getLast? n = true then some .«class» else typeKind? n.type := by
    simpa [harrow] using reportedKind?_eq above n
  rw [findings, if_neg (by simpa using harrow), if_neg (by simpa using himport), if_neg (by simpa using hexport),
    hkind, isExportValue_getLast?]
  by_cases hfunction : isFunction above.getLast? n = true
  · rw [if_pos hfunction, if_pos hfunction]
    rfl
  rw [if_neg hfunction, if_neg hfunction]
  by_cases hclass : isClass above.getLast? n = true
  · rw [if_pos hclass, if_pos hclass]
    dsimp only
    rw [bind_pure_comp]
    rfl
  rw [if_neg hclass, if_neg hclass, typeKind?]
  split_ifs <;> rfl

/-! ## What a class does -/

theorem memberKind?_eq (m : Node) : memberKind? m =
    if m.type == "method_definition" then some .method
    else if propertyMembers.contains m.type then some .property else none := by
  fun_cases memberKind? m
  all_goals simp_all [propertyMembers]

/-- All that a class can do with a node in its body. -/
theorem member_eq (path : String) (s : Source) (owner : String) (m : Node) :
    (memberKind? m = none ∧ member path s owner m = .ok []) ∨
      ∃ kind, memberKind? m = some kind ∧ ∃ t : Visibility → Traits,
        (∀ v, (t v).parentClass? = some owner ∧ (t v).isExported? = none) ∧
        member path s owner m = (memberVisibility s m).map fun v =>
          [sight path s m (memberName s m) kind (t v)] := by
  have hkind := memberKind?_eq m
  unfold member
  split
  · next h =>
    rw [bind_pure_comp]
    exact .inr ⟨.method, hkind.trans (if_pos h), _, fun _ => ⟨rfl, rfl⟩, rfl⟩
  split
  · next h h' =>
    rw [bind_pure_comp]
    exact .inr ⟨.property, hkind.trans ((if_neg h).trans (if_pos h')), _, fun _ => ⟨rfl, rfl⟩, rfl⟩
  · next h h' => exact .inl ⟨hkind.trans ((if_neg h).trans (if_neg h')), rfl⟩

/-- A class goes through the named nodes in its body. -/
theorem members_eq (path : String) (s : Source) (owner : String) (n : Node) :
    members path s owner (n.child? "body") =
      ((inBody n).mapM fun v => member path s owner v.2).map List.flatten := by
  rw [Node.child?_eq_map_numberedChild?, inBody]
  cases n.numberedChild? "body" with
  | none => rfl
  | some found =>
    rw [Option.map_some, members, Node.namedChildren_eq_map_numbered, List.mapM_map, List.mapM_map]
    dsimp only
    rw [bind_pure_comp]
    rfl

end CodeAtlas.Outline.Script
