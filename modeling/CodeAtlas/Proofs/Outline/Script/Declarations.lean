import CodeAtlas.Proofs.Outline.Script.Bindings

/-! # Names that any declaration exports

A declaration binds what its patterns bind if it is one of variables, and otherwise the name that it has. An export
statement lists all these names and no other ones for a declaration that stands right behind `export`. If `declare`
stands between them, then it is the node for `declare` that is asked for a name, and this has none in the grammar; so
nothing is listed. -/

namespace CodeAtlas.Outline.Script

open CodeAtlas.Tree

variable {s : Source} {n d inner : Node} {ns : List String}

/-! ## What a declaration binds -/

/-- Declarations that have a name of their own: of functions, classes, interfaces, type aliases, enumerations and
namespaces. -/
def namedDeclarations : List String :=
  ["function_declaration", "generator_function_declaration", "function_signature", "class_declaration",
    "abstract_class_declaration", "interface_declaration", "type_alias_declaration", "enum_declaration",
    "internal_module", "module"]

/-- The name that a node has of its own, if it has one. -/
def ownNames (s : Source) (d : Node) : List String := (nonempty? (s.fieldText? d "name")).toList

/-- Whether a declaration binds some names, in the order of the text. -/
inductive BindsNames (s : Source) (d : Node) : List String → Prop
  | patterns {bound : List (Place × Node)} :
      d.type = "lexical_declaration" ∨ d.type = "variable_declaration" → AreBound d bound →
      BindsNames s d (names s bound)
  | own {name : String} : d.type ∈ namedDeclarations → ownNames s d = [name] → BindsNames s d [name]

/-- Whether a node stands for a declaration: it is the declaration, or `declare` with the declaration below it. -/
inductive StandsFor (d : Node) : Node → Prop
  | itself : StandsFor d d
  | declare {inner : Node} : d.type = "ambient_declaration" → inner ∈ d.namedChildren → StandsFor d inner

/-! ## What is read off it -/

theorem declaredNames_of_not_variables (h : d.type ∉ variableDeclarations) : declaredNames s d = ownNames s d :=
  if_neg (by simpa using h)

theorem BindsNames.declaredNames_eq (h : BindsNames s d ns) : declaredNames s d = ns := by
  cases h with
  | patterns hvariables hbound => rw [declaredNames_of_variables s hvariables, (areBound_boundIn d).eq hbound]
  | own htype hname =>
    have hother : d.type ∉ variableDeclarations := by
      revert htype
      generalize d.type = type
      revert type
      decide
    rw [declaredNames_of_not_variables hother, hname]

theorem BindsNames.type_ne (h : BindsNames s d ns) : d.type ≠ "ambient_declaration" := by
  intro htype
  cases h with
  | patterns hvariables _ => simp [htype] at hvariables
  | own hnamed _ => simp [htype, namedDeclarations] at hnamed

theorem declaredNames_of_declare (h : d.type = "ambient_declaration") : declaredNames s d = ownNames s d :=
  declaredNames_of_not_variables (by simp [h, variableDeclarations])

/-- The names of a declaration are read off a node that stands for it, unless this is `declare`. -/
theorem StandsFor.declaredNames_eq_iff (h : StandsFor d inner) (hbinds : BindsNames s inner ns) :
    declaredNames s d = ns ↔ (d.type = "ambient_declaration" → ownNames s d = ns) := by
  cases h with
  | itself => exact iff_of_true hbinds.declaredNames_eq fun htype => absurd htype hbinds.type_ne
  | declare htype _ =>
    -- the declaration inside is not looked at
    rw [declaredNames_of_declare htype, forall_prop_of_true htype]

/-! ## What is listed -/

theorem named_append_inj {front front' back : List String} :
    (front ++ back).map (named s n) = (front' ++ back).map (named s n) ↔ front = front' := by
  have hinjective : Function.Injective (named s n) := fun _ _ h => congrArg Export.name h
  rw [(List.map_injective_iff.mpr hinjective).eq_iff, List.append_left_inj]

/-- An export statement lists the names that its declaration binds, in their order and with no other ones but those that
the statement passes on, exactly if the declaration stands right behind `export`, or behind a `declare` that has just
these names of its own. What is listed for a `declare` are its own names, so nothing if it has none. The file is
returned unless something in it nests too deep. -/
theorem exports_declared_iff (s : Source) (n d inner : Node) (ns : List String) (hexport : n.type = "export_statement")
    (hnamed : n.hasToken "default" = false) (hd : n.child? "declaration" = some d) (hstands : StandsFor d inner)
    (hbinds : BindsNames s inner ns) :
    (exportsOf s n = (ns ++ passedOn s n).map (named s n) ↔
      (d.type = "ambient_declaration" → ownNames s d = ns)) ∧
    ∀ (path language : String) (o : Options) (root : Node) (t : Trail), root.Reaches t n →
      let file := Family.script.read path language s o root;
      file.hasErrors = false →
        (Family.script.tryRead path language s o root = .ok file ↔
          ∀ t' m, root.Reaches t' m → nestsTooDeep m = false) ∧
        (AddedAt (exported s) root t n ((ns ++ passedOn s n).map (named s n)) file.exports ↔
          (d.type = "ambient_declaration" → ownNames s d = ns)) ∧
        (d.type = "ambient_declaration" →
          AddedAt (exported s) root t n ((ownNames s d ++ passedOn s n).map (named s n)) file.exports) := by
  have hadded := exportsOf_of_declaration (s := s) hnamed hd
  have hiff : exportsOf s n = (ns ++ passedOn s n).map (named s n) ↔
      (d.type = "ambient_declaration" → ownNames s d = ns) := by
    rw [hadded, named_append_inj, hstands.declaredNames_eq_iff hbinds]
  refine ⟨hiff, ?_⟩
  intro path language o root t hn file hclean
  have hlisted : AddedAt (exported s) root t n (exportsOf s n) file.exports := exports_addedAt hexport hn hclean
  refine ⟨Family.returned_iff_of_clean hclean, ⟨fun h => hiff.mp (hlisted.eq h), fun h => hiff.mpr h ▸ hlisted⟩, fun htype => ?_⟩
  rwa [hadded, declaredNames_of_declare htype] at hlisted

/-- An enumeration that is exported on the second line. -/
def enumeration : Node :=
  .plain "enum_declaration" (some "declaration") 9 19
    [.plain "identifier" (some "name") 14 15 [], .plain "enum_body" (some "body") 16 19 []]

def enumerationExport : Node := .plain "export_statement" none 2 19 [enumeration]

def enumerationScript : Node :=
  .plain "program" none 0 19 [.plain "empty_statement" none 0 1 [], enumerationExport]

def enumerationText : Source := .ofString ";\nexport enum E \x7b \x7d"

theorem exports_declared_of_enumeration :
    let file := Family.script.read "a.ts" "typescript" enumerationText .default enumerationScript;
    file.hasErrors = false ∧ BindsNames enumerationText enumeration ["E"] ∧ file.exports = [⟨"E", false, 2⟩] ∧
      AddedAt (exported enumerationText) enumerationScript [(enumerationScript, 1)] enumerationExport
        [named enumerationText enumerationExport "E"] file.exports := by
  have hclean : (Family.script.read "a.ts" "typescript" enumerationText .default enumerationScript).hasErrors =
      false := by decide +kernel
  have hbinds : BindsNames enumerationText enumeration ["E"] := .own (by decide) (by decide +kernel)
  have hnothing : passedOn enumerationText enumerationExport = [] := by decide +kernel
  have hlists := ((exports_declared_iff enumerationText enumerationExport enumeration enumeration ["E"] rfl
    (by decide +kernel) (by rfl) .itself hbinds).2 "a.ts" "typescript" .default enumerationScript
    [(enumerationScript, 1)] (.child .root rfl rfl) hclean).2.1.mpr (fun htype => absurd htype (by decide))
  rw [hnothing] at hlists
  exact ⟨hclean, hbinds, by decide +kernel, hlists⟩

/-- A constant that is exported behind `declare`. -/
def ambientConstant : Node :=
  .plain "lexical_declaration" none 15 31
    [.plain "variable_declarator" none 21 30
      [.plain "identifier" (some "name") 21 22 [], .plain "type_annotation" (some "type") 22 30 []]]

def ambientDeclaration : Node := .plain "ambient_declaration" (some "declaration") 7 31 [ambientConstant]

def ambientExport : Node := .plain "export_statement" none 0 31 [ambientDeclaration]

def ambientScript : Node := .plain "program" none 0 31 [ambientExport]

def ambientText : Source := .ofString "export declare const v: number;"

/-- The constant binds a name, which is not listed. -/
theorem not_always_exported :
    let file := Family.script.read "a.ts" "typescript" ambientText .default ambientScript;
    file.hasErrors = false ∧ ambientScript.Reaches [(ambientScript, 0)] ambientExport ∧
      ambientExport.type = "export_statement" ∧ ambientExport.hasToken "default" = false ∧
      ambientExport.child? "declaration" = some ambientDeclaration ∧ StandsFor ambientDeclaration ambientConstant ∧
      BindsNames ambientText ambientConstant ["v"] ∧ file.exports = [] ∧
      ¬ AddedAt (exported ambientText) ambientScript [(ambientScript, 0)] ambientExport
        ((["v"] ++ passedOn ambientText ambientExport).map (named ambientText ambientExport)) file.exports := by
  intro file
  have hclean : file.hasErrors = false := by decide +kernel
  have hreached : ambientScript.Reaches [(ambientScript, 0)] ambientExport := .child .root rfl rfl
  have hvariables : ambientConstant.type = "lexical_declaration" ∨ ambientConstant.type = "variable_declaration" :=
    .inl rfl
  have hnames : names ambientText (boundIn ambientConstant) = ["v"] := by
    rw [← declaredNames_of_variables ambientText hvariables]
    decide +kernel
  have hbinds : BindsNames ambientText ambientConstant ["v"] :=
    hnames ▸ .patterns hvariables (areBound_boundIn ambientConstant)
  refine ⟨hclean, hreached, rfl, by decide +kernel, rfl, .declare rfl (List.mem_singleton_self _), hbinds,
    by decide +kernel, ?_⟩
  intro hlisted
  have hnothing : exportsOf ambientText ambientExport = [] := by decide +kernel
  have hadded := exports_addedAt rfl hreached hclean
  rw [hnothing] at hadded
  exact absurd (hadded.eq hlisted) (by decide +kernel)

end CodeAtlas.Outline.Script
