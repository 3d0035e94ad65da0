import CodeAtlas.Outline.Sighting
import CodeAtlas.Tree.Fault
import CodeAtlas.Tree.Walk

/-! # Scripts

What an ECMAScript or TypeScript tree declares, imports and exports. An arrow function takes
the name of the variable that it initialises. -/

namespace CodeAtlas.Outline.Script

open CodeAtlas.Tree

/-- The parent of a node and the node's place among its children. -/
abbrev Above := Option (Node × Nat)

def visits (root : Node) : List (Above × Node) :=
  root.walk (fun _ n i => some (n, i)) none

/-! ## Node types -/

def functionDeclarations : List String :=
  ["function_declaration", "generator_function_declaration"]

def functionExpressions : List String :=
  ["function_expression", "function", "generator_function"]

def classDeclarations : List String := ["class_declaration", "abstract_class_declaration"]

def classExpressions : List String := ["class"]

def typeKind? (type : String) : Option EntityKind :=
  if type == "interface_declaration" then some .interface
  else if type == "type_alias_declaration" then some .typeAlias
  else none

def variableDeclarations : List String := ["lexical_declaration", "variable_declaration"]

def propertyMembers : List String := ["field_definition", "public_field_definition"]

def memberNames : List String :=
  ["property_identifier", "private_property_identifier", "identifier"]

/-! ## Parts of a declaration -/

def isExportValue (above : Above) : Bool :=
  match above with
  | some (parent, _) => parent.type == "export_statement"
  | none => false

/-- The text of a node, or what stands in for one that is absent or empty. -/
def textOr (s : Source) (n : Node) (other : String) : String :=
  (nonempty? (s.textOf? n)).getD other

/-- A parameter is known by its name if it is no more than a name. -/
def paramName (s : Source) (p : Node) : String :=
  if p.type == "identifier" then textOr s p unnamedParam
  else if p.type == "required_parameter" || p.type == "optional_parameter" then
    match p.child? "pattern" with
    | some pattern =>
      if pattern.type == "identifier" && (p.child? "value").isNone
          && (p.firstOfType? ["accessibility_modifier"]).isNone
      then textOr s pattern unnamedParam else unnamedParam
    | none => unnamedParam
  else unnamedParam

def params (s : Source) (n : Node) : List String :=
  match n.child? "parameter" with
  | some single => [paramName s single]
  | none => match n.child? "parameters" with
    | none => []
    | some list =>
      let listed := list.namedChildren.filter fun p =>
        p.type != "comment" && p.type != "decorator"
      listed.map (paramName s)

def callable (s : Source) (n : Node) : Traits :=
  { Traits.none with
    params? := some (params s n)
    returnType? := returnType? s n
    isAsync? := some (n.hasToken "async") }

def arrowName (s : Source) (above : Above) : String :=
  match above with
  | none => anonymous
  | some (parent, i) =>
    if parent.type != "variable_declarator" then anonymous
    else match parent.child? "name" with
      | none => anonymous
      | some name =>
        let isValue := parent.children.findIdx? (·.face.field? == some "value") == some i
        if name.type == "identifier" && isValue then textOr s name anonymous else anonymous

/-- What stands between the quotes of a string. -/
def stringValue (s : Source) (n : Node) : String :=
  match n.namedChildren.filter (·.type == "string_fragment") with
  | [] =>
    let text := (s.textOf? n).getD ""
    match text.toList with
    | q :: rest =>
      if rest.getLast? == some q && ['\'', '"', '\x60'].contains q then
        String.ofList rest.dropLast
      else text
    | [] => text
  | fragments => String.join (fragments.map fun f => (s.textOf? f).getD "")

mutual
/-- The names that a pattern binds, in the order of the text. -/
def boundNames (s : Source) : Node → List String
  | .mk f cs =>
    if f.type == "identifier" || f.type == "shorthand_property_identifier_pattern" then
      (nonempty? (s.textOf? (.mk f cs))).toList
    else if f.type == "pair_pattern" then boundInField s "value" cs
    else if f.type == "assignment_pattern" || f.type == "object_assignment_pattern" then
      boundInField s "left" cs
    else if f.type == "object_pattern" || f.type == "array_pattern" || f.type == "rest_pattern"
    then boundInNamed s cs
    else []
/-- The names that the first child with a field name binds. -/
def boundInField (s : Source) (field : String) : List Node → List String
  | [] => []
  | c :: cs => if c.face.field? == some field then boundNames s c else boundInField s field cs
def boundInNamed (s : Source) : List Node → List String
  | [] => []
  | c :: cs => if c.face.named then boundNames s c ++ boundInNamed s cs else boundInNamed s cs
end

mutual
/-- How many calls inside each other read the names of a pattern: one for each pattern on the way to a name,
and at the name one more for its text. -/
def nesting : Node → Nat
  | .mk f cs =>
    if f.type == "identifier" || f.type == "shorthand_property_identifier_pattern" then 2
    else if f.type == "pair_pattern" then 1 + nestingInField "value" cs
    else if f.type == "assignment_pattern" || f.type == "object_assignment_pattern" then
      1 + nestingInField "left" cs
    else if f.type == "object_pattern" || f.type == "array_pattern" || f.type == "rest_pattern"
    then 1 + nestingInNamed cs
    else 1
/-- As many as the first child with a field name needs. Also an absent child is asked for its names. -/
def nestingInField (field : String) : List Node → Nat
  | [] => 1
  | c :: cs => if c.face.field? == some field then nesting c else nestingInField field cs
/-- As many as that one of the named children needs that needs most. -/
def nestingInNamed : List Node → Nat
  | [] => 0
  | c :: cs => if c.face.named then max (nesting c) (nestingInNamed cs) else nestingInNamed cs
end

/-! ## Classes -/

def memberKey? (member : Node) : Option Node :=
  member.child? "name" <|> member.child? "property"

def memberName (s : Source) (member : Node) : String :=
  match memberKey? member with
  | some key => if memberNames.contains key.type then textOr s key anonymous else anonymous
  | none => anonymous

/-- The text of an accessibility modifier, if the member has one. -/
def modifierText? (s : Source) (member : Node) : Option String :=
  (member.firstOfType? ["accessibility_modifier"]).map fun m =>
    Text.trim (textOr s m Visibility.everyone.name)

def unknownVisibility (text : String) : String :=
  s!"{Text.quoted text} is not a valid Visibility"

def memberVisibility (s : Source) (member : Node) : Except String Visibility :=
  match modifierText? s member with
  | some text => match Visibility.ofName? text with
    | some v => .ok v
    | none => .error (unknownVisibility text)
  | none => match memberKey? member with
    | some key =>
      .ok (if key.type == "private_property_identifier" then .owner else .everyone)
    | none => .ok .everyone

/-- What a member of a class body declares, if anything. -/
def member (path : String) (s : Source) (owner : String) (m : Node) :
    Except String (List Finding) :=
  if m.type == "method_definition" then do
    let v ← memberVisibility s m
    return [sight path s m (memberName s m) .method
      { callable s m with parentClass? := some owner, visibility? := some v }]
  else if propertyMembers.contains m.type then do
    let v ← memberVisibility s m
    return [sight path s m (memberName s m) .property
      { Traits.none with parentClass? := some owner, visibility? := some v }]
  else return []

def members (path : String) (s : Source) (owner : String) (body? : Option Node) :
    Except String (List Finding) :=
  match body? with
  | none => return []
  | some body => do return (← body.namedChildren.mapM (member path s owner)).flatten

/-! ## Imports and exports -/

def noModule (s : Source) (n : Node) : String :=
  "'import' and 'export' may appear only with 'sourceType: \"module\"' " ++ place s n

def importedName (s : Source) (spec : Node) : Option String :=
  (spec.child? "name").map fun name =>
    if name.type == "string" then stringValue s name else (s.textOf? name).getD ""

/-- The names that a part of an import clause brings in. -/
def clauseNames (s : Source) (part : Node) : List String :=
  if part.type == "identifier" then [(s.textOf? part).getD ""]
  else if part.type == "namespace_import" then
    [((part.firstOfType? ["identifier"]).bind s.textOf?).getD ""]
  else if part.type == "named_imports" then
    (part.namedChildren.filter (·.type == "import_specifier")).filterMap (importedName s)
  else []

def importOf? (s : Source) (n : Node) : Option Import :=
  (n.child? "source").map fun source =>
    let parts := match n.firstOfType? ["import_clause"] with
      | some clause => clause.namedChildren
      | none => []
    { source := stringValue s source
      names := parts.flatMap (clauseNames s)
      isDefault := parts.any (·.type == "identifier")
      isNamespace := parts.any (·.type == "namespace_import")
      line := s.line n }

/-- The name of a default export. -/
def defaultName (s : Source) (n : Node) : String :=
  match n.child? "declaration" <|> n.child? "value" with
  | none => "default"
  | some target =>
    if target.type == "identifier" then textOr s target "default" else nameOr s target "default"

def exportedName? (s : Source) (n : Node) : Option String :=
  nonempty? (if n.type == "string" then some (stringValue s n) else s.textOf? n)

/-- The names that a declaration behind `export` exports. -/
def declaredNames (s : Source) (declaration : Node) : List String :=
  if variableDeclarations.contains declaration.type then
    (declaration.namedChildren.filter (·.type == "variable_declarator")).flatMap fun d =>
      match d.child? "name" with
      | some pattern => boundNames s pattern
      | none => []
  else (nonempty? (s.fieldText? declaration "name")).toList

def namespaceName? (s : Source) (n : Node) : Option String :=
  (n.firstOfType? ["namespace_export"]).bind fun e =>
    e.namedChildren.head?.bind (exportedName? s)

def specifierNames (s : Source) (n : Node) : List String :=
  match n.firstOfType? ["export_clause"] with
  | none => []
  | some clause =>
    (clause.namedChildren.filter (·.type == "export_specifier")).filterMap fun spec =>
      (spec.child? "alias" <|> spec.child? "name").bind (exportedName? s)

def exportsOf (s : Source) (n : Node) : List Export :=
  if n.hasToken "default" then [⟨defaultName s n, true, s.line n⟩]
  else
    let declared := match n.child? "declaration" with
      | some d => declaredNames s d
      | none => []
    (declared ++ (namespaceName? s n).toList ++ specifierNames s n).map fun name =>
      ⟨name, false, s.line n⟩

/-! ## Visits -/

/-- Whether a node declares a function; an expression does so only as an exported value. -/
def isFunction (above : Above) (n : Node) : Bool :=
  functionDeclarations.contains n.type ||
    (functionExpressions.contains n.type && isExportValue above)

def isClass (above : Above) (n : Node) : Bool :=
  classDeclarations.contains n.type || (classExpressions.contains n.type && isExportValue above)

/-- What a visit finds, or why the file is refused. -/
def findings (path : String) (s : Source) (sourceType : SourceType) (above : Above) (n : Node) :
    Except String (List Finding) :=
  if n.type == "arrow_function" then
    return [sight path s n (arrowName s above) .function (callable s n)]
  else if n.type == "import_statement" then
    if sourceType = .asScript then .error (noModule s n)
    else return ((importOf? s n).map Finding.importing).toList
  else if n.type == "export_statement" then
    if sourceType = .asScript then .error (noModule s n)
    else return (exportsOf s n).map .exporting
  else if isFunction above n then
    return [sight path s n (nameOr s n anonymous) .function
      { callable s n with isExported? := some (isExportValue above) }]
  else if isClass above n then do
    let name := nameOr s n anonymousClass
    let inside ← members path s name (n.child? "body")
    return sight path s n name .«class»
      { Traits.none with isExported? := some (isExportValue above) } :: inside
  else match typeKind? n.type with
    | some kind =>
      return [sight path s n (nameOr s n anonymous) kind
        { Traits.none with isExported? := some (isExportValue above) }]
    | none => return []

/-- There is room for this many calls inside each other below a visit: an interpreter allows a thousand,
the calls that lead to the visit among them. -/
def nestingLimit : Nat := 980

/-- Whether the names of a declarator cannot be read for want of room. -/
def isTooDeep (declarator : Node) : Bool :=
  match declarator.child? "name" with
  | some pattern => nestingLimit < nesting pattern
  | none => false

/-- Whether a node is an export of variables one of which has a name that cannot be read. -/
def nestsTooDeep (n : Node) : Bool :=
  n.type == "export_statement" && !n.hasToken "default" &&
    match n.child? "declaration" with
    | some d => variableDeclarations.contains d.type &&
        (d.namedChildren.filter (·.type == "variable_declarator")).any isTooDeep
    | none => false

/-- Why a walk ends before all nodes are visited. -/
inductive Stop
  | refused (message : String)
  | exceeded
  deriving Repr, DecidableEq

/-- Why the walk ends at a visit, if it does. -/
def stop? (path : String) (s : Source) (sourceType : SourceType) (above : Above) (n : Node) :
    Option Stop :=
  match findings path s sourceType above n with
  | .error message => some (.refused message)
  | .ok _ => if nestsTooDeep n then some .exceeded else none

/-- Whether the walk through a tree breaks off without a result. -/
def breaksOff (path : String) (s : Source) (sourceType : SourceType) (root : Node) : Bool :=
  (visits root).findSome? (fun (above, n) => stop? path s sourceType above n) == some .exceeded

/-- Everything that a tree declares, in the order of the walk, unless the walk breaks off. -/
def extract (path : String) (s : Source) (sourceType : SourceType) (root : Node) :
    Except String (List Finding) := do
  return (← (visits root).mapM fun (above, n) => findings path s sourceType above n).flatten

end CodeAtlas.Outline.Script
