import CodeAtlas.Outline.Sighting
import CodeAtlas.Text.Case
import CodeAtlas.Tree.Walk

/-! # PHP files

What a PHP tree declares and imports. Methods and properties belong to the innermost class,
interface, trait or enum around them, however deep they sit. -/

namespace CodeAtlas.Outline.Php

open CodeAtlas.Tree

/-- What a node declares. -/
inductive Role
  | classLike
  | interface
  | method
  | function
  | property
  | useImport
  | other
  deriving Repr, DecidableEq

def Role.of (n : Node) : Role :=
  match n.type with
  | "class_declaration" | "anonymous_class" => .classLike
  | "interface_declaration" => .interface
  | "method_declaration" => .method
  | "function_definition" => .function
  | "property_declaration" => .property
  | "namespace_use_declaration" => .useImport
  | "object_creation_expression" =>
    if (n.firstOfType? ["declaration_list"]).isSome then .classLike else .other
  | _ => .other

/-- The scope that a node opens for what is below it, given the scope around it. A trait or
enum is not reported but owns its members. -/
def scopeBelow (s : Source) (enclosing : Option String) (n : Node) : Option String :=
  match Role.of n with
  | .classLike => some (nameOr s n anonymousClass)
  | .interface => some (nameOr s n anonymousInterface)
  | .other =>
    if n.type == "trait_declaration" || n.type == "enum_declaration" then
      nonempty? (s.fieldText? n "name") <|> enclosing
    else enclosing
  | _ => enclosing

def visits (s : Source) (root : Node) : List (Option String × Node) :=
  root.walk (fun enclosing n _ => scopeBelow s enclosing n) none

/-- The name of a variable without the sign before it. -/
def variableName? (s : Source) (n : Node) : Option String :=
  match (if n.type == "variable_name" then n.firstOfType? ["name"] else none) with
  | some name => s.textOf? name
  | none => (nonempty? (s.textOf? n)).map (Text.dropLeading '$')

def parameterTypes : List String :=
  ["simple_parameter", "variadic_parameter", "property_promotion_parameter"]

def params (s : Source) (n : Node) : List String :=
  match n.child? "parameters" with
  | none => []
  | some list =>
    (list.namedChildren.filter fun p => parameterTypes.contains p.type).map fun p =>
      (nonempty? ((p.child? "name").bind (variableName? s))).getD unnamedParam

/-- The visibility that a modifier states; a modifier for writing alone counts as its word. -/
def visibilityOf (s : Source) (n : Node) : Visibility :=
  match n.firstOfType? ["visibility_modifier"] with
  | none => .everyone
  | some m =>
    let text := (nonempty? (s.textOf? m)).getD Visibility.everyone.name
    let word := String.ofList (text.toList.takeWhile (· != '('))
    (Visibility.ofName? (Text.lower (Text.trim word))).getD .everyone

def callable (s : Source) (n : Node) : Traits :=
  { Traits.none with params? := some (params s n), returnType? := returnType? s n }

/-! ## Imports -/

def useClauses : List String := ["namespace_use_clause", "namespace_use_group_clause"]

def useNames : List String := ["qualified_name", "namespace_name", "name"]

def clauseAlias? (s : Source) (clause : Node) : Option String :=
  let alias? := match clause.child? "alias" with
    | some a => some a
    | none => (clause.firstOfType? ["namespace_aliasing_clause"]).bind fun aliasing =>
      aliasing.firstOfType? ["name"]
  nonempty? (alias?.bind s.textOf?)

/-- What stands behind the last backslash. -/
def lastSegment (name : String) : String :=
  String.ofList (name.toList.reverse.takeWhile (· != '\\')).reverse

def importOf? (s : Source) (outer? : Option String) (clause : Node) : Option Import :=
  (nonempty? ((clause.firstOfType? useNames).bind s.textOf?)).map fun name =>
    let own := (nonempty? (some (lastSegment name))).getD name
    { source := match nonempty? outer? with
        | some outer => outer ++ "\\" ++ name
        | none => name
      names := [(clauseAlias? s clause).getD own]
      isDefault := false
      isNamespace := false
      line := s.line clause }

/-- One import for each clause, of the group if there is one. -/
def importsOf (s : Source) (n : Node) : List Import :=
  let isClause (c : Node) : Bool := useClauses.contains c.type
  match n.firstOfType? ["namespace_use_group"] with
  | some group =>
    let outer? := (n.firstOfType? ["namespace_name"]).bind s.textOf?
    (group.namedChildren.filter isClause).filterMap (importOf? s outer?)
  | none => (n.namedChildren.filter isClause).filterMap (importOf? s none)

/-! ## Visits -/

def propertyElements (n : Node) : List Node :=
  n.namedChildren.filter (·.type == "property_element")

def property (path : String) (s : Source) (enclosing : Option String) (v : Visibility)
    (element : Node) : Finding :=
  let holder? := element.child? "name" <|> element.firstOfType? ["variable_name"]
  let name := (nonempty? (holder?.bind (variableName? s))).getD anonymous
  sight path s element name .property
    { Traits.none with parentClass? := enclosing, visibility? := some v }

def findings (path : String) (s : Source) (enclosing : Option String) (n : Node) :
    List Finding :=
  match Role.of n with
  | .classLike => [sight path s n (nameOr s n anonymousClass) .«class» .none]
  | .interface => [sight path s n (nameOr s n anonymousInterface) .interface .none]
  | .method => [sight path s n (nameOr s n anonymous) .method
      { callable s n with parentClass? := enclosing, visibility? := some (visibilityOf s n) }]
  | .function => [sight path s n (nameOr s n anonymous) .function (callable s n)]
  | .property => (propertyElements n).map (property path s enclosing (visibilityOf s n))
  | .useImport => (importsOf s n).map .importing
  | .other => []

/-- Everything that a tree declares, in the order of the walk. -/
def extract (path : String) (s : Source) (root : Node) : List Finding :=
  (visits s root).flatMap fun (enclosing, n) => findings path s enclosing n

end CodeAtlas.Outline.Php
