import CodeAtlas.Grammar.Rule

/-! Arguments, decorators, class members, parameters and patterns of the TSX grammar. -/

namespace CodeAtlas.Dialect.Tsx

open CodeAtlas.Grammar CodeAtlas.Grammar.Rule

def members : List (String × Rule) := [
  ("arguments", seq ["(",
    commaSep (optional (choice [ref "expression", ref "spread_element"])),
    ")"]),
  ("decorator", seq ["@",
    choice [
      ref "identifier",
      shownAs "member_expression" (ref "decorator_member_expression"),
      shownAs "call_expression" (ref "decorator_call_expression"),
      shownAs "parenthesized_expression" (ref "decorator_parenthesized_expression")]]),
  ("decorator_member_expression", precNamed "member" (seq [
    field "object" (choice [
      ref "identifier",
      shownAs "member_expression" (ref "decorator_member_expression")]),
    ".",
    field "property" (shownAs "property_identifier" (ref "identifier"))])),
  ("decorator_call_expression", precNamed "call" (seq [
    field "function" (choice [
      ref "identifier",
      shownAs "member_expression" (ref "decorator_member_expression")]),
    optional (field "type_arguments" (ref "type_arguments")),
    field "arguments" (ref "arguments")])),
  ("class_body", seq ["\x7b",
    repeat0 (choice [
      seq [
        repeat0 (field "decorator" (ref "decorator")),
        ref "method_definition",
        optional (ref "_semicolon")],
      seq [ref "method_signature",
        choice [ref "_function_signature_automatic_semicolon", ","]],
      ref "class_static_block",
      seq [
        choice [
          ref "abstract_method_signature",
          ref "index_signature",
          ref "method_signature",
          ref "public_field_definition"],
        choice [ref "_semicolon", ","]],
      ";"]),
    "\x7d"]),
  ("formal_parameters", seq ["(",
    optional (seq [commaSep1 (ref "_formal_parameter"), optional ","]),
    ")"]),
  ("class_static_block", seq ["static", field "body" (ref "statement_block")]),
  ("pattern", dynamic (-1) (choice [ref "_lhs_expression", ref "rest_pattern"])),
  ("rest_pattern", right (.level 0) (seq ["...", ref "_lhs_expression"])),
  ("method_definition", left (.level 0) (seq [
    optional (ref "accessibility_modifier"),
    optional "static",
    optional (ref "override_modifier"),
    optional "readonly",
    optional "async",
    optional (choice ["get", "set", "*"]),
    field "name" (ref "_property_name"),
    optional "?",
    ref "_call_signature",
    field "body" (ref "statement_block")])),
  ("pair", seq [
    field "key" (ref "_property_name"), ":", field "value" (ref "expression")]),
  ("pair_pattern", seq [
    field "key" (ref "_property_name"),
    ":",
    field "value" (choice [ref "pattern", ref "assignment_pattern"])]),
  ("_property_name", choice [
    shownAs "property_identifier" (choice [ref "identifier", ref "_reserved_identifier"]),
    ref "private_property_identifier",
    ref "string",
    ref "number",
    ref "computed_property_name"]),
  ("computed_property_name", seq ["[", ref "expression", "]"]),
  ("_reserved_identifier", choice ["declare", "namespace", "type", "public", "private",
    "protected", "override", "readonly", "module", "any", "number", "boolean", "string",
    "symbol", "export", "object", "new", "get", "set", "async", "static", "let"]),
  ("_semicolon", choice [ref "_automatic_semicolon", ";"])]

end CodeAtlas.Dialect.Tsx
