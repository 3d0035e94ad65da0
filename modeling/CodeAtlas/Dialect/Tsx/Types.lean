import CodeAtlas.Grammar.Rule

/-! Type annotations and the declarations that come with them, as TSX has them. -/

namespace CodeAtlas.Dialect.Tsx

open CodeAtlas.Grammar CodeAtlas.Grammar.Rule

def declarations : List (String × Rule) := [
  ("public_field_definition", seq [
    repeat0 (field "decorator" (ref "decorator")),
    optional (choice [
      seq ["declare", optional (ref "accessibility_modifier")],
      seq [ref "accessibility_modifier", optional "declare"]]),
    choice [
      seq [optional "static", optional (ref "override_modifier"), optional "readonly"],
      seq [optional "abstract", optional "readonly"],
      seq [optional "readonly", optional "abstract"],
      optional "accessor"],
    field "name" (ref "_property_name"),
    optional (choice ["?", "!"]),
    field "type" (optional (ref "type_annotation")),
    optional (ref "_initializer")]),
  ("_jsx_start_opening_element", seq ["<",
    optional (seq [
      choice [
        field "name" (choice [ref "_jsx_identifier", ref "jsx_namespace_name"]),
        seq [
          field "name" (choice [
            ref "identifier",
            shownAs "member_expression" (ref "nested_identifier")]),
          field "type_arguments" (optional (ref "type_arguments"))]],
      repeat0 (field "attribute" (ref "_jsx_attribute"))])]),
  ("_import_identifier", choice [ref "identifier", shownAs "identifier" "type"]),
  ("non_null_expression", left (.named "unary") (seq [ref "expression", "!"])),
  ("method_signature", seq [
    optional (ref "accessibility_modifier"),
    optional "static",
    optional (ref "override_modifier"),
    optional "readonly",
    optional "async",
    optional (choice ["get", "set", "*"]),
    field "name" (ref "_property_name"),
    optional "?",
    ref "_call_signature"]),
  ("abstract_method_signature", seq [
    optional (ref "accessibility_modifier"),
    "abstract",
    optional (ref "override_modifier"),
    optional (choice ["get", "set", "*"]),
    field "name" (ref "_property_name"),
    optional "?",
    ref "_call_signature"]),
  ("function_signature", seq [
    optional "async",
    "function",
    field "name" (ref "identifier"),
    ref "_call_signature",
    choice [ref "_semicolon", ref "_function_signature_automatic_semicolon"]]),
  ("decorator_parenthesized_expression", seq ["(",
    choice [
      ref "identifier",
      shownAs "member_expression" (ref "decorator_member_expression"),
      shownAs "call_expression" (ref "decorator_call_expression")],
    ")"]),
  ("as_expression", left (.named "binary") (seq [
    ref "expression", "as", choice ["const", ref "type"]])),
  ("satisfies_expression", left (.named "binary") (seq [
    ref "expression", "satisfies", ref "type"])),
  ("instantiation_expression", precNamed "instantiation" (seq [
    ref "expression", field "type_arguments" (ref "type_arguments")])),
  ("import_require_clause", seq [
    ref "identifier", "=", "require", "(", field "source" (ref "string"), ")"]),
  ("extends_clause", seq ["extends", commaSep1 (ref "_extends_clause_single")]),
  ("_extends_clause_single", precNamed "extends" (seq [
    field "value" (ref "expression"),
    field "type_arguments" (optional (ref "type_arguments"))])),
  ("implements_clause", seq ["implements", commaSep1 (ref "type")]),
  ("ambient_declaration", seq ["declare",
    choice [
      ref "declaration",
      seq ["global", ref "statement_block"],
      seq ["module", ".", shownAs "property_identifier" (ref "identifier"), ":", ref "type",
        ref "_semicolon"]]]),
  ("abstract_class_declaration", precNamed "declare" (seq [
    repeat0 (field "decorator" (ref "decorator")),
    "abstract",
    "class",
    field "name" (ref "_type_identifier"),
    field "type_parameters" (optional (ref "type_parameters")),
    optional (ref "class_heritage"),
    field "body" (ref "class_body")])),
  ("module", seq ["module", ref "_module"]),
  ("internal_module", seq ["namespace", ref "_module"]),
  ("_module", right (.level 0) (seq [
    field "name" (choice [ref "string", ref "identifier", ref "nested_identifier"]),
    field "body" (optional (ref "statement_block"))])),
  ("import_alias", seq ["import", ref "identifier", "=",
    choice [ref "identifier", ref "nested_identifier"], ref "_semicolon"]),
  ("nested_type_identifier", precNamed "member" (seq [
    field "module" (choice [ref "identifier", ref "nested_identifier"]),
    ".",
    field "name" (ref "_type_identifier")])),
  ("interface_declaration", precNamed "declare" (seq ["interface",
    field "name" (ref "_type_identifier"),
    field "type_parameters" (optional (ref "type_parameters")),
    optional (ref "extends_type_clause"),
    field "body" (shownAs "interface_body" (ref "object_type"))])),
  ("extends_type_clause", seq ["extends",
    commaSep1 (field "type" (choice [
      ref "_type_identifier", ref "nested_type_identifier", ref "generic_type"]))]),
  ("enum_declaration", precNamed "declare" (seq [
    optional "const",
    "enum",
    field "name" (ref "identifier"),
    field "body" (ref "enum_body")])),
  ("enum_body", seq ["\x7b",
    optional (seq [
      sepBy1 "," (choice [field "name" (ref "_property_name"), ref "enum_assignment"]),
      optional ","]),
    "\x7d"]),
  ("enum_assignment", seq [field "name" (ref "_property_name"), ref "_initializer"]),
  ("type_alias_declaration", precNamed "declare" (seq ["type",
    field "name" (ref "_type_identifier"),
    field "type_parameters" (optional (ref "type_parameters")),
    "=",
    field "value" (ref "type"),
    ref "_semicolon"])),
  ("accessibility_modifier", choice ["public", "private", "protected"]),
  ("override_modifier", text "override"),
  ("required_parameter", seq [
    ref "_parameter_name",
    field "type" (optional (ref "type_annotation")),
    optional (ref "_initializer")]),
  ("optional_parameter", seq [
    ref "_parameter_name",
    "?",
    field "type" (optional (ref "type_annotation")),
    optional (ref "_initializer")]),
  ("_parameter_name", seq [
    repeat0 (field "decorator" (ref "decorator")),
    optional (ref "accessibility_modifier"),
    optional (ref "override_modifier"),
    optional "readonly",
    field "pattern" (choice [ref "pattern", ref "this"])])]

/-- An object in front of a dot in a type query. -/
def queryObject : Rule := choice [
  ref "identifier",
  ref "this",
  shownAs "subscript_expression" (ref "_type_query_subscript_expression"),
  shownAs "member_expression" (ref "_type_query_member_expression"),
  shownAs "call_expression" (ref "_type_query_call_expression")]

/-- What a type query calls or instantiates. -/
def queryFunction : Rule := choice [
  ref "import",
  ref "identifier",
  shownAs "member_expression" (ref "_type_query_member_expression"),
  shownAs "subscript_expression" (ref "_type_query_subscript_expression")]

def property : Rule := choice [
  ref "private_property_identifier", shownAs "property_identifier" (ref "identifier")]

def types : List (String × Rule) := [
  ("omitting_type_annotation", seq ["-?:", ref "type"]),
  ("adding_type_annotation", seq ["+?:", ref "type"]),
  ("opting_type_annotation", seq ["?:", ref "type"]),
  ("type_annotation", seq [":",
    choice [
      ref "type",
      shownAs "member_expression" (ref "_type_query_member_expression_in_type_annotation"),
      shownAs "call_expression" (ref "_type_query_call_expression_in_type_annotation")]]),
  ("_type_query_member_expression_in_type_annotation", seq [
    field "object" (choice [
      ref "import",
      shownAs "member_expression" (ref "_type_query_member_expression_in_type_annotation"),
      shownAs "call_expression" (ref "_type_query_call_expression_in_type_annotation")]),
    ".",
    field "property" property]),
  ("_type_query_call_expression_in_type_annotation", seq [
    field "function" (choice [
      ref "import",
      shownAs "member_expression" (ref "_type_query_member_expression_in_type_annotation")]),
    field "arguments" (ref "arguments")]),
  ("asserts", seq ["asserts", choice [ref "type_predicate", ref "identifier", ref "this"]]),
  ("asserts_annotation", seq [":", ref "asserts"]),
  ("type", choice [
    ref "primary_type",
    ref "function_type",
    ref "readonly_type",
    ref "constructor_type",
    ref "infer_type",
    precLevel (-1)
      (shownAs "member_expression" (ref "_type_query_member_expression_in_type_annotation")),
    precLevel (-1)
      (shownAs "call_expression" (ref "_type_query_call_expression_in_type_annotation"))]),
  ("tuple_parameter", seq [
    field "name" (choice [ref "identifier", ref "rest_pattern"]),
    field "type" (ref "type_annotation")]),
  ("optional_tuple_parameter", seq [
    field "name" (ref "identifier"), "?", field "type" (ref "type_annotation")]),
  ("optional_type", seq [ref "type", "?"]),
  ("rest_type", seq ["...", ref "type"]),
  ("_tuple_type_member", choice [
    shownAs "required_parameter" (ref "tuple_parameter"),
    shownAs "optional_parameter" (ref "optional_tuple_parameter"),
    ref "optional_type",
    ref "rest_type",
    ref "type"]),
  ("constructor_type", left (.level 0) (seq [
    optional "abstract",
    "new",
    field "type_parameters" (optional (ref "type_parameters")),
    field "parameters" (ref "formal_parameters"),
    "=>",
    field "type" (ref "type")])),
  ("primary_type", choice [
    ref "parenthesized_type",
    ref "predefined_type",
    ref "_type_identifier",
    ref "nested_type_identifier",
    ref "generic_type",
    ref "object_type",
    ref "array_type",
    ref "tuple_type",
    ref "flow_maybe_type",
    ref "type_query",
    ref "index_type_query",
    shownAs "this_type" (ref "this"),
    ref "existential_type",
    ref "literal_type",
    ref "lookup_type",
    ref "conditional_type",
    ref "template_literal_type",
    ref "intersection_type",
    ref "union_type",
    "const"]),
  ("template_type", seq ["$\x7b", choice [ref "primary_type", ref "infer_type"], "\x7d"]),
  ("template_literal_type", seq ["\x60",
    repeat0 (choice [
      shownAs "string_fragment" (ref "_template_chars"),
      ref "template_type"]),
    "\x60"]),
  ("infer_type", right (.level 0) (seq ["infer", ref "_type_identifier",
    optional (seq ["extends", ref "type"])])),
  ("conditional_type", right (.level 0) (seq [
    field "left" (ref "type"),
    "extends",
    field "right" (ref "type"),
    "?",
    field "consequence" (ref "type"),
    ":",
    field "alternative" (ref "type")])),
  ("generic_type", precNamed "call" (seq [
    field "name" (choice [ref "_type_identifier", ref "nested_type_identifier"]),
    field "type_arguments" (ref "type_arguments")])),
  ("type_predicate", seq [
    field "name" (choice [
      ref "identifier", ref "this", shownAs "identifier" (ref "predefined_type")]),
    "is",
    field "type" (ref "type")]),
  ("type_predicate_annotation", seq [":", ref "type_predicate"]),
  ("_type_query_member_expression", seq [
    field "object" queryObject, choice [".", "?."], field "property" property]),
  ("_type_query_subscript_expression", seq [
    field "object" queryObject,
    optional "?.",
    "[",
    field "index" (choice [ref "predefined_type", ref "string", ref "number"]),
    "]"]),
  ("_type_query_call_expression", seq [
    field "function" queryFunction, field "arguments" (ref "arguments")]),
  ("_type_query_instantiation_expression", seq [
    field "function" queryFunction, field "type_arguments" (ref "type_arguments")]),
  ("type_query", right (.level 0) (seq ["typeof",
    choice [
      shownAs "subscript_expression" (ref "_type_query_subscript_expression"),
      shownAs "member_expression" (ref "_type_query_member_expression"),
      shownAs "call_expression" (ref "_type_query_call_expression"),
      shownAs "instantiation_expression" (ref "_type_query_instantiation_expression"),
      ref "identifier",
      ref "this"]])),
  ("index_type_query", seq ["keyof", ref "primary_type"]),
  ("lookup_type", seq [ref "primary_type", "[", ref "type", "]"]),
  ("mapped_type_clause", seq [
    field "name" (ref "_type_identifier"),
    "in",
    field "type" (ref "type"),
    optional (seq ["as", field "alias" (ref "type")])]),
  ("literal_type", choice [
    shownAs "unary_expression" (ref "_number"),
    ref "number",
    ref "string",
    ref "true",
    ref "false",
    ref "null",
    ref "undefined"]),
  ("_number", left (.level 1) (seq [
    field "operator" (choice ["-", "+"]), field "argument" (ref "number")])),
  ("existential_type", text "*"),
  ("flow_maybe_type", right (.level 0) (seq ["?", ref "primary_type"])),
  ("parenthesized_type", seq ["(", ref "type", ")"]),
  ("predefined_type", choice ["any", "number", "boolean", "string", "symbol",
    shownAsText "unique symbol" (seq ["unique", "symbol"]),
    "void", "unknown", "never", "object"]),
  ("type_arguments", seq ["<", commaSep1 (ref "type"), optional ",", ">"]),
  ("object_type", seq [choice ["\x7b", "\x7b|"],
    optional (seq [
      optional (choice [",", ";"]),
      sepBy1 (choice [",", ref "_semicolon"]) (choice [
        ref "export_statement",
        ref "property_signature",
        ref "call_signature",
        ref "construct_signature",
        ref "index_signature",
        ref "method_signature"]),
      optional (choice [",", ref "_semicolon"])]),
    choice ["\x7d", "|\x7d"]]),
  ("call_signature", ref "_call_signature"),
  ("property_signature", seq [
    optional (ref "accessibility_modifier"),
    optional "static",
    optional (ref "override_modifier"),
    optional "readonly",
    field "name" (ref "_property_name"),
    optional "?",
    field "type" (optional (ref "type_annotation"))]),
  ("type_parameters", seq ["<", commaSep1 (ref "type_parameter"), optional ",", ">"]),
  ("type_parameter", seq [
    optional "const",
    field "name" (ref "_type_identifier"),
    field "constraint" (optional (ref "constraint")),
    field "value" (optional (ref "default_type"))]),
  ("default_type", seq ["=", ref "type"]),
  ("constraint", seq [choice ["extends", ":"], ref "type"]),
  ("construct_signature", seq [
    optional "abstract",
    "new",
    field "type_parameters" (optional (ref "type_parameters")),
    field "parameters" (ref "formal_parameters"),
    field "type" (optional (ref "type_annotation"))]),
  ("index_signature", seq [
    optional (seq [field "sign" (optional (choice ["-", "+"])), "readonly"]),
    "[",
    choice [
      seq [
        field "name"
          (choice [ref "identifier", shownAs "identifier" (ref "_reserved_identifier")]),
        ":",
        field "index_type" (ref "type")],
      ref "mapped_type_clause"],
    "]",
    field "type" (choice [
      ref "type_annotation",
      ref "omitting_type_annotation",
      ref "adding_type_annotation",
      ref "opting_type_annotation"])]),
  ("array_type", seq [ref "primary_type", "[", "]"]),
  ("tuple_type", seq ["[", commaSep (ref "_tuple_type_member"), optional ",", "]"]),
  ("readonly_type", seq ["readonly", ref "type"]),
  ("union_type", left (.level 0) (seq [optional (ref "type"), "|", ref "type"])),
  ("intersection_type", left (.level 0) (seq [optional (ref "type"), "&", ref "type"])),
  ("function_type", left (.level 0) (seq [
    field "type_parameters" (optional (ref "type_parameters")),
    field "parameters" (ref "formal_parameters"),
    "=>",
    field "return_type" (choice [ref "type", ref "asserts", ref "type_predicate"])])),
  ("_type_identifier", shownAs "type_identifier" (ref "identifier"))]

end CodeAtlas.Dialect.Tsx
