import CodeAtlas.Grammar.Rule

/-! Expressions of the TSX grammar, markup elements and functions among them. -/

namespace CodeAtlas.Dialect.Tsx

open CodeAtlas.Grammar CodeAtlas.Grammar.Rule

/-- Operators between two expressions with their rank; all group to the left but one. -/
def binaryOperators : List (String × String × Side) := [
  ("&&", "logical_and", .left),
  ("||", "logical_or", .left),
  (">>", "binary_shift", .left),
  (">>>", "binary_shift", .left),
  ("<<", "binary_shift", .left),
  ("&", "bitwise_and", .left),
  ("^", "bitwise_xor", .left),
  ("|", "bitwise_or", .left),
  ("+", "binary_plus", .left),
  ("-", "binary_plus", .left),
  ("*", "binary_times", .left),
  ("/", "binary_times", .left),
  ("%", "binary_times", .left),
  ("**", "binary_exp", .right),
  ("<", "binary_relation", .left),
  ("<=", "binary_relation", .left),
  ("==", "binary_equality", .left),
  ("===", "binary_equality", .left),
  ("!=", "binary_equality", .left),
  ("!==", "binary_equality", .left),
  (">=", "binary_relation", .left),
  (">", "binary_relation", .left),
  ("??", "ternary", .left),
  ("instanceof", "binary_relation", .left),
  ("in", "binary_relation", .left)]

def binaryExpression (operator rank : String) (side : Side) : Rule :=
  let operand := if operator == "in"
    then choice [ref "expression", ref "private_property_identifier"]
    else ref "expression"
  let body := seq [field "left" operand, field "operator" operator,
    field "right" (ref "expression")]
  match side with
  | .left => left (.named rank) body
  | .right => right (.named rank) body

def augmentedOperators : List Rule :=
  ["+=", "-=", "*=", "/=", "%=", "^=", "&=", "|=", ">>=", ">>>=", "<<=", "**=", "&&=", "||=",
    "??="]

/-- A name, or a word that is only sometimes a name. -/
def anyIdentifier : Rule := choice [ref "identifier", ref "_reserved_identifier"]

def expressions : List (String × Rule) := [
  ("parenthesized_expression", seq ["(",
    choice [
      seq [ref "expression", field "type" (optional (ref "type_annotation"))],
      ref "sequence_expression"],
    ")"]),
  ("_expressions", choice [ref "expression", ref "sequence_expression"]),
  ("expression", choice [
    ref "as_expression",
    ref "satisfies_expression",
    ref "instantiation_expression",
    ref "internal_module",
    ref "primary_expression",
    ref "_jsx_element",
    ref "assignment_expression",
    ref "augmented_assignment_expression",
    ref "await_expression",
    ref "unary_expression",
    ref "binary_expression",
    ref "ternary_expression",
    ref "update_expression",
    ref "new_expression",
    ref "yield_expression",
    ref "arrow_function"]),
  ("primary_expression", choice [
    ref "subscript_expression",
    ref "member_expression",
    ref "parenthesized_expression",
    ref "_identifier",
    shownAs "identifier" (ref "_reserved_identifier"),
    ref "this",
    ref "super",
    ref "number",
    ref "string",
    ref "template_string",
    ref "regex",
    ref "true",
    ref "false",
    ref "null",
    ref "object",
    ref "array",
    ref "function_expression",
    ref "arrow_function",
    ref "generator_function",
    ref "class",
    ref "meta_property",
    ref "call_expression",
    ref "non_null_expression"]),
  ("yield_expression", right (.level 0) (seq ["yield",
    choice [seq ["*", ref "expression"], optional (ref "expression")]])),
  ("object", precNamed "object" (seq ["\x7b",
    commaSep (optional (choice [
      ref "pair",
      ref "spread_element",
      ref "method_definition",
      shownAs "shorthand_property_identifier" anyIdentifier])),
    "\x7d"])),
  ("object_pattern", precNamed "object" (seq ["\x7b",
    commaSep (optional (choice [
      ref "pair_pattern",
      ref "rest_pattern",
      ref "object_assignment_pattern",
      shownAs "shorthand_property_identifier_pattern" anyIdentifier])),
    "\x7d"])),
  ("assignment_pattern", seq [
    field "left" (ref "pattern"), "=", field "right" (ref "expression")]),
  ("object_assignment_pattern", seq [
    field "left" (choice [
      shownAs "shorthand_property_identifier_pattern"
        (choice [ref "_reserved_identifier", ref "identifier"]),
      ref "_destructuring_pattern"]),
    "=",
    field "right" (ref "expression")]),
  ("array", seq ["[",
    commaSep (optional (choice [ref "expression", ref "spread_element"])),
    "]"]),
  ("array_pattern", seq ["[",
    commaSep (optional (choice [ref "pattern", ref "assignment_pattern"])),
    "]"]),
  ("_jsx_element", choice [ref "jsx_element", ref "jsx_self_closing_element"]),
  ("jsx_element", seq [
    field "open_tag" (ref "jsx_opening_element"),
    repeat0 (ref "_jsx_child"),
    field "close_tag" (ref "jsx_closing_element")]),
  ("html_character_reference", pattern (.seqOf [
    .text "&",
    .anyOf [
      .seqOf [.text "#", .anyOf [
        .cat (.chars (.oneOf "xX")) (.between (.chars .hexDigit) 1 5),
        .between (.chars .digit) 1 4]],
      .between (.chars .letter) 1 29],
    .text ";"])),
  ("jsx_expression", seq ["\x7b",
    optional (choice [ref "expression", ref "sequence_expression", ref "spread_element"]),
    "\x7d"]),
  ("_jsx_child", choice [
    ref "jsx_text",
    ref "html_character_reference",
    ref "_jsx_element",
    ref "jsx_expression"]),
  ("jsx_opening_element", dynamic (-1) (seq [ref "_jsx_start_opening_element", ">"])),
  ("_jsx_identifier", choice [shownAs "identifier" (ref "jsx_identifier"), ref "identifier"]),
  ("jsx_identifier", pattern (.seqOf [
    .chars ⟨[(65, 90), (97, 122), (95, 95), (36, 36)], false⟩,
    .many (.chars ⟨[(65, 90), (97, 122), (48, 57), (95, 95), (36, 36)], false⟩),
    .text "-",
    .many (.chars ⟨[(65, 90), (97, 122), (48, 57), (95, 95), (36, 36), (45, 45)], false⟩)])),
  ("nested_identifier", precNamed "member" (seq [
    field "object"
      (choice [ref "identifier", shownAs "member_expression" (ref "nested_identifier")]),
    ".",
    field "property" (shownAs "property_identifier" (ref "identifier"))])),
  ("jsx_namespace_name", seq [ref "_jsx_identifier", ":", ref "_jsx_identifier"]),
  ("_jsx_element_name", choice [
    ref "_jsx_identifier",
    shownAs "member_expression" (ref "nested_identifier"),
    ref "jsx_namespace_name"]),
  ("jsx_closing_element", seq ["</",
    optional (field "name" (ref "_jsx_element_name")), ">"]),
  ("jsx_self_closing_element", dynamic (-1) (seq [ref "_jsx_start_opening_element", "/>"])),
  ("_jsx_attribute", choice [ref "jsx_attribute", ref "jsx_expression"]),
  ("_jsx_attribute_name", choice [
    shownAs "property_identifier" (ref "_jsx_identifier"), ref "jsx_namespace_name"]),
  ("jsx_attribute", seq [ref "_jsx_attribute_name",
    optional (seq ["=", ref "_jsx_attribute_value"])]),
  ("_jsx_string", choice [
    seq ["\"",
      repeat0 (choice [
        shownAs "string_fragment" (ref "unescaped_double_jsx_string_fragment"),
        ref "html_character_reference"]),
      "\""],
    seq ["'",
      repeat0 (choice [
        shownAs "string_fragment" (ref "unescaped_single_jsx_string_fragment"),
        ref "html_character_reference"]),
      "'"]]),
  ("unescaped_double_jsx_string_fragment", immediate (.many1 (.anyOf [
    .chars (.noneOf "\"&"),
    .cat (.text "&") (.chars ⟨[(35, 35), (65, 90), (97, 122)], true⟩)])) 1),
  ("unescaped_single_jsx_string_fragment", immediate (.many1 (.anyOf [
    .chars (.noneOf "'&"),
    .cat (.text "&") (.chars ⟨[(35, 35), (65, 90), (97, 122)], true⟩)])) 1),
  ("_jsx_attribute_value", choice [
    shownAs "string" (ref "_jsx_string"), ref "jsx_expression", ref "_jsx_element"]),
  ("class", precNamed "literal" (seq [
    repeat0 (field "decorator" (ref "decorator")),
    "class",
    field "name" (optional (ref "_type_identifier")),
    field "type_parameters" (optional (ref "type_parameters")),
    optional (ref "class_heritage"),
    field "body" (ref "class_body")])),
  ("class_declaration", left (.named "declare") (seq [
    repeat0 (field "decorator" (ref "decorator")),
    "class",
    field "name" (ref "_type_identifier"),
    field "type_parameters" (optional (ref "type_parameters")),
    optional (ref "class_heritage"),
    field "body" (ref "class_body"),
    optional (ref "_automatic_semicolon")])),
  ("class_heritage", choice [
    seq [ref "extends_clause", optional (ref "implements_clause")],
    ref "implements_clause"]),
  ("function_expression", precNamed "literal" (seq [
    optional "async",
    "function",
    field "name" (optional (ref "identifier")),
    ref "_call_signature",
    field "body" (ref "statement_block")])),
  ("function_declaration", right (.named "declare") (seq [
    optional "async",
    "function",
    field "name" (ref "identifier"),
    ref "_call_signature",
    field "body" (ref "statement_block"),
    optional (ref "_automatic_semicolon")])),
  ("generator_function", precNamed "literal" (seq [
    optional "async",
    "function",
    "*",
    field "name" (optional (ref "identifier")),
    ref "_call_signature",
    field "body" (ref "statement_block")])),
  ("generator_function_declaration", right (.named "declare") (seq [
    optional "async",
    "function",
    "*",
    field "name" (ref "identifier"),
    ref "_call_signature",
    field "body" (ref "statement_block"),
    optional (ref "_automatic_semicolon")])),
  ("arrow_function", seq [
    optional "async",
    choice [
      field "parameter"
        (choice [shownAs "identifier" (ref "_reserved_identifier"), ref "identifier"]),
      ref "_call_signature"],
    "=>",
    field "body" (choice [ref "expression", ref "statement_block"])]),
  ("_call_signature", seq [
    field "type_parameters" (optional (ref "type_parameters")),
    field "parameters" (ref "formal_parameters"),
    field "return_type" (optional (choice [
      ref "type_annotation", ref "asserts_annotation", ref "type_predicate_annotation"]))]),
  ("_formal_parameter", choice [ref "required_parameter", ref "optional_parameter"]),
  ("optional_chain", text "?."),
  ("call_expression", choice [
    precNamed "call" (seq [
      field "function" (choice [ref "expression", ref "import"]),
      field "type_arguments" (optional (ref "type_arguments")),
      field "arguments" (ref "arguments")]),
    precNamed "template_call" (seq [
      field "function" (choice [ref "primary_expression", ref "new_expression"]),
      field "arguments" (ref "template_string")]),
    precNamed "member" (seq [
      field "function" (ref "primary_expression"),
      "?.",
      field "type_arguments" (optional (ref "type_arguments")),
      field "arguments" (ref "arguments")])]),
  ("new_expression", right (.named "new") (seq ["new",
    field "constructor" (ref "primary_expression"),
    field "type_arguments" (optional (ref "type_arguments")),
    field "arguments" (optional (ref "arguments"))])),
  ("await_expression", precNamed "unary_void" (seq ["await", ref "expression"])),
  ("member_expression", precNamed "member" (seq [
    field "object" (choice [ref "expression", ref "primary_expression", ref "import"]),
    choice [".", field "optional_chain" (ref "optional_chain")],
    field "property" (choice [
      ref "private_property_identifier",
      shownAs "property_identifier" (ref "identifier")])])),
  ("subscript_expression", right (.named "member") (seq [
    field "object" (choice [ref "expression", ref "primary_expression"]),
    optional (field "optional_chain" (ref "optional_chain")),
    "[",
    field "index" (ref "_expressions"),
    "]"])),
  ("_lhs_expression", choice [
    ref "member_expression",
    ref "subscript_expression",
    ref "_identifier",
    shownAs "identifier" (ref "_reserved_identifier"),
    ref "_destructuring_pattern",
    ref "non_null_expression"]),
  ("assignment_expression", right (.named "assign") (seq [
    optional "using",
    field "left" (choice [ref "parenthesized_expression", ref "_lhs_expression"]),
    "=",
    field "right" (ref "expression")])),
  ("_augmented_assignment_lhs", choice [
    ref "member_expression",
    ref "subscript_expression",
    shownAs "identifier" (ref "_reserved_identifier"),
    ref "identifier",
    ref "parenthesized_expression",
    ref "non_null_expression"]),
  ("augmented_assignment_expression", right (.named "assign") (seq [
    field "left" (ref "_augmented_assignment_lhs"),
    field "operator" (choice augmentedOperators),
    field "right" (ref "expression")])),
  ("_initializer", seq ["=", field "value" (ref "expression")]),
  ("_destructuring_pattern", choice [ref "object_pattern", ref "array_pattern"]),
  ("spread_element", seq ["...", ref "expression"]),
  ("ternary_expression", right (.named "ternary") (seq [
    field "condition" (ref "expression"),
    shownAsText "?" (ref "_ternary_qmark"),
    field "consequence" (ref "expression"),
    ":",
    field "alternative" (ref "expression")])),
  ("binary_expression",
    choice (binaryOperators.map fun (operator, rank, side) =>
      binaryExpression operator rank side)),
  ("unary_expression", left (.named "unary_void") (seq [
    field "operator" (choice ["!", "~", "-", "+", "typeof", "void", "delete"]),
    field "argument" (ref "expression")])),
  ("update_expression", left (.level 0) (choice [
    seq [field "argument" (ref "expression"), field "operator" (choice ["++", "--"])],
    seq [field "operator" (choice ["++", "--"]), field "argument" (ref "expression")]])),
  ("sequence_expression", right (.level 0) (commaSep1 (ref "expression")))]

end CodeAtlas.Dialect.Tsx
