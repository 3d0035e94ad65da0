import CodeAtlas.Dialect.Php.Statements

/-! Expressions, strings and names of the PHP grammar. -/

namespace CodeAtlas.Dialect.Php

open CodeAtlas.Grammar CodeAtlas.Grammar.Rule

/-! How tightly operators bind. -/

def castLevel : Int := -1
def assignmentLevel : Int := 4
def ternaryLevel : Int := 5
def coalesceLevel : Int := 6
def powerLevel : Int := 18
def negationLevel : Int := 19
def instanceLevel : Int := 20
def incrementLevel : Int := 21
def scopeLevel : Int := 22
def newLevel : Int := 23
def callLevel : Int := 24
def memberLevel : Int := 25
def dereferenceLevel : Int := 26

/-- Operators between two expressions that group to the left, with their levels. -/
def binaryOperators : List (Rule × Int) := [
  (folded "and", 3),
  (folded "or", 1),
  (folded "xor", 2),
  ("||", 7),
  ("&&", 8),
  ("|", 9),
  ("^", 10),
  ("&", 11),
  ("==", 12),
  ("!=", 12),
  ("<>", 12),
  ("===", 12),
  ("!==", 12),
  ("<", 13),
  (">", 13),
  ("<=", 13),
  (">=", 13),
  ("<=>", 12),
  ("|>", 13),
  ("<<", 15),
  (">>", 15),
  ("+", 16),
  ("-", 16),
  (".", 14),
  ("*", 17),
  ("/", 17),
  ("%", 17)]

def binary (operator : Rule) : Rule := seq [
  field "left" (ref "expression"),
  field "operator" operator,
  field "right" (ref "expression")]

/-- What a list that takes values apart may hold. -/
def destructured (nested : String) : Rule := choice [
  shownAs "list_literal" (ref nested), ref "_variable", ref "by_ref"]

def expressions : List (String × Rule) := [
  ("expression", choice [
    ref "conditional_expression",
    ref "match_expression",
    ref "augmented_assignment_expression",
    ref "assignment_expression",
    ref "reference_assignment_expression",
    ref "yield_expression",
    ref "_unary_expression",
    ref "error_suppression_expression",
    ref "binary_expression",
    ref "include_expression",
    ref "include_once_expression",
    ref "require_expression",
    ref "require_once_expression"]),
  ("_unary_expression", choice [
    ref "clone_expression",
    ref "primary_expression",
    ref "unary_op_expression",
    ref "cast_expression"]),
  ("unary_op_expression", left (.level negationLevel) (seq [
    field "operator" (choice ["+", "-", "~", "!"]),
    field "argument" (ref "expression")])),
  ("error_suppression_expression", left (.level incrementLevel)
    (seq ["@", ref "expression"])),
  ("clone_expression", seq [folded "clone", ref "primary_expression"]),
  ("primary_expression", choice [
    ref "_variable",
    ref "literal",
    ref "class_constant_access_expression",
    ref "qualified_name",
    ref "relative_name",
    ref "name",
    ref "array_creation_expression",
    ref "print_intrinsic",
    ref "anonymous_function",
    ref "arrow_function",
    ref "object_creation_expression",
    ref "update_expression",
    ref "shell_command_expression",
    ref "parenthesized_expression",
    ref "throw_expression"]),
  ("parenthesized_expression", seq ["(", ref "expression", ")"]),
  ("class_constant_access_expression", seq [
    ref "_scope_resolution_qualifier",
    "::",
    choice [anyName, seq ["\x7b", shownAs "name" (ref "expression"), "\x7d"]]]),
  ("print_intrinsic", seq [folded "print", ref "expression"]),
  ("object_creation_expression", right (.level newLevel) (choice [
    seq [folded "new", ref "_class_name_reference", optional (ref "arguments")],
    seq [folded "new", ref "anonymous_class"]])),
  ("_class_name_reference", choice [
    anyName,
    ref "qualified_name",
    ref "relative_name",
    ref "_new_variable",
    ref "parenthesized_expression"]),
  ("anonymous_class", right (.level 0) (seq [
    attributes,
    repeat0 (ref "_modifier"),
    folded "class",
    optional (ref "arguments"),
    optional (ref "base_clause"),
    optional (ref "class_interface_clause"),
    field "body" (ref "declaration_list")])),
  ("update_expression", left (.level incrementLevel) (choice [
    seq [field "argument" (ref "_variable"), field "operator" (choice ["++", "--"])],
    seq [field "operator" (choice ["++", "--"]), field "argument" (ref "_variable")]])),
  ("cast_expression", precLevel castLevel (seq ["(",
    field "type" (ref "cast_type"),
    ")",
    field "value" (choice [
      ref "_unary_expression",
      ref "include_expression",
      ref "include_once_expression",
      ref "error_suppression_expression"])])),
  ("cast_variable", precLevel castLevel (seq ["(",
    field "type" (ref "cast_type"),
    ")",
    field "value" (ref "_variable")])),
  ("assignment_expression", right (.level assignmentLevel) (seq [
    field "left" (choice [ref "_variable", ref "list_literal"]),
    "=",
    field "right" (ref "expression")])),
  ("reference_assignment_expression", right (.level assignmentLevel) (seq [
    field "left" (choice [ref "_variable", ref "list_literal"]),
    "=",
    "&",
    field "right" (ref "expression")])),
  ("conditional_expression", left (.level ternaryLevel) (seq [
    field "condition" (ref "expression"),
    "?",
    field "body" (optional (ref "expression")),
    ":",
    field "alternative" (ref "expression")])),
  ("augmented_assignment_expression", right (.level assignmentLevel) (seq [
    field "left" (ref "_variable"),
    field "operator" (choice ["**=", "*=", "/=", "%=", "+=", "-=", ".=", "<<=", ">>=", "&=",
      "^=", "|=", "??="]),
    field "right" (ref "expression")])),
  ("_variable", choice [
    shownAs "cast_expression" (ref "cast_variable"),
    ref "_callable_variable",
    ref "scoped_property_access_expression",
    ref "member_access_expression",
    ref "nullsafe_member_access_expression"]),
  ("_new_variable", choice [
    ref "_simple_variable",
    shownAs "subscript_expression" (ref "_new_subscript_expression"),
    shownAs "member_access_expression" (ref "_new_member_access_expression"),
    shownAs "nullsafe_member_access_expression"
      (ref "_new_nullsafe_member_access_expression"),
    shownAs "scoped_property_access_expression"
      (ref "_new_scoped_property_access_expression")]),
  ("_new_subscript_expression", precLevel dereferenceLevel (seq [
    ref "_new_variable",
    "[",
    optional (ref "expression"),
    "]"])),
  ("_new_member_access_expression", precLevel memberLevel (seq [
    field "object" (ref "_new_variable"), "->", ref "_member_name"])),
  ("_new_nullsafe_member_access_expression", precLevel memberLevel (seq [
    field "object" (ref "_new_variable"), "?->", ref "_member_name"])),
  ("_new_scoped_property_access_expression", precLevel memberLevel (seq [
    field "scope" (choice [anyName, ref "qualified_name", ref "_new_variable"]),
    "::",
    field "name" (ref "_simple_variable")])),
  ("member_access_expression", precLevel memberLevel (seq [
    field "object" (ref "_dereferencable_expression"), "->", ref "_member_name"])),
  ("nullsafe_member_access_expression", precLevel memberLevel (seq [
    field "object" (ref "_dereferencable_expression"), "?->", ref "_member_name"])),
  ("scoped_property_access_expression", precLevel memberLevel (seq [
    field "scope" (ref "_scope_resolution_qualifier"),
    "::",
    field "name" (ref "_simple_variable")])),
  ("list_literal", choice [ref "_list_destructing", ref "_array_destructing"]),
  ("_list_destructing", seq [folded "list", "(",
    commaSep1 (optional (choice [
      destructured "_list_destructing",
      seq [ref "expression", "=>", destructured "_list_destructing"]])),
    ")"]),
  ("_array_destructing", seq ["[",
    commaSep1 (optional (ref "_array_destructing_element")),
    "]"]),
  ("_array_destructing_element", choice [
    destructured "_array_destructing",
    seq [ref "expression", "=>", destructured "_array_destructing"]]),
  ("_callable_variable", choice [
    ref "_simple_variable",
    ref "subscript_expression",
    ref "member_call_expression",
    ref "nullsafe_member_call_expression",
    ref "scoped_call_expression",
    ref "function_call_expression"]),
  ("function_call_expression", precLevel callLevel (seq [
    field "function" (choice [
      anyName,
      ref "qualified_name",
      ref "relative_name",
      ref "_callable_expression"]),
    field "arguments" (ref "arguments")])),
  ("_callable_expression", choice [
    ref "_callable_variable",
    ref "parenthesized_expression",
    ref "array_creation_expression",
    ref "_string"]),
  ("scoped_call_expression", precLevel callLevel (seq [
    field "scope" (ref "_scope_resolution_qualifier"),
    "::",
    ref "_member_name",
    field "arguments" (ref "arguments")])),
  ("_scope_resolution_qualifier", choice [
    ref "relative_scope",
    ref "name",
    ref "qualified_name",
    ref "relative_name",
    ref "_dereferencable_expression"]),
  ("relative_scope", precLevel scopeLevel
    (choice ["self", "parent", folded "static"])),
  ("variadic_placeholder", text "..."),
  ("arguments", seq ["(",
    choice [
      seq [commaSep (ref "argument"), optional ","],
      ref "variadic_placeholder"],
    ")"]),
  ("argument", seq [
    optional (ref "_argument_name"),
    optional (field "reference_modifier" (ref "reference_modifier")),
    choice [
      shownAs "name" (ref "_reserved_identifier"),
      ref "variadic_unpacking",
      ref "expression"]]),
  ("_argument_name", seq [field "name" (ref "name"), ":"]),
  ("member_call_expression", precLevel callLevel (seq [
    field "object" (ref "_dereferencable_expression"),
    "->",
    ref "_member_name",
    field "arguments" (ref "arguments")])),
  ("nullsafe_member_call_expression", precLevel callLevel (seq [
    field "object" (ref "_dereferencable_expression"),
    "?->",
    ref "_member_name",
    field "arguments" (ref "arguments")])),
  ("variadic_unpacking", seq ["...", ref "expression"]),
  ("_member_name", choice [
    field "name" (choice [anyName, ref "_simple_variable"]),
    seq ["\x7b", field "name" (ref "expression"), "\x7d"]]),
  ("subscript_expression", precLevel dereferenceLevel (seq [
    ref "_dereferencable_expression",
    choice [
      seq ["[", optional (ref "expression"), "]"],
      seq ["\x7b", ref "expression", "\x7d"]]])),
  ("_dereferencable_expression", precLevel dereferenceLevel (choice [
    ref "_variable",
    ref "class_constant_access_expression",
    ref "parenthesized_expression",
    ref "array_creation_expression",
    anyName,
    ref "qualified_name",
    ref "_string"])),
  ("array_creation_expression", choice [
    seq [folded "array", "(",
      commaSep (ref "array_element_initializer"), optional ",", ")"],
    seq ["[", commaSep (ref "array_element_initializer"), optional ",", "]"]]),
  ("attribute_group", seq ["#[", commaSep1 (ref "attribute"), optional ",", "]"]),
  ("attribute_list", repeat1 (ref "attribute_group")),
  ("attribute", seq [
    choice [anyName, ref "qualified_name", ref "relative_name"],
    optional (field "parameters" (ref "arguments"))])]

/-- A backslash or a quote behind a backslash, between single quotes. -/
def quotedEscape : Rule := token (.alt (.text "\\\\") (.text "\\'")) 0

/-- Text between single quotes up to the next backslash or quote. -/
def quotedRun : Rule := immediate (.many1 (.chars (.noneOf "\\'"))) 1

def strings : List (String × Rule) := [
  ("_complex_string_part", seq ["\x7b", ref "expression", "\x7d"]),
  ("_simple_string_member_access_expression", precLevel memberLevel (seq [
    field "object" (ref "variable_name"), "->", field "name" (ref "name")])),
  ("_simple_string_subscript_unary_expression",
    left (.level 0) (seq ["-", ref "integer"])),
  ("_simple_string_array_access_argument", choice [
    ref "integer",
    shownAs "unary_op_expression" (ref "_simple_string_subscript_unary_expression"),
    ref "name",
    ref "variable_name"]),
  ("_simple_string_subscript_expression", precLevel dereferenceLevel (seq [
    ref "variable_name", "[", ref "_simple_string_array_access_argument", "]"])),
  ("_simple_string_part", choice [
    shownAs "member_access_expression" (ref "_simple_string_member_access_expression"),
    ref "_simple_variable",
    shownAs "subscript_expression" (ref "_simple_string_subscript_expression")]),
  ("escape_sequence", immediate (.cat (.text "\\") (.anyOf [
    .chars (.oneOf "nrtvef\\$\"\x60"),
    .between (.chars (.range '0' '7')) 1 2,
    .cat (.text "x") (.between (.chars .hexDigit) 1 1),
    .seqOf [.text "u\x7b", .many1 (.chars .hexDigit), .text "\x7d"]])) 0),
  ("_interpolated_string_body", repeat1 (choice [
    ref "escape_sequence",
    seq [ref "variable_name",
      shownAs "string_content" (ref "encapsed_string_chars_after_variable")],
    shownAs "string_content" (ref "encapsed_string_chars"),
    ref "_simple_string_part",
    ref "_complex_string_part",
    shownAs "string_content" "\\u",
    shownAs "string_content" "'"])),
  ("_interpolated_string_body_heredoc", repeat1 (choice [
    ref "escape_sequence",
    seq [ref "variable_name",
      shownAs "string_content" (ref "encapsed_string_chars_after_variable_heredoc")],
    shownAs "string_content" (ref "encapsed_string_chars_heredoc"),
    ref "_simple_string_part",
    ref "_complex_string_part",
    shownAs "string_content" "\\u",
    shownAs "string_content" "'",
    shownAs "string_content" "<?",
    shownAs "string_content" (token (.cat (.text "?>") .empty) 0)])),
  ("encapsed_string", right (.level 0) (seq [
    choice ["\"", pattern (.cat (.chars (.oneOf "bB")) (.text "\""))],
    optional (ref "_interpolated_string_body"),
    "\""])),
  ("string", seq [
    choice ["'", pattern (.cat (.chars (.oneOf "bB")) (.text "'"))],
    repeat0 (choice [
      shownAs "escape_sequence" quotedEscape,
      ref "string_content"]),
    "'"]),
  ("string_content", right (.level 0) (repeat1 (choice [
    immediate (.text "\\") (-1),
    quotedRun]))),
  ("heredoc_body", seq [
    ref "_new_line",
    repeat1 (right (.level 0) (seq [
      optional (ref "_new_line"), ref "_interpolated_string_body_heredoc"]))]),
  ("heredoc", seq [
    "<<<",
    field "identifier" (choice [
      ref "heredoc_start",
      seq ["\"", ref "heredoc_start", immediate (.text "\"") 0]]),
    choice [
      seq [field "value" (ref "heredoc_body"), ref "_new_line"],
      field "value" (optional (ref "heredoc_body"))],
    optional (ref "_new_line"),
    field "end_tag" (ref "heredoc_end")]),
  ("_new_line", pattern (.alt (.cat (.optional (.text "\r")) (.text "\n")) (.text "\r"))),
  ("nowdoc_body", seq [ref "_new_line", repeat1 (ref "nowdoc_string")]),
  ("nowdoc", seq [
    "<<<",
    "'",
    field "identifier" (ref "heredoc_start"),
    immediate (.text "'") 0,
    choice [
      seq [field "value" (ref "nowdoc_body"), ref "_new_line"],
      field "value" (optional (ref "nowdoc_body"))],
    optional (ref "_new_line"),
    field "end_tag" (ref "heredoc_end")]),
  ("_interpolated_execution_operator_body", repeat1 (choice [
    ref "escape_sequence",
    seq [ref "variable_name",
      shownAs "string_content" (ref "execution_string_chars_after_variable")],
    shownAs "string_content" (ref "execution_string_chars"),
    ref "_simple_string_part",
    ref "_complex_string_part",
    shownAs "string_content" "\\u"])),
  ("shell_command_expression", seq ["\x60",
    optional (ref "_interpolated_execution_operator_body"), "\x60"]),
  ("boolean", pattern (.alt (.anyCase "true") (.anyCase "false"))),
  ("null", foldedBare "null"),
  ("_string", choice [ref "encapsed_string", ref "string", ref "heredoc", ref "nowdoc"]),
  ("dynamic_variable_name", choice [
    seq ["$", ref "_simple_variable"],
    seq ["$", "\x7b", ref "expression", "\x7d"]]),
  ("_simple_variable", choice [ref "variable_name", ref "dynamic_variable_name"]),
  ("variable_name", seq ["$", ref "name"]),
  ("variable_reference", seq ["&", ref "variable_name"]),
  ("by_ref", seq ["&", ref "_variable"]),
  ("yield_expression", right (.level 0) (seq [folded "yield",
    optional (choice [
      ref "array_element_initializer",
      seq [folded "from", ref "expression"]])])),
  ("array_element_initializer", right (.level 0) (choice [
    choice [ref "by_ref", ref "expression"],
    seq [ref "expression", "=>", choice [ref "by_ref", ref "expression"]],
    ref "variadic_unpacking"])),
  ("binary_expression", choice ([
    precLevel instanceLevel (seq [
      field "left" (ref "_unary_expression"),
      field "operator" (folded "instanceof"),
      field "right" (ref "_class_name_reference")]),
    right (.level coalesceLevel) (binary "??"),
    right (.level powerLevel) (binary "**")] ++
    binaryOperators.map fun (operator, level) => left (.level level) (binary operator))),
  ("include_expression", seq [folded "include", ref "expression"]),
  ("include_once_expression", seq [folded "include_once", ref "expression"]),
  ("require_expression", seq [folded "require", ref "expression"]),
  ("require_once_expression", seq [folded "require_once", ref "expression"]),
  ("qualified_name", seq [
    field "prefix" (choice [
      "\\",
      seq [optional "\\", ref "namespace_name", "\\"]]),
    ref "name"]),
  ("relative_name", seq [
    field "prefix" (seq [folded "namespace", "\\",
      optional (seq [ref "namespace_name", "\\"])]),
    ref "name"]),
  ("_reserved_identifier", choice ["self", "parent", folded "static"]),
  ("name", pattern (
    let wide : List (Nat × Nat) := [(0x80, 0x9f), (0xa1, 0x200a), (0x200c, 0x205f),
      (0x2061, 0xfefe), (0xff00, 0xffff)]
    .cat (.chars ⟨[(95, 95), (97, 122), (65, 90)] ++ wide, false⟩)
      (.many (.chars ⟨[(95, 95), (97, 122), (65, 90), (48, 57)] ++ wide, false⟩)))),
  ("comment", token (
    let rest : Pattern := .many (.alt (.chars (.noneOf "?\r\n"))
      (.cat (.text "?") (.chars (.noneOf ">\r\n"))))
    .anyOf [
      .seqOf [
        .alt (.text "//") (.cat (.text "#") (.chars (.noneOf "?[\r\n"))),
        rest,
        .optional (.seqOf [.text "?", .optional (.text "\r"), .text "\n"])],
      .text "#",
      .seqOf [.text "/*", .many (.chars (.noneOf "*")), .many1 (.text "*"),
        .many (.seqOf [.chars (.noneOf "/*"), .many (.chars (.noneOf "*")),
          .many1 (.text "*")]),
        .text "/"]]) 0),
  ("_semicolon", choice [ref "_automatic_semicolon", ";"])]

end CodeAtlas.Dialect.Php
