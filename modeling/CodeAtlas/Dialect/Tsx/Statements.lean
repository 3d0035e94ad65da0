import CodeAtlas.Grammar.Rule

/-! Statements of the TSX grammar: modules, declarations of variables, control flow. -/

namespace CodeAtlas.Dialect.Tsx

open CodeAtlas.Grammar CodeAtlas.Grammar.Rule

def statements : List (String × Rule) := [
  ("program", seq [optional (ref "hash_bang_line"), repeat0 (ref "statement")]),
  ("hash_bang_line", pattern (.cat (.text "#!") (.many (.chars (.noneOf "\n"))))),
  ("export_statement", choice [
    seq ["export",
      choice [
        seq ["*", ref "_from_clause"],
        seq [ref "namespace_export", ref "_from_clause"],
        seq [ref "export_clause", ref "_from_clause"],
        ref "export_clause"],
      ref "_semicolon"],
    seq [repeat0 (field "decorator" (ref "decorator")),
      "export",
      choice [
        field "declaration" (ref "declaration"),
        seq ["default",
          choice [
            field "declaration" (ref "declaration"),
            seq [field "value" (ref "expression"), ref "_semicolon"]]]]],
    seq ["export", "type", ref "export_clause", optional (ref "_from_clause"), ref "_semicolon"],
    seq ["export", "=", ref "expression", ref "_semicolon"],
    seq ["export", "as", "namespace", ref "identifier", ref "_semicolon"]]),
  ("namespace_export", seq ["*", "as", ref "_module_export_name"]),
  ("export_clause", seq ["\x7b", commaSep (ref "export_specifier"), optional ",", "\x7d"]),
  ("export_specifier", seq [
    optional (choice ["type", "typeof"]),
    seq [
      field "name" (ref "_module_export_name"),
      optional (seq ["as", field "alias" (ref "_module_export_name")])]]),
  ("_module_export_name", choice [ref "identifier", ref "string"]),
  ("declaration", choice [
    ref "function_declaration",
    ref "generator_function_declaration",
    ref "class_declaration",
    ref "lexical_declaration",
    ref "variable_declaration",
    ref "function_signature",
    ref "abstract_class_declaration",
    ref "module",
    precNamed "declare" (ref "internal_module"),
    ref "type_alias_declaration",
    ref "enum_declaration",
    ref "interface_declaration",
    ref "import_alias",
    ref "ambient_declaration"]),
  ("import", text "import"),
  ("import_statement", seq ["import",
    optional (choice ["type", "typeof"]),
    choice [
      seq [ref "import_clause", ref "_from_clause"],
      ref "import_require_clause",
      field "source" (ref "string")],
    optional (ref "import_attribute"),
    ref "_semicolon"]),
  ("import_clause", choice [
    ref "namespace_import",
    ref "named_imports",
    seq [ref "_import_identifier",
      optional (seq [",", choice [ref "namespace_import", ref "named_imports"]])]]),
  ("_from_clause", seq ["from", field "source" (ref "string")]),
  ("namespace_import", seq ["*", "as", ref "identifier"]),
  ("named_imports", seq ["\x7b", commaSep (ref "import_specifier"), optional ",", "\x7d"]),
  ("import_specifier", seq [
    optional (choice ["type", "typeof"]),
    choice [
      field "name" (ref "_import_identifier"),
      seq [
        field "name" (choice [ref "_module_export_name", shownAs "identifier" "type"]),
        "as",
        field "alias" (ref "_import_identifier")]]]),
  ("import_attribute", seq [choice ["with", "assert"], ref "object"]),
  ("statement", choice [
    ref "export_statement",
    ref "import_statement",
    ref "debugger_statement",
    ref "expression_statement",
    ref "declaration",
    ref "statement_block",
    ref "if_statement",
    ref "switch_statement",
    ref "for_statement",
    ref "for_in_statement",
    ref "while_statement",
    ref "do_statement",
    ref "try_statement",
    ref "with_statement",
    ref "break_statement",
    ref "continue_statement",
    ref "return_statement",
    ref "throw_statement",
    ref "empty_statement",
    ref "labeled_statement"]),
  ("expression_statement", seq [ref "_expressions", ref "_semicolon"]),
  ("variable_declaration", seq ["var", commaSep1 (ref "variable_declarator"), ref "_semicolon"]),
  ("lexical_declaration", seq [
    field "kind" (choice ["let", "const"]),
    commaSep1 (ref "variable_declarator"),
    ref "_semicolon"]),
  ("variable_declarator", choice [
    seq [
      field "name" (choice [ref "identifier", ref "_destructuring_pattern"]),
      field "type" (optional (ref "type_annotation")),
      optional (ref "_initializer")],
    precNamed "declare" (seq [
      field "name" (ref "identifier"),
      "!",
      field "type" (ref "type_annotation")])]),
  ("statement_block", right (.level 0) (seq [
    "\x7b", repeat0 (ref "statement"), "\x7d", optional (ref "_automatic_semicolon")])),
  ("else_clause", seq ["else", ref "statement"]),
  ("if_statement", right (.level 0) (seq ["if",
    field "condition" (ref "parenthesized_expression"),
    field "consequence" (ref "statement"),
    optional (field "alternative" (ref "else_clause"))])),
  ("switch_statement", seq ["switch",
    field "value" (ref "parenthesized_expression"),
    field "body" (ref "switch_body")]),
  ("for_statement", seq ["for", "(",
    choice [
      field "initializer" (choice [ref "lexical_declaration", ref "variable_declaration"]),
      seq [field "initializer" (ref "_expressions"), ";"],
      field "initializer" (ref "empty_statement")],
    choice [
      seq [field "condition" (ref "_expressions"), ";"],
      field "condition" (ref "empty_statement")],
    field "increment" (optional (ref "_expressions")),
    ")",
    field "body" (ref "statement")]),
  ("for_in_statement", seq ["for", optional "await", ref "_for_header",
    field "body" (ref "statement")]),
  ("_for_header", seq ["(",
    choice [
      field "left" (choice [ref "_lhs_expression", ref "parenthesized_expression"]),
      seq [
        field "kind" "var",
        field "left" (choice [ref "identifier", ref "_destructuring_pattern"]),
        optional (ref "_initializer")],
      seq [
        field "kind" (choice ["let", "const"]),
        field "left" (choice [ref "identifier", ref "_destructuring_pattern"]),
        optional (ref "_automatic_semicolon")]],
    field "operator" (choice ["in", "of"]),
    field "right" (ref "_expressions"),
    ")"]),
  ("while_statement", seq ["while",
    field "condition" (ref "parenthesized_expression"),
    field "body" (ref "statement")]),
  ("do_statement", right (.level 0) (seq ["do",
    field "body" (ref "statement"),
    "while",
    field "condition" (ref "parenthesized_expression"),
    optional (ref "_semicolon")])),
  ("try_statement", seq ["try",
    field "body" (ref "statement_block"),
    optional (field "handler" (ref "catch_clause")),
    optional (field "finalizer" (ref "finally_clause"))]),
  ("with_statement", seq ["with",
    field "object" (ref "parenthesized_expression"),
    field "body" (ref "statement")]),
  ("break_statement", seq ["break",
    field "label" (optional (shownAs "statement_identifier" (ref "identifier"))),
    ref "_semicolon"]),
  ("continue_statement", seq ["continue",
    field "label" (optional (shownAs "statement_identifier" (ref "identifier"))),
    ref "_semicolon"]),
  ("debugger_statement", seq ["debugger", ref "_semicolon"]),
  ("return_statement", seq ["return", optional (ref "_expressions"), ref "_semicolon"]),
  ("throw_statement", seq ["throw", ref "_expressions", ref "_semicolon"]),
  ("empty_statement", text ";"),
  ("labeled_statement", dynamic (-1) (seq [
    field "label"
      (shownAs "statement_identifier" (choice [ref "identifier", ref "_reserved_identifier"])),
    ":",
    field "body" (ref "statement")])),
  ("switch_body", seq ["\x7b", repeat0 (choice [ref "switch_case", ref "switch_default"]), "\x7d"]),
  ("switch_case", seq ["case",
    field "value" (ref "_expressions"),
    ":",
    field "body" (repeat0 (ref "statement"))]),
  ("switch_default", seq ["default", ":", field "body" (repeat0 (ref "statement"))]),
  ("catch_clause", seq ["catch",
    optional (seq ["(",
      field "parameter" (choice [ref "identifier", ref "_destructuring_pattern"]),
      optional (field "type" (ref "type_annotation")),
      ")"]),
    field "body" (ref "statement_block")]),
  ("finally_clause", seq ["finally", field "body" (ref "statement_block")])]

end CodeAtlas.Dialect.Tsx
