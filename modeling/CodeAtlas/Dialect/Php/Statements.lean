import CodeAtlas.Grammar.Rule

/-! Statements and declarations of the PHP grammar. -/

namespace CodeAtlas.Dialect.Php

open CodeAtlas.Grammar CodeAtlas.Grammar.Rule

/-- A name, or a word that is read as one. -/
def anyName : Rule := choice [ref "name", shownAs "name" (ref "_reserved_identifier")]

def attributes : Rule := optional (field "attributes" (ref "attribute_list"))

/-- Text outside the tags up to the next one. -/
def inlineText : Rule := token (.cat (.chars ⟨[(9, 13), (32, 32), (60, 60)], true⟩)
  (.many (.chars (.noneOf "<")))) 1

def statements : List (String × Rule) := [
  ("program", seq [
    optional (ref "text"),
    optional (seq [ref "php_tag", repeat0 (ref "statement")])]),
  ("php_tag", pattern (.cat (.text "<?")
    (.optional (.alt (.anyCase "php") (.text "="))))),
  ("php_end_tag", text "?>"),
  ("text_interpolation", seq [
    ref "php_end_tag",
    optional (ref "text"),
    choice [ref "php_tag", ref "_eof"]]),
  ("text", repeat1 (choice [
    token (.text "<") (-1),
    inlineText])),
  ("statement", choice [
    ref "empty_statement",
    ref "compound_statement",
    ref "named_label_statement",
    ref "expression_statement",
    ref "if_statement",
    ref "switch_statement",
    ref "while_statement",
    ref "do_statement",
    ref "for_statement",
    ref "foreach_statement",
    ref "goto_statement",
    ref "continue_statement",
    ref "break_statement",
    ref "return_statement",
    ref "try_statement",
    ref "declare_statement",
    ref "echo_statement",
    ref "exit_statement",
    ref "unset_statement",
    ref "const_declaration",
    ref "function_definition",
    ref "class_declaration",
    ref "interface_declaration",
    ref "trait_declaration",
    ref "enum_declaration",
    ref "namespace_definition",
    ref "namespace_use_declaration",
    ref "global_declaration",
    ref "function_static_declaration"]),
  ("empty_statement", precLevel (-1) ";"),
  ("reference_modifier", text "&"),
  ("function_static_declaration", seq [folded "static",
    commaSep1 (ref "static_variable_declaration"),
    ref "_semicolon"]),
  ("static_variable_declaration", seq [
    field "name" (ref "variable_name"),
    optional (seq ["=", field "value" (ref "expression")])]),
  ("global_declaration", seq [folded "global", commaSep1 (ref "_simple_variable"),
    ref "_semicolon"]),
  ("namespace_definition", seq [folded "namespace",
    choice [
      seq [field "name" (ref "namespace_name"), ref "_semicolon"],
      seq [field "name" (optional (ref "namespace_name")),
        field "body" (ref "compound_statement")]]]),
  ("namespace_use_declaration", seq [folded "use",
    choice [
      commaSep1 (ref "namespace_use_clause"),
      seq [
        field "type" (optional (ref "_namespace_use_type")),
        ref "namespace_name",
        "\\",
        field "body" (ref "namespace_use_group")]],
    ref "_semicolon"]),
  ("namespace_use_clause", seq [
    field "type" (optional (ref "_namespace_use_type")),
    choice [anyName, ref "qualified_name"],
    optional (seq [folded "as", field "alias" (ref "name")])]),
  ("_namespace_use_type", choice [folded "function", folded "const"]),
  ("namespace_name", seq [ref "name", repeat0 (seq ["\\", ref "name"])]),
  ("namespace_use_group", seq ["\x7b", commaSep1 (ref "namespace_use_clause"), "\x7d"]),
  ("trait_declaration", seq [
    attributes,
    folded "trait",
    field "name" (ref "name"),
    field "body" (ref "declaration_list")]),
  ("interface_declaration", seq [
    attributes,
    folded "interface",
    field "name" (ref "name"),
    optional (ref "base_clause"),
    field "body" (ref "declaration_list")]),
  ("base_clause", seq [folded "extends",
    commaSep1 (choice [anyName, ref "qualified_name"])]),
  ("enum_declaration", right (.level 0) (seq [
    attributes,
    folded "enum",
    field "name" (ref "name"),
    optional (ref "_return_type"),
    optional (ref "class_interface_clause"),
    field "body" (ref "enum_declaration_list")])),
  ("enum_declaration_list", seq ["\x7b", repeat0 (ref "_enum_member_declaration"), "\x7d"]),
  ("_enum_member_declaration", choice [
    ref "enum_case",
    shownAs "const_declaration" (ref "_class_const_declaration"),
    ref "method_declaration",
    ref "use_declaration"]),
  ("enum_case", seq [
    attributes,
    folded "case",
    field "name" (ref "name"),
    optional (seq ["=", field "value" (ref "expression")]),
    ref "_semicolon"]),
  ("class_declaration", right (.level 0) (seq [
    attributes,
    repeat0 (ref "_modifier"),
    folded "class",
    field "name" (ref "name"),
    optional (ref "base_clause"),
    optional (ref "class_interface_clause"),
    field "body" (ref "declaration_list")])),
  ("declaration_list", seq ["\x7b", repeat0 (ref "_member_declaration"), "\x7d"]),
  ("final_modifier", folded "final"),
  ("abstract_modifier", folded "abstract"),
  ("readonly_modifier", folded "readonly"),
  ("class_interface_clause", seq [folded "implements",
    commaSep1 (choice [anyName, ref "qualified_name"])]),
  ("_member_declaration", choice [
    shownAs "const_declaration" (ref "_class_const_declaration"),
    ref "property_declaration",
    ref "method_declaration",
    ref "use_declaration"]),
  ("const_declaration", ref "_const_declaration"),
  ("_class_const_declaration", seq [
    attributes, repeat0 (ref "_modifier"), ref "_const_declaration"]),
  ("_const_declaration", seq [folded "const",
    optional (field "type" (ref "type")),
    commaSep1 (ref "const_element"),
    ref "_semicolon"]),
  ("property_declaration", seq [
    attributes,
    repeat1 (ref "_modifier"),
    field "type" (optional (ref "type")),
    commaSep1 (ref "property_element"),
    choice [ref "_semicolon", ref "property_hook_list"]]),
  ("_modifier", left (.level 0) (choice [
    ref "var_modifier",
    ref "visibility_modifier",
    ref "static_modifier",
    ref "final_modifier",
    ref "abstract_modifier",
    ref "readonly_modifier"])),
  ("property_element", seq [
    field "name" (ref "variable_name"),
    optional (seq ["=", field "default_value" (ref "expression")])]),
  ("property_hook_list", seq ["\x7b", repeat0 (ref "property_hook"), "\x7d"]),
  ("property_hook", seq [
    attributes,
    optional (field "final" (ref "final_modifier")),
    optional (field "reference_modifier" (ref "reference_modifier")),
    ref "name",
    optional (field "parameters" (ref "formal_parameters")),
    ref "_property_hook_body"]),
  ("_property_hook_body", choice [
    seq ["=>", field "body" (ref "expression"), ref "_semicolon"],
    field "body" (ref "compound_statement"),
    ref "_semicolon"]),
  ("method_declaration", seq [
    attributes,
    repeat0 (ref "_modifier"),
    ref "_function_definition_header",
    choice [field "body" (ref "compound_statement"), ref "_semicolon"]]),
  ("var_modifier", foldedBare "var"),
  ("static_modifier", folded "static"),
  ("use_declaration", seq [folded "use",
    commaSep1 (choice [anyName, ref "qualified_name"]),
    choice [ref "use_list", ref "_semicolon"]]),
  ("use_list", seq ["\x7b",
    repeat0 (seq [
      choice [ref "use_instead_of_clause", ref "use_as_clause"],
      ref "_semicolon"]),
    "\x7d"]),
  ("use_instead_of_clause", left (.level 0) (seq [
    choice [ref "class_constant_access_expression", ref "name"],
    folded "insteadof",
    commaSep1 (ref "name")])),
  ("use_as_clause", seq [
    choice [ref "class_constant_access_expression", ref "name"],
    folded "as",
    choice [
      seq [optional (ref "visibility_modifier"), ref "name"],
      seq [ref "visibility_modifier", optional (ref "name")]]]),
  ("visibility_modifier", seq [
    choice [folded "public", folded "protected", folded "private"],
    optional (seq ["(", shownAs "operation" (foldedBare "set"), ")"])]),
  ("function_definition", seq [
    attributes,
    ref "_function_definition_header",
    field "body" (ref "compound_statement")]),
  ("_function_definition_header", seq [folded "function",
    optional (ref "reference_modifier"),
    field "name" anyName,
    field "parameters" (ref "formal_parameters"),
    optional (ref "_return_type")]),
  ("anonymous_function", seq [
    ref "_anonymous_function_header", field "body" (ref "compound_statement")]),
  ("anonymous_function_use_clause", seq [folded "use", "(",
    commaSep1 (choice [shownAs "by_ref" (ref "variable_reference"), ref "variable_name"]),
    optional ",",
    ")"]),
  ("_anonymous_function_header", seq [
    attributes,
    optional (field "static_modifier" (ref "static_modifier")),
    folded "function",
    optional (field "reference_modifier" (ref "reference_modifier")),
    field "parameters" (ref "formal_parameters"),
    optional (ref "anonymous_function_use_clause"),
    optional (ref "_return_type")]),
  ("_arrow_function_header", seq [
    attributes,
    optional (field "static_modifier" (ref "static_modifier")),
    folded "fn",
    optional (field "reference_modifier" (ref "reference_modifier")),
    field "parameters" (ref "formal_parameters"),
    optional (ref "_return_type")]),
  ("arrow_function", seq [
    ref "_arrow_function_header", "=>", field "body" (ref "expression")]),
  ("formal_parameters", seq ["(",
    commaSep (choice [
      ref "simple_parameter",
      ref "variadic_parameter",
      ref "property_promotion_parameter"]),
    optional ",",
    ")"]),
  ("property_promotion_parameter", seq [
    attributes,
    choice [
      seq [field "visibility" (ref "visibility_modifier"),
        field "readonly" (optional (ref "readonly_modifier"))],
      seq [field "readonly" (ref "readonly_modifier"),
        field "visibility" (optional (ref "visibility_modifier"))]],
    field "type" (optional (ref "type")),
    field "name" (choice [ref "by_ref", ref "variable_name"]),
    optional (seq ["=", field "default_value" (ref "expression")]),
    optional (ref "property_hook_list")]),
  ("simple_parameter", seq [
    attributes,
    field "type" (optional (ref "type")),
    optional (field "reference_modifier" (ref "reference_modifier")),
    field "name" (ref "variable_name"),
    optional (seq ["=", field "default_value" (ref "expression")])]),
  ("variadic_parameter", seq [
    attributes,
    field "type" (optional (ref "type")),
    optional (field "reference_modifier" (ref "reference_modifier")),
    "...",
    field "name" (ref "variable_name")]),
  ("type", choice [
    ref "_types",
    ref "union_type",
    ref "intersection_type",
    ref "disjunctive_normal_form_type"]),
  ("_types", choice [ref "optional_type", ref "named_type", ref "primitive_type"]),
  ("named_type", choice [anyName, ref "qualified_name", ref "relative_name"]),
  ("optional_type", seq ["?", choice [ref "named_type", ref "primitive_type"]]),
  ("bottom_type", text "never"),
  ("union_type", seq [ref "_types", repeat1 (seq ["|", ref "_types"])]),
  ("intersection_type", seq [ref "_types", repeat1 (seq ["&", ref "_types"])]),
  ("disjunctive_normal_form_type", dynamic (-1) (
    let part := choice [seq ["(", ref "intersection_type", ")"], ref "_types"]
    seq [part, repeat1 (seq ["|", part])])),
  ("primitive_type", choice ["array", folded "callable", foldedBare "iterable", "bool",
    "float", "int", "string", foldedBare "void", foldedBare "mixed", "false", "null", "true"]),
  ("cast_type", choice [foldedBare "array", foldedBare "binary", foldedBare "bool",
    foldedBare "boolean", foldedBare "double", foldedBare "int", foldedBare "integer",
    foldedBare "float", foldedBare "object", foldedBare "real", foldedBare "string",
    foldedBare "unset"]),
  ("_return_type", seq [":", field "return_type" (choice [ref "type", ref "bottom_type"])]),
  ("const_element", seq [anyName, "=", ref "expression"]),
  ("echo_statement", seq [folded "echo", ref "_expressions", ref "_semicolon"]),
  ("exit_statement", seq [folded "exit",
    optional (seq ["(", optional (ref "expression"), ")"]), ref "_semicolon"]),
  ("unset_statement", seq ["unset", "(", commaSep1 (ref "_variable"), optional ",", ")",
    ref "_semicolon"]),
  ("declare_statement", seq [folded "declare", "(", ref "declare_directive", ")",
    choice [
      ref "statement",
      seq [":", repeat0 (ref "statement"), folded "enddeclare", ref "_semicolon"],
      ref "_semicolon"]]),
  ("declare_directive", seq [choice ["ticks", "encoding", "strict_types"], "=",
    ref "literal"]),
  ("literal", choice [
    ref "integer", ref "float", ref "_string", ref "boolean", ref "null"]),
  ("float", pattern (
    let digits : Pattern := .cat (.many (.chars .digit))
      (.many (.cat (.text "_") (.many1 (.chars .digit))))
    let some1 : Pattern := .cat (.many1 (.chars .digit))
      (.many (.cat (.text "_") (.many1 (.chars .digit))))
    let exponent : Pattern := .seqOf [.chars (.oneOf "eE"), .optional (.chars (.oneOf "+-")),
      some1]
    .alt
      (.seqOf [some1, .alt (.seqOf [.text ".", digits, .optional exponent]) exponent])
      (.seqOf [.text ".", some1, .optional exponent]))),
  ("try_statement", seq [folded "try",
    field "body" (ref "compound_statement"),
    repeat1 (choice [ref "catch_clause", ref "finally_clause"])]),
  ("catch_clause", seq [folded "catch", "(",
    field "type" (ref "type_list"),
    optional (field "name" (ref "variable_name")),
    ")",
    field "body" (ref "compound_statement")]),
  ("type_list", sepBy1 "|" (ref "named_type")),
  ("finally_clause", seq [folded "finally", field "body" (ref "compound_statement")]),
  ("goto_statement", seq [folded "goto", ref "name", ref "_semicolon"]),
  ("continue_statement", seq [folded "continue", optional (ref "expression"),
    ref "_semicolon"]),
  ("break_statement", seq [folded "break", optional (ref "expression"), ref "_semicolon"]),
  ("integer", token (.anyOf [
    .seqOf [.chars (.range '1' '9'), .many (.chars .digit),
      .many (.cat (.text "_") (.many1 (.chars .digit)))],
    .seqOf [.text "0", .optional (.chars (.oneOf "oO")), .many (.chars (.range '0' '7')),
      .many (.cat (.text "_") (.many1 (.chars (.range '0' '7'))))],
    .seqOf [.text "0", .chars (.oneOf "xX"), .many1 (.chars .hexDigit),
      .many (.cat (.text "_") (.many1 (.chars .hexDigit)))],
    .seqOf [.text "0", .chars (.oneOf "bB"), .many1 (.chars (.range '0' '1')),
      .many (.cat (.text "_") (.many1 (.chars (.range '0' '1'))))]]) 0),
  ("return_statement", seq [folded "return", optional (ref "expression"), ref "_semicolon"]),
  ("throw_expression", seq [folded "throw", ref "expression"]),
  ("while_statement", seq [folded "while",
    field "condition" (ref "parenthesized_expression"),
    choice [
      field "body" (ref "statement"),
      seq [field "body" (ref "colon_block"), folded "endwhile", ref "_semicolon"]]]),
  ("do_statement", seq [folded "do",
    field "body" (ref "statement"),
    folded "while",
    field "condition" (ref "parenthesized_expression"),
    ref "_semicolon"]),
  ("for_statement", seq [folded "for", "(",
    field "initialize" (optional (ref "_expressions")), ";",
    field "condition" (optional (ref "_expressions")), ";",
    field "update" (optional (ref "_expressions")),
    ")",
    choice [
      ref "_semicolon",
      field "body" (ref "statement"),
      seq [":", field "body" (repeat0 (ref "statement")), folded "endfor",
        ref "_semicolon"]]]),
  ("_expressions", choice [ref "expression", ref "sequence_expression"]),
  ("sequence_expression", precLevel (-1) (seq [ref "expression", ",",
    choice [ref "sequence_expression", ref "expression"]])),
  ("foreach_statement", seq [folded "foreach", "(",
    ref "expression",
    folded "as",
    choice [shownAs "pair" (ref "foreach_pair"), ref "_foreach_value"],
    ")",
    choice [
      ref "_semicolon",
      field "body" (ref "statement"),
      seq [field "body" (ref "colon_block"), folded "endforeach", ref "_semicolon"]]]),
  ("foreach_pair", seq [ref "expression", "=>", ref "_foreach_value"]),
  ("_foreach_value", choice [ref "by_ref", ref "expression", ref "list_literal"]),
  ("if_statement", seq [folded "if",
    field "condition" (ref "parenthesized_expression"),
    choice [
      seq [field "body" (ref "statement"),
        repeat0 (field "alternative" (ref "else_if_clause")),
        optional (field "alternative" (ref "else_clause"))],
      seq [field "body" (ref "colon_block"),
        repeat0 (field "alternative" (shownAs "else_if_clause" (ref "else_if_clause_2"))),
        optional (field "alternative" (shownAs "else_clause" (ref "else_clause_2"))),
        folded "endif",
        ref "_semicolon"]]]),
  ("colon_block", seq [":", repeat0 (ref "statement")]),
  ("else_if_clause", seq [folded "elseif",
    field "condition" (ref "parenthesized_expression"),
    field "body" (ref "statement")]),
  ("else_clause", seq [folded "else", field "body" (ref "statement")]),
  ("else_if_clause_2", seq [folded "elseif",
    field "condition" (ref "parenthesized_expression"),
    field "body" (ref "colon_block")]),
  ("else_clause_2", seq [folded "else", field "body" (ref "colon_block")]),
  ("match_expression", seq [folded "match",
    field "condition" (ref "parenthesized_expression"),
    field "body" (ref "match_block")]),
  ("match_block", left (.level 0) (seq ["\x7b",
    commaSep (choice [
      ref "match_conditional_expression", ref "match_default_expression"]),
    optional ",",
    "\x7d"])),
  ("match_condition_list", seq [commaSep1 (ref "expression"), optional ","]),
  ("match_conditional_expression", seq [
    field "conditional_expressions" (ref "match_condition_list"),
    "=>",
    field "return_expression" (ref "expression")]),
  ("match_default_expression", seq [folded "default", "=>",
    field "return_expression" (ref "expression")]),
  ("switch_statement", seq [folded "switch",
    field "condition" (ref "parenthesized_expression"),
    field "body" (ref "switch_block")]),
  ("switch_block", choice [
    seq ["\x7b", repeat0 (choice [ref "case_statement", ref "default_statement"]), "\x7d"],
    seq [":", repeat0 (choice [ref "case_statement", ref "default_statement"]),
      folded "endswitch", ref "_semicolon"]]),
  ("case_statement", seq [folded "case",
    field "value" (ref "expression"),
    choice [":", ";"],
    repeat0 (ref "statement")]),
  ("default_statement", seq [folded "default", choice [":", ";"],
    repeat0 (ref "statement")]),
  ("compound_statement", seq ["\x7b", repeat0 (ref "statement"), "\x7d"]),
  ("named_label_statement", seq [ref "name", ":"]),
  ("expression_statement", seq [ref "expression", ref "_semicolon"])]

end CodeAtlas.Dialect.Php
