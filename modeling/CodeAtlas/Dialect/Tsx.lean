import CodeAtlas.Dialect.Tsx.Statements
import CodeAtlas.Dialect.Tsx.Expressions
import CodeAtlas.Dialect.Tsx.Lexemes
import CodeAtlas.Dialect.Tsx.Members
import CodeAtlas.Dialect.Tsx.Types

/-! The TSX grammar as a whole. It reads every script and typed script file. -/

namespace CodeAtlas.Dialect.Tsx

open CodeAtlas.Grammar

/-- Ranks from the tightest to the loosest; two parts that no list holds together are
equally tight. -/
def ranks : List (List Rank) := [
  [.named "member", .named "template_call", .named "call", .rule "update_expression",
    .named "unary_void", .named "binary_exp", .named "binary_times", .named "binary_plus",
    .named "binary_shift", .named "binary_compare", .named "binary_relation",
    .named "binary_equality", .named "bitwise_and", .named "bitwise_xor",
    .named "bitwise_or", .named "logical_and", .named "logical_or", .named "ternary",
    .rule "sequence_expression", .rule "arrow_function"],
  [.named "assign", .rule "primary_expression"],
  [.named "member", .named "template_call", .named "new", .named "call", .rule "expression"],
  [.named "declare", .named "literal"],
  [.rule "primary_expression", .rule "statement_block", .named "object"],
  [.rule "meta_property", .rule "import"],
  [.rule "import_statement", .rule "import"],
  [.rule "export_statement", .rule "primary_expression"],
  [.rule "lexical_declaration", .rule "primary_expression"],
  [.named "call", .named "instantiation", .named "unary", .named "binary",
    .rule "await_expression", .rule "arrow_function"],
  [.named "extends", .named "instantiation"],
  [.rule "intersection_type", .rule "union_type", .rule "conditional_type",
    .rule "function_type", .named "binary", .rule "type_predicate", .rule "readonly_type"],
  [.rule "mapped_type_clause", .rule "primary_expression"],
  [.rule "accessibility_modifier", .rule "primary_expression"],
  [.named "unary_void", .rule "expression"],
  [.rule "extends_clause", .rule "primary_expression"],
  [.named "unary", .named "assign"],
  [.named "declare", .rule "expression"],
  [.rule "predefined_type", .rule "unary_expression"],
  [.rule "type", .rule "flow_maybe_type"],
  [.rule "tuple_type", .rule "array_type", .rule "pattern", .rule "type"],
  [.rule "readonly_type", .rule "pattern"],
  [.rule "readonly_type", .rule "primary_expression"],
  [.rule "type_query", .rule "subscript_expression", .rule "expression"],
  [.rule "type_query", .rule "_type_query_subscript_expression"],
  [.rule "nested_type_identifier", .rule "generic_type", .rule "primary_type",
    .rule "lookup_type", .rule "index_type_query", .rule "type"],
  [.rule "as_expression", .rule "satisfies_expression", .rule "primary_type"],
  [.rule "_type_query_member_expression", .rule "member_expression"],
  [.rule "member_expression", .rule "_type_query_member_expression_in_type_annotation"],
  [.rule "_type_query_member_expression", .rule "primary_expression"],
  [.rule "_type_query_subscript_expression", .rule "subscript_expression"],
  [.rule "_type_query_subscript_expression", .rule "primary_expression"],
  [.rule "_type_query_call_expression", .rule "primary_expression"],
  [.rule "_type_query_instantiation_expression", .rule "primary_expression"],
  [.rule "type_query", .rule "primary_expression"],
  [.rule "override_modifier", .rule "primary_expression"],
  [.rule "decorator_call_expression", .rule "decorator"],
  [.rule "literal_type", .rule "pattern"],
  [.rule "predefined_type", .rule "pattern"],
  [.rule "call_expression", .rule "_type_query_call_expression"],
  [.rule "call_expression", .rule "_type_query_call_expression_in_type_annotation"],
  [.rule "new_expression", .rule "primary_expression"],
  [.rule "meta_property", .rule "primary_expression"],
  [.rule "construct_signature", .rule "_property_name"]]

def grammar : Grammar where
  name := "tsx"
  rules := statements ++ expressions ++ lexemes ++ members ++ declarations ++ types
  scanned := [.ref "_automatic_semicolon", .ref "_template_chars", .ref "_ternary_qmark",
    .ref "html_comment", .text "||", .ref "escape_sequence", .ref "regex_pattern",
    .ref "jsx_text", .ref "_function_signature_automatic_semicolon", .ref "__error_recovery"]
  extras := [.ref "comment", .ref "html_comment"]
  blanks := (CharSet.asciiBlank.union .spaceSeparators).union
    ⟨[(0xfeff, 0xfeff), (0x2028, 0x2029), (0x2060, 0x2060), (0x200b, 0x200b)], false⟩
  word := "identifier"
  inlined := ["_expressions", "_semicolon", "_identifier", "_reserved_identifier",
    "_jsx_attribute", "_jsx_element_name", "_jsx_child", "_jsx_element",
    "_jsx_attribute_name", "_jsx_attribute_value", "_jsx_identifier", "_lhs_expression",
    "_type_identifier", "_jsx_start_opening_element"]
  transparent := ["statement", "declaration", "expression", "primary_expression", "pattern",
    "type", "primary_type"]
  ranks := ranks
  contextual := [.ref "unescaped_double_jsx_string_fragment",
    .ref "unescaped_single_jsx_string_fragment", .ref "unescaped_double_string_fragment",
    .ref "unescaped_single_string_fragment", .ref "regex_flags", .ref "jsx_identifier",
    .ref "html_character_reference", .ref "regex_pattern", .text "</", .text "/>", .text "/=", .text "/",
    .text "$\x7b", .text "?:"]

end CodeAtlas.Dialect.Tsx
