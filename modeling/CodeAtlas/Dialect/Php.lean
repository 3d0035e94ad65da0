import CodeAtlas.Dialect.Php.Statements
import CodeAtlas.Dialect.Php.Expressions

/-! The PHP grammar as a whole. -/

namespace CodeAtlas.Dialect.Php

open CodeAtlas.Grammar

def grammar : Grammar where
  name := "php"
  rules := statements ++ expressions ++ strings
  scanned := [.ref "_automatic_semicolon", .ref "encapsed_string_chars",
    .ref "encapsed_string_chars_after_variable", .ref "execution_string_chars",
    .ref "execution_string_chars_after_variable", .ref "encapsed_string_chars_heredoc",
    .ref "encapsed_string_chars_after_variable_heredoc", .ref "_eof", .ref "heredoc_start",
    .ref "heredoc_end", .ref "nowdoc_string", .ref "sentinel_error"]
  extras := [.ref "comment", .ref "text_interpolation"]
  blanks := CharSet.asciiBlank.union
    ⟨[(0xa0, 0xa0), (0x200b, 0x200b), (0x2060, 0x2060), (0xfeff, 0xfeff)], false⟩
  word := "name"
  inlined := ["_namespace_use_type", "_reserved_identifier"]
  transparent := ["statement", "expression", "primary_expression", "type", "literal"]
  ranks := []
  contextual := [.ref "php_tag", inlineText, .text "\\", .text "?", .text "/=", .text "<<=",
    .text "??=", .text "?->", .text "#[", .ref "escape_sequence", .text "\\u", .text "<?",
    quotedEscape, quotedRun, .text "<<<", .text "??", .text "<>", .text "<", .text "<=",
    .text "<=>", .text "<<", .text "/"]

end CodeAtlas.Dialect.Php
