import CodeAtlas.Grammar.Rule

/-! Strings, numbers, names and comments of the TSX grammar. -/

namespace CodeAtlas.Dialect.Tsx

open CodeAtlas.Grammar CodeAtlas.Grammar.Rule

/-- What no name holds, apart from digits: controls, blanks, punctuation. -/
def notInNames : List (Nat × Nat) :=
  [(0, 0x1f)] ++ (CharSet.oneOf ":;\x60\"'@#.,|^&<=>+-*/\\%?!~()[]\x7b\x7d").ranges
    ++ CharSet.spaceSeparators.ranges
    ++ [(0xfeff, 0xfeff), (0x2060, 0x2060), (0x200b, 0x200b), (0x2028, 0x2029)]

/-- A character written by its number. -/
def unicodeEscape : Pattern := .alt
  (.cat (.text "\\u") (.between (.chars .hexDigit) 4 0))
  (.seqOf [.text "\\u\x7b", .many1 (.chars .hexDigit), .text "\x7d"])

def namePattern : Pattern := .cat
  (.alt (.chars ⟨notInNames ++ [(48, 57)], true⟩) unicodeEscape)
  (.many (.alt (.chars ⟨notInNames, true⟩) unicodeEscape))

/-- Digits with single underscores between them. -/
def digits (set : CharSet) : Pattern :=
  .cat (.chars set) (.many (.cat (.optional (.text "_")) (.chars set)))

def numberPattern : Pattern :=
  let decimal := digits .digit
  let hex := .cat (.alt (.text "0x") (.text "0X")) (digits .hexDigit)
  let binary := .cat (.alt (.text "0b") (.text "0B")) (digits (.range '0' '1'))
  let octal := .cat (.alt (.text "0o") (.text "0O")) (digits (.range '0' '7'))
  let exponent := .seqOf [.chars (.oneOf "eE"), .optional (.chars (.oneOf "+-")), decimal]
  let integer := .alt (.text "0") (.seqOf [.optional (.text "0"), .chars (.range '1' '9'),
    .optional (.cat (.optional (.text "_")) decimal)])
  .anyOf [
    hex,
    .seqOf [integer, .text ".", .optional decimal, .optional exponent],
    .seqOf [.text ".", decimal, .optional exponent],
    .cat integer exponent,
    decimal,
    binary,
    octal,
    .cat (.anyOf [hex, binary, octal, decimal]) (.text "n")]

/-- A block comment from its opening to the first closing. -/
def blockComment : Pattern := .seqOf [
  .text "/*",
  .many (.chars (.noneOf "*")),
  .many1 (.text "*"),
  .many (.seqOf [.chars (.noneOf "/*"), .many (.chars (.noneOf "*")), .many1 (.text "*")]),
  .text "/"]

def regexClass : Pattern := .seqOf [
  .text "[",
  .many (.alt (.cat (.text "\\") (.chars (.noneOf "\n"))) (.chars (.noneOf "]\n\\"))),
  .text "]"]

def lexemes : List (String × Rule) := [
  ("string", choice [
    seq ["\"",
      repeat0 (choice [
        shownAs "string_fragment" (ref "unescaped_double_string_fragment"),
        ref "escape_sequence"]),
      "\""],
    seq ["'",
      repeat0 (choice [
        shownAs "string_fragment" (ref "unescaped_single_string_fragment"),
        ref "escape_sequence"]),
      "'"]]),
  ("unescaped_double_string_fragment", immediate (.many1 (.chars (.noneOf "\"\\\r\n"))) 1),
  ("unescaped_single_string_fragment", immediate (.many1 (.chars (.noneOf "'\\\r\n"))) 1),
  ("escape_sequence", immediate (.cat (.text "\\") (.anyOf [
    .chars ⟨[(120, 120), (117, 117), (48, 55)], true⟩,
    .between (.chars (.range '0' '7')) 1 2,
    .cat (.text "x") (.between (.chars .hexDigit) 2 0),
    .cat (.text "u") (.between (.chars .hexDigit) 4 0),
    .seqOf [.text "u\x7b", .many1 (.chars .hexDigit), .text "\x7d"],
    .cat (.chars (.oneOf "\r?")) (.chars ⟨[(10, 10), (0x2028, 0x2029)], false⟩)])) 0),
  ("comment", token (.alt
    (.cat (.text "//") (.many (.chars ⟨[(10, 10), (13, 13), (0x2028, 0x2029)], true⟩)))
    blockComment) 0),
  ("template_string", seq ["\x60",
    repeat0 (choice [
      shownAs "string_fragment" (ref "_template_chars"),
      ref "escape_sequence",
      ref "template_substitution"]),
    "\x60"]),
  ("template_substitution", seq ["$\x7b", ref "_expressions", "\x7d"]),
  ("regex", seq ["/",
    field "pattern" (ref "regex_pattern"),
    immediate (.text "/") 1,
    optional (field "flags" (ref "regex_flags"))]),
  ("regex_pattern", immediate (.many1 (.anyOf [
    regexClass,
    .cat (.text "\\") (.chars (.noneOf "\n")),
    .chars (.noneOf "/\\[\n")])) (-1)),
  ("regex_flags", immediate (.many1 (.chars (.range 'a' 'z'))) 0),
  ("number", token numberPattern 0),
  ("_identifier", choice [ref "undefined", ref "identifier"]),
  ("identifier", token namePattern 0),
  ("private_property_identifier", token (.cat (.text "#") namePattern) 0),
  ("meta_property", choice [seq ["new", ".", "target"], seq ["import", ".", "meta"]]),
  ("this", text "this"),
  ("super", text "super"),
  ("true", text "true"),
  ("false", text "false"),
  ("null", text "null"),
  ("undefined", text "undefined")]

end CodeAtlas.Dialect.Tsx
