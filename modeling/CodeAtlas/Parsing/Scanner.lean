import CodeAtlas.Parsing.Text

/-! Scanners recognise the units of a dialect that no pattern describes, such as a
semicolon that a line end stands for. -/

namespace CodeAtlas.Parsing

/-- The closing words that a scanner still waits for, the innermost first. -/
abbrev Pending := List String

/-- A unit that was found: its number, its bounds, and what is pending behind it. -/
structure Found where
  unit : Nat
  start : Nat
  stop : Nat
  pending : Pending

/-- A scanner is told the text, which units may stand at a position, what is pending there,
and the position. -/
abbrev Scanner := Text → (Nat → Bool) → Pending → Nat → Option Found

end CodeAtlas.Parsing
