/-! Character classes. A class is a list of ranges of code points, or the complement
of one; membership is decided by comparing code points. -/

namespace CodeAtlas.Grammar

/-- The code points of the ranges, or all others when `negated`. -/
structure CharSet where
  ranges : List (Nat × Nat)
  negated : Bool
  deriving BEq, Repr

namespace CharSet

def contains (s : CharSet) (c : Char) : Bool :=
  (s.ranges.any fun r => r.1 ≤ c.toNat && c.toNat ≤ r.2) != s.negated

def compl (s : CharSet) : CharSet := { s with negated := !s.negated }

/-- The characters of a text, each on its own. -/
def oneOf (text : String) : CharSet := ⟨text.toList.map fun c => (c.toNat, c.toNat), false⟩

/-- Every character that is not in the text. -/
def noneOf (text : String) : CharSet := (oneOf text).compl

def range (first last : Char) : CharSet := ⟨[(first.toNat, last.toNat)], false⟩

/-- Union of two classes that are given by their ranges. -/
def union (a b : CharSet) : CharSet := ⟨a.ranges ++ b.ranges, false⟩

def digit : CharSet := range '0' '9'

def hexDigit : CharSet := ⟨[(48, 57), (65, 70), (97, 102)], false⟩

def letter : CharSet := ⟨[(65, 90), (97, 122)], false⟩

/-- The space separators of Unicode. -/
def spaceSeparators : CharSet :=
  ⟨[(0x20, 0x20), (0xa0, 0xa0), (0x1680, 0x1680), (0x2000, 0x200a), (0x202f, 0x202f),
    (0x205f, 0x205f), (0x3000, 0x3000)], false⟩

/-- Tab, line feed, vertical tab, form feed, carriage return and space. -/
def asciiBlank : CharSet := ⟨[(9, 13), (32, 32)], false⟩

end CharSet

end CodeAtlas.Grammar
