/-! A text with the byte offset and the row of every character. Positions are character
indices; `size` is the position of the end. -/

namespace CodeAtlas.Parsing

structure Text where
  chars : Array Char
  /-- Bytes of UTF-8 before each position. -/
  bytes : Array Nat
  /-- Line feeds before each position. -/
  rows : Array Nat

namespace Text

def ofString (s : String) : Text := Id.run do
  let mut bytes := #[0]
  let mut rows := #[0]
  let mut b := 0
  let mut r := 0
  let chars := s.toList.toArray
  for c in chars do
    b := b + c.utf8Size
    r := if c == '\n' then r + 1 else r
    bytes := bytes.push b
    rows := rows.push r
  return ⟨chars, bytes, rows⟩

@[inline] def size (t : Text) : Nat := t.chars.size

@[inline] def at? (t : Text) (i : Nat) : Option Char := t.chars[i]?

/-- The character at a position; the null character stands at and behind the end. -/
@[inline] def look (t : Text) (i : Nat) : Char := (t.chars[i]?).getD '\x00'

def atEnd (t : Text) (i : Nat) : Bool := t.size ≤ i

def byteOf (t : Text) (i : Nat) : Nat := t.bytes[min i t.size]?.getD 0

def rowOf (t : Text) (i : Nat) : Nat := t.rows[min i t.size]?.getD 0

/-- The characters between two positions. -/
def slice (t : Text) (i j : Nat) : List Char := (t.chars.extract i j).toList

/-- The first position at or behind `i` whose character fails the test. -/
def skipWhile (t : Text) (f : Char → Bool) (i : Nat) : Nat :=
  if h : i < t.chars.size then
    if f t.chars[i] then t.skipWhile f (i + 1) else i
  else i
termination_by t.chars.size - i

end Text

end CodeAtlas.Parsing
