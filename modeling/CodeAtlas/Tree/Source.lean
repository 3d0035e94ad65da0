import CodeAtlas.Text.Utf8
import CodeAtlas.Tree.Node

/-! # Source texts

A source text with its bytes. Nodes of a tree count bytes; people count lines, from one, and
characters within a line, from zero. -/

namespace CodeAtlas.Tree

structure Source where
  chars : List Char
  bytes : ByteArray
  encoded : bytes = chars.utf8Encode

namespace Source

def ofString (text : String) : Source := ⟨text.toList, text.toUTF8, text.utf8Encode_toList.symm⟩

end Source

/-- A row and a character within it, both counted from zero. -/
structure Position where
  row : Nat
  column : Nat
  deriving Repr, DecidableEq

/-- From where to where a node reaches. -/
structure Span where
  start : Position
  stop : Position
  deriving Repr, DecidableEq

/-- The byte that ends a line. -/
def lineBreak : UInt8 := 10

/-- The offset behind the last line break among the first `n` bytes, zero if there is none. -/
def behindBreak (bytes : ByteArray) : Nat → Nat
  | 0 => 0
  | n + 1 => if bytes.data[n]? = some lineBreak then n + 1 else behindBreak bytes n

namespace Source

/-- Where the line of a byte begins. -/
def lineStart (s : Source) (byte : Nat) : Nat := behindBreak s.bytes (min byte s.bytes.size)

/-- The number of line breaks before a byte. -/
def row (s : Source) (byte : Nat) : Nat := (s.bytes.extract 0 byte).data.toList.count lineBreak

/-- The number of characters for which the bytes of a line stand that come before a byte, where a
character that the byte cuts apart is a replacement character. -/
def column (s : Source) (byte : Nat) : Nat :=
  (Text.decode (s.bytes.extract (s.lineStart byte) byte).data.toList).length

def position (s : Source) (byte : Nat) : Position := ⟨s.row byte, s.column byte⟩

/-- The line of a node, counted from one. -/
def line (s : Source) (n : Node) : Nat := (s.position n.start).row + 1

def span (s : Source) (n : Node) : Span := ⟨s.position n.start, s.position n.stop⟩

/-- The text of a node, unless it cannot be had. -/
def textOf? (s : Source) (n : Node) : Option String :=
  if n.face.silent then none else some (Text.decodeBytes (s.bytes.extract n.start n.stop))

/-- The text of the first child with a field name. -/
def fieldText? (s : Source) (n : Node) (field : String) : Option String :=
  (n.child? field).bind s.textOf?

end Source

/-- A text that is there and not empty. -/
def nonempty? (text? : Option String) : Option String := text?.filter (!·.isEmpty)

end CodeAtlas.Tree
