import CodeAtlas.Text.Blank

/-! # Decimal integers

Integers as people write them in settings: blanks around them, a sign, decimal digits of any
script, and single underscores between digits. -/

namespace CodeAtlas.Text

/-- The code points of the digit zero; the other nine digits follow each (Unicode 15). -/
def zeroDigits : Array Nat := #[
  0x30, 0x660, 0x6f0, 0x7c0, 0x966, 0x9e6, 0xa66, 0xae6, 0xb66, 0xbe6, 0xc66, 0xce6, 0xd66,
  0xde6, 0xe50, 0xed0, 0xf20, 0x1040, 0x1090, 0x17e0, 0x1810, 0x1946, 0x19d0, 0x1a80, 0x1a90,
  0x1b50, 0x1bb0, 0x1c40, 0x1c50, 0xa620, 0xa8d0, 0xa900, 0xa9d0, 0xa9f0, 0xaa50, 0xabf0,
  0xff10, 0x104a0, 0x10d30, 0x11066, 0x110f0, 0x11136, 0x111d0, 0x112f0, 0x11450, 0x114d0,
  0x11650, 0x116c0, 0x11730, 0x118e0, 0x11950, 0x11c50, 0x11d50, 0x11da0, 0x11f50, 0x16a60,
  0x16ac0, 0x16b50, 0x1d7ce, 0x1d7d8, 0x1d7e2, 0x1d7ec, 0x1d7f6, 0x1e140, 0x1e2f0, 0x1e4f0,
  0x1e950, 0x1fbf0]

def digitValue? (c : Char) : Option Nat :=
  zeroDigits.findSome? fun z =>
    if z ≤ c.toNat && c.toNat < z + 10 then some (c.toNat - z) else none

/-- White space that may surround an integer: of ASCII, only what moves the cursor. -/
def isMargin (c : Char) : Bool :=
  if c.toNat < 128 then (9 ≤ c.toNat && c.toNat ≤ 13) || c.toNat == 32 else isBlank c

/-- The values of digits with single underscores between them. `afterDigit` says that a digit
stands before. -/
def digitValues? (afterDigit : Bool) : List Char → Option (List Nat)
  | [] => if afterDigit then some [] else none
  | c :: cs =>
    if c == '_' then (if afterDigit then digitValues? false cs else none)
    else match digitValue? c with
      | some d => (digitValues? true cs).map (d :: ·)
      | none => none

/-- No more digits than this are read. -/
def maxDigits : Nat := 4300

def natural? (cs : List Char) : Option Nat :=
  match digitValues? false cs with
  | some ds => if ds.length ≤ maxDigits then some (ds.foldl (fun n d => 10 * n + d) 0) else none
  | none => none

def integer? (s : String) : Option Int :=
  match trimChars isMargin s.toList with
  | '-' :: cs => (natural? cs).map fun n => -(n : Int)
  | '+' :: cs => (natural? cs).map Int.ofNat
  | cs => (natural? cs).map Int.ofNat

end CodeAtlas.Text
