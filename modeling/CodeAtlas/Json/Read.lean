import CodeAtlas.Json.Value

/-! # Reading JSON

A text as a value. A fault says what was expected where. Numbers without a finite value are
accepted, and of several members with one key the last gives the value, at the place of the
first. -/

namespace CodeAtlas.Json

inductive Expectation
  | value
  | key
  | colon
  | comma
  | end
  | closingQuote
  | plainCharacter
  | escape
  | hexDigits
  | shortNumber
  deriving Repr, DecidableEq

def Expectation.message : Expectation → String
  | value => "Expecting value"
  | key => "Expecting property name enclosed in double quotes"
  | colon => "Expecting ':' delimiter"
  | comma => "Expecting ',' delimiter"
  | «end» => "Extra data"
  | closingQuote => "Unterminated string starting at"
  | plainCharacter => "Invalid control character at"
  | escape => "Invalid \\escape"
  | hexDigits => "Invalid \\uXXXX escape"
  | shortNumber => "Exceeds the limit for integers"

/-- What was expected, and how many characters were left there. -/
structure Fault where
  expected : Expectation
  left : Nat
  deriving Repr, DecidableEq

/-- A value and the characters behind it. -/
abbrev Reading (α : Type) := Except Fault (α × List Char)

def isSpace (c : Char) : Bool := c == ' ' || c == '\t' || c == '\n' || c == '\r'

def skipSpace (cs : List Char) : List Char := cs.dropWhile isSpace

def missing {α : Type} (e : Expectation) (cs : List Char) : Reading α := .error ⟨e, cs.length⟩

/-! ## Strings -/

def hexValue? (c : Char) : Option Nat :=
  if '0' ≤ c && c ≤ '9' then some (c.toNat - 48)
  else if 'a' ≤ c && c ≤ 'f' then some (c.toNat - 87)
  else if 'A' ≤ c && c ≤ 'F' then some (c.toNat - 55)
  else none

/-- The code of four hexadecimal digits, which must not end the text. -/
def code? : List Char → Option (Nat × List Char)
  | a :: b :: c :: d :: next :: rest => do
    let a ← hexValue? a
    let b ← hexValue? b
    let c ← hexValue? c
    let d ← hexValue? d
    return (((a * 16 + b) * 16 + c) * 16 + d, next :: rest)
  | _ => none

def isHighSurrogate (n : Nat) : Bool := 0xd800 ≤ n && n < 0xdc00

def isLowSurrogate (n : Nat) : Bool := 0xdc00 ≤ n && n < 0xe000

/-- The character of a code; a surrogate of its own has none. -/
def charOf (n : Nat) : Char :=
  if isHighSurrogate n || isLowSurrogate n then '\ufffd' else Char.ofNat n

/-- Joins a high surrogate with the low one that is written behind it. -/
def joined (high : Nat) (rest : List Char) : Except Fault (Char × List Char) :=
  match rest with
  | '\\' :: 'u' :: more => match code? more with
    | some (low, after) =>
      if isLowSurrogate low then
        .ok (Char.ofNat (0x10000 + (high - 0xd800) * 1024 + (low - 0xdc00)), after)
      else .ok (charOf high, rest)
    | none =>
      if 5 ≤ more.length then .error ⟨.hexDigits, more.length + 1⟩ else .ok (charOf high, rest)
  | _ => .ok (charOf high, rest)

def simpleEscape? (c : Char) : Option Char :=
  match c with
  | '"' => some '"'
  | '\\' => some '\\'
  | '/' => some '/'
  | 'b' => some '\x08'
  | 'f' => some '\x0c'
  | 'n' => some '\n'
  | 'r' => some '\r'
  | 't' => some '\t'
  | _ => none

/-- Reads what stands behind a backslash. -/
def readEscape (start : Nat) : List Char → Reading Char
  | [] => .error ⟨.closingQuote, start⟩
  | 'u' :: rest => match code? rest with
    | some (n, after) => if isHighSurrogate n then joined n after else .ok (charOf n, after)
    | none => missing .hexDigits ('u' :: rest)
  | c :: rest => match simpleEscape? c with
    | some d => .ok (d, rest)
    | none => missing .escape ('\\' :: c :: rest)

/-- Reads the characters up to a quote. `start` is what was left at the opening quote. -/
def readChars (start : Nat) : Nat → List Char → List Char → Except Fault (String × List Char)
  | 0, _, _ => .error ⟨.closingQuote, start⟩
  | _ + 1, [], _ => .error ⟨.closingQuote, start⟩
  | fuel + 1, c :: cs, reversed =>
    if c == '"' then .ok (String.ofList reversed.reverse, cs)
    else if c == '\\' then do
      let (d, rest) ← readEscape start cs
      readChars start fuel rest (d :: reversed)
    else if c.toNat < 0x20 then missing .plainCharacter (c :: cs)
    else readChars start fuel cs (c :: reversed)

/-- Reads a string behind its opening quote. -/
def readString (cs : List Char) : Reading String := readChars (cs.length + 1) (cs.length + 1) cs []

/-! ## Numbers -/

def natOf (digits : List Char) : Nat := digits.foldl (fun n c => 10 * n + (c.toNat - 48)) 0

/-- The digits behind a point, if there is one with digits. -/
def readFraction : List Char → List Char × List Char
  | '.' :: cs =>
    let digits := cs.takeWhile Char.isDigit
    if digits.isEmpty then ([], '.' :: cs) else (digits, cs.dropWhile Char.isDigit)
  | cs => ([], cs)

/-- The digits of an exponent, if there are any, as a number. -/
def readPower (negative : Bool) (cs : List Char) : Option (Int × List Char) :=
  let digits := cs.takeWhile Char.isDigit
  if digits.isEmpty then none
  else
    let n : Int := natOf digits
    some (if negative then -n else n, cs.dropWhile Char.isDigit)

def readExponent? : List Char → Option (Int × List Char)
  | e :: cs =>
    if e == 'e' || e == 'E' then match cs with
      | '-' :: rest => readPower true rest
      | '+' :: rest => readPower false rest
      | _ => readPower false cs
    else none
  | [] => none

/-- Integers with more digits are not read. -/
def maxDigits : Nat := 4300

def ofDecimal (d : Decimal) : Json := if d.overflows then .nonFinite else .decimal d

/-- Reads what follows the digits before the point. -/
def readRest (start : List Char) (negative : Bool) (digits cs : List Char) : Reading Json :=
  let signed (n : Nat) : Int := if negative then -(n : Int) else n
  let (fraction, rest) := readFraction cs
  match readExponent? rest with
  | some (power, rest) =>
    .ok (ofDecimal ⟨signed (natOf (digits ++ fraction)), power - fraction.length⟩, rest)
  | none =>
    if fraction.isEmpty then
      if maxDigits < digits.length then missing .shortNumber start
      else .ok (.int (signed (natOf digits)), rest)
    else .ok (ofDecimal ⟨signed (natOf (digits ++ fraction)), -(fraction.length : Int)⟩, rest)

/-- Reads a number behind its sign. `start` is the text from the sign on. -/
def readNumber (start : List Char) (negative : Bool) : List Char → Reading Json
  | '0' :: cs => readRest start negative ['0'] cs
  | c :: cs =>
    if c.isDigit then
      readRest start negative (c :: cs.takeWhile Char.isDigit) (cs.dropWhile Char.isDigit)
    else missing .value start
  | [] => missing .value start

/-! ## Values -/

/-- Reads a word that stands for a value. -/
def readWord (start : List Char) (words : List (String × Json)) : Reading Json :=
  match words.find? fun (word, _) => word.toList.isPrefixOf start with
  | some (word, value) => .ok (value, start.drop word.length)
  | none => missing .value start

def words : List (String × Json) :=
  [("null", .null), ("true", .bool true), ("false", .bool false), ("NaN", .nonFinite),
    ("Infinity", .nonFinite), ("-Infinity", .nonFinite)]

/-- Sets the value of a key, which keeps its place if it has one. -/
def setMember (members : List (String × Json)) (key : String) (value : Json) :
    List (String × Json) :=
  if members.any (·.1 == key) then members.map fun m => if m.1 == key then (key, value) else m
  else members ++ [(key, value)]

mutual

/-- Reads a value. Every character may take two steps of the fuel. -/
def readValue : Nat → List Char → Except Fault (Json × List Char)
  | 0, cs => missing .value cs
  | _ + 1, [] => missing .value []
  | fuel + 1, c :: cs =>
    if c == '"' then (readString cs).map fun (s, rest) => (.string s, rest)
    else if c == '[' then match skipSpace cs with
      | ']' :: rest => .ok (.array [], rest)
      | rest => readElements fuel rest []
    else if c == '\x7b' then match skipSpace cs with
      | '\x7d' :: rest => .ok (.object [], rest)
      | rest => readMembers fuel rest []
    else if c == '-' && cs.head? != some 'I' then readNumber (c :: cs) true cs
    else if c.isDigit then readNumber (c :: cs) false (c :: cs)
    else readWord (c :: cs) words

/-- Reads the elements of an array up to its end, behind those that are read already. -/
def readElements : Nat → List Char → List Json → Except Fault (Json × List Char)
  | 0, cs, _ => missing .value cs
  | fuel + 1, cs, reversed => do
    let (value, rest) ← readValue fuel cs
    match skipSpace rest with
    | ']' :: rest => return (.array (value :: reversed).reverse, rest)
    | ',' :: rest => readElements fuel (skipSpace rest) (value :: reversed)
    | rest => missing .comma rest

/-- Reads the members of an object up to its end, behind those that are read already. -/
def readMembers :
    Nat → List Char → List (String × Json) → Except Fault (Json × List Char)
  | 0, cs, _ => missing .key cs
  | fuel + 1, '"' :: cs, members => do
    let (key, rest) ← readString cs
    match skipSpace rest with
    | ':' :: rest => do
      let (value, rest) ← readValue fuel (skipSpace rest)
      let members := setMember members key value
      match skipSpace rest with
      | '\x7d' :: rest => return (.object members, rest)
      | ',' :: rest => readMembers fuel (skipSpace rest) members
      | rest => missing .comma rest
    | rest => missing .colon rest
  | _ + 1, cs, _ => missing .key cs

end

/-- What was expected, and at which character. -/
structure ReadError where
  expected : Expectation
  position : Nat
  deriving Repr, DecidableEq

/-- Reads a value with nothing but blanks around it. -/
def readAll (cs : List Char) : Except Fault Json :=
  match readValue (2 * cs.length + 2) (skipSpace cs) with
  | .error fault => .error fault
  | .ok (value, rest) => match skipSpace rest with
    | [] => .ok value
    | rest => .error ⟨.end, rest.length⟩

/-- Reads a whole text as one value. A byte order mark at its start does not count. -/
def read (s : String) : Except ReadError Json :=
  let cs := match s.toList with
    | '\ufeff' :: cs => cs
    | cs => cs
  (readAll cs).mapError fun fault => ⟨fault.expected, cs.length - fault.left⟩

end CodeAtlas.Json
