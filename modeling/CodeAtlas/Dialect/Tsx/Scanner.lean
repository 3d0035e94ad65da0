import CodeAtlas.Parsing.Scanner

/-! The scanner of the TSX dialect: semicolons that line ends stand for, the text of
templates and of markup, the question mark of a conditional, and comments in the manner of
markup. -/

namespace CodeAtlas.Dialect.Tsx

open CodeAtlas.Parsing

/-! The units, in the order in which the grammar lists them. -/

def automaticSemicolon : Nat := 0
def templateChars : Nat := 1
def ternaryMark : Nat := 2
def htmlComment : Nat := 3
def logicalOr : Nat := 4
def escapeSequence : Nat := 5
def regexPattern : Nat := 6
def jsxText : Nat := 7
def signatureSemicolon : Nat := 8

/-- Blanks that may separate words; blanks that forbid a line break are none. -/
def isBlank (c : Char) : Bool :=
  let n := c.toNat
  (9 ≤ n && n ≤ 13) || n == 32 || n == 0x1680 || (0x2000 ≤ n && n ≤ 0x2006) ||
    (0x2008 ≤ n && n ≤ 0x200a) || n == 0x2028 || n == 0x2029 || n == 0x205f || n == 0x3000

def isLineEnd (c : Char) : Bool := c == '\n' || c == '\u2028' || c == '\u2029'

def isLetter (c : Char) : Bool := c.isAlpha || c.toNat ≥ 0xaa

/-- The characters of a template up to what is not plain, if there are any. -/
def scanTemplate (text : Text) (first : Nat) : Nat → Nat → Option Nat
  | 0, _ => none
  | fuel + 1, pos =>
    let stopHere := if first < pos then some pos else none
    match text.look pos with
    | '\x60' => stopHere
    | '\x00' => none
    | '$' => if text.look (pos + 1) == '\x7b' then stopHere else scanTemplate text first fuel (pos + 1)
    | '\\' => stopHere
    | _ => scanTemplate text first fuel (pos + 1)

/-- Where a block comment ends. The position is behind the opening. -/
def blockEnd (text : Text) : Nat → Nat → Nat
  | 0, pos => pos
  | fuel + 1, pos =>
    match text.at? pos with
    | none => pos
    | some '\x00' => pos
    | some '*' => if text.look (pos + 1) == '/' then pos + 2 else blockEnd text fuel (pos + 1)
    | some _ => blockEnd text fuel (pos + 1)

/-- Passes blanks and comments; a slash that begins no comment is in the way. The flag says
whether a comment that ends with its line was passed. -/
def skipGap (text : Text) : Nat → Nat → Bool → Option Nat × Bool
  | 0, _, seen => (none, seen)
  | fuel + 1, pos, seen =>
    let pos := text.skipWhile isBlank pos
    if text.look pos != '/' then (some pos, seen)
    else match text.look (pos + 1) with
      | '/' =>
        let stop := text.skipWhile (fun c => c != '\x00' && c != '\n') (pos + 2)
        skipGap text fuel stop true
      | '*' => skipGap text fuel (blockEnd text text.size (pos + 2)) seen
      | _ => (none, seen)

/-- Whether a semicolon may stand before what follows a line end. -/
def admitsSemicolon (text : Text) (valid : Nat → Bool) (pos : Nat) : Bool :=
  match text.look pos with
  | '\x60' | ',' | '.' | ';' | '*' | '%' | '>' | '<' | '=' | '?' | '^' | '|' | '&' | '/' | ':' =>
    false
  | '\x7b' => !valid signatureSemicolon
  | '(' | '[' => !valid logicalOr
  | '+' => text.look (pos + 1) == '+'
  | '-' => text.look (pos + 1) == '-'
  | '!' => text.look (pos + 1) != '='
  | 'i' =>
    if text.look (pos + 1) != 'n' then true
    else if !isLetter (text.look (pos + 2)) then false
    else if text.slice (pos + 2) (pos + 10) != "stanceof".toList then true
    else isLetter (text.look (pos + 10))
  | _ => true

/-- What the search for a semicolon found. -/
structure Semicolon where
  found : Bool
  /-- Whether a comment was passed, and where the search ended. -/
  comment : Bool
  pos : Nat

/-- Searches the line for the place of a semicolon, then what follows the line end. -/
def scanSemicolon (text : Text) (valid : Nat → Bool) : Nat → Nat → Semicolon
  | 0, pos => ⟨false, false, pos⟩
  | fuel + 1, pos =>
    let c := text.look pos
    if c == '\x00' then ⟨true, false, pos⟩
    else if c == '\x7d' then
      let p := text.skipWhile isBlank (pos + 1)
      ⟨text.look p != ':' || valid logicalOr, false, p⟩
    else if !isBlank c then ⟨false, false, pos⟩
    else if c == '\n' then
      match skipGap text text.size (pos + 1) false with
      | (none, comment) => ⟨false, comment, pos + 1⟩
      | (some p, comment) => ⟨admitsSemicolon text valid p, comment, p⟩
    else scanSemicolon text valid fuel (pos + 1)

/-- The question mark of a conditional, as against that of an optional part. -/
def scanTernary (text : Text) (pos : Nat) : Option (Nat × Nat) :=
  let start := text.skipWhile isBlank pos
  if text.look start != '?' then none
  else match text.look (start + 1) with
    | '?' | '.' => none
    | _ =>
      let p := text.skipWhile isBlank (start + 1)
      match text.look p with
      | ':' | ')' | ',' => none
      | '.' => if (text.look (p + 1)).isDigit then some (start, start + 1) else none
      | _ => some (start, start + 1)

/-- A comment in the manner of markup, which takes the rest of its line. -/
def scanHtmlComment (text : Text) (pos : Nat) : Option (Nat × Nat) :=
  let start := text.skipWhile isBlank pos
  let opens (mark : String) : Bool := text.slice start (start + mark.length) == mark.toList
  if opens "<!--" || opens "-->" then
    let behind := start + (if opens "<!--" then 4 else 3)
    some (start, text.skipWhile (fun c => c != '\x00' && !isLineEnd c) behind)
  else none

/-- Text between markup elements. Blanks around line ends are no text. -/
def scanJsxText (text : Text) (pos : Nat) : Option Nat :=
  let ends (c : Char) : Bool :=
    c == '\x00' || c == '<' || c == '>' || c == '\x7b' || c == '\x7d' || c == '&'
  let stop := text.skipWhile (fun c => !ends c) pos
  let (saw, _) := (text.slice pos stop).foldl (fun (saw, atLine) c =>
    if c == '\n' then (saw, true)
    else
      let atLine := atLine && isBlank c
      (saw || !atLine, atLine)) (false, false)
  if saw then some stop else none

def scan : Scanner := fun text valid pending pos =>
  let ternary := (scanTernary text pos).map fun (start, stop) =>
    (⟨ternaryMark, start, stop, pending⟩ : Found)
  if valid templateChars then
    if valid automaticSemicolon then none
    else (scanTemplate text pos (text.size + 2) pos).map fun stop =>
      ⟨templateChars, pos, stop, pending⟩
  else
    let markup := if valid jsxText then scanJsxText text pos else none
    match markup with
    | some stop => some ⟨jsxText, pos, stop, pending⟩
    | none =>
      if valid automaticSemicolon || valid signatureSemicolon then
        let s := scanSemicolon text valid (text.size + 2) pos
        if s.found then some ⟨automaticSemicolon, pos, pos, pending⟩
        else if !s.comment && valid ternaryMark && text.look s.pos == '?' then ternary
        else none
      else if valid ternaryMark then ternary
      else if valid htmlComment && !valid logicalOr && !valid escapeSequence
          && !valid regexPattern then
        (scanHtmlComment text pos).map fun (start, stop) => ⟨htmlComment, start, stop, pending⟩
      else none

end CodeAtlas.Dialect.Tsx
