import CodeAtlas.Parsing.Scanner

/-! The scanner of the PHP dialect: the end of a text, semicolons that a closing tag stands
for, and the text of strings up to what is inserted into them. -/

namespace CodeAtlas.Dialect.Php

open CodeAtlas.Parsing

/-! The units, in the order in which the grammar lists them. -/

def automaticSemicolon : Nat := 0
def stringChars : Nat := 1
def stringCharsAfter : Nat := 2
def commandChars : Nat := 3
def commandCharsAfter : Nat := 4
def heredocChars : Nat := 5
def heredocCharsAfter : Nat := 6
def endOfText : Nat := 7
def heredocStart : Nat := 8
def heredocEnd : Nat := 9
def nowdocText : Nat := 10
def recovering : Nat := 11

def isBlank (c : Char) : Bool :=
  let n := c.toNat
  (9 ≤ n && n ≤ 13) || n == 32 || n == 0x1680 || (0x2000 ≤ n && n ≤ 0x2006) ||
    (0x2008 ≤ n && n ≤ 0x200a) || n == 0x2028 || n == 0x2029 || n == 0x205f || n == 0x3000

def isNameChar (c : Char) : Bool := c.isAlphanum || c == '_' || c.toNat ≥ 0xaa

def isHexDigit (c : Char) : Bool :=
  c.isDigit || ('a' ≤ c && c ≤ 'f') || ('A' ≤ c && c ≤ 'F')

/-- Whether the characters behind a backslash make an escape. -/
def isEscape (text : Text) (pos : Nat) : Bool :=
  match text.look pos with
  | 'n' | 'r' | 't' | 'v' | 'e' | 'f' | '\\' | '$' | '"' => true
  | 'x' => isHexDigit (text.look (pos + 1))
  | 'u' => true
  | c => '0' ≤ c && c ≤ '7'

inductive Quote
  | string
  | command
  | heredoc
  deriving DecidableEq

def endsTag (c : Char) : Bool := isBlank c || c == ';' || c == ',' || c == ')'

/-- What stands at the head of a line of a heredoc: whether it is the closing word, and
where the search ended. -/
def atClosing (text : Text) (word : String) (pos : Nat) : Bool × Nat :=
  let lead := text.skipWhile isBlank pos
  let chars := word.toList
  let common := ((text.slice lead (lead + chars.length)).zip chars).takeWhile
    fun (a, b) => a == b
  let behind := lead + common.length
  if common.length == chars.length && !chars.isEmpty && endsTag (text.look behind) then
    let p := text.skipWhile (fun c => isBlank c && c != '\r' && c != '\n') behind
    match text.look p with
    | ';' | ',' | ')' | '\n' | '\r' => (true, p)
    | _ => (false, p)
  else (false, behind)

/-- The plain part of a string from `first` on, if there is any. `inserted` says that an
inserted inserted stands just before. -/
def scanString (text : Text) (quote : Quote) (first : Nat) :
    Nat → Nat → Bool → Option Nat
  | 0, _, _ => none
  | fuel + 1, pos, inserted =>
    let stopHere := if first < pos then some pos else none
    let go (p : Nat) : Option Nat := scanString text quote first fuel p false
    match text.at? pos with
    | none => none
    | some '"' => if quote = .string then stopHere else go (pos + 1)
    | some '\x60' => if quote = .command then stopHere else go (pos + 1)
    | some '\n' => if quote = .heredoc then stopHere else go (pos + 1)
    | some '\r' => if quote = .heredoc then stopHere else go (pos + 1)
    | some '\\' =>
      let c := text.look (pos + 1)
      if c == '\x7b' then go (pos + 2)
      else if quote = .command && c == '\x60' then stopHere
      else if quote = .heredoc && c == '\\' then go (pos + 2)
      else if isEscape text (pos + 1) then stopHere
      else go (pos + 1)
    | some '$' =>
      let c := text.look (pos + 1)
      if (isNameChar c && !c.isDigit) || c == '\x7b' then stopHere else go (pos + 1)
    | some '-' =>
      if inserted && text.look (pos + 1) == '>' then
        if isNameChar (text.look (pos + 2)) then stopHere else go (pos + 2)
      else go (pos + 1)
    | some '[' => if inserted then stopHere else go (pos + 1)
    | some '\x7b' => if text.look (pos + 1) == '$' then stopHere else go (pos + 1)
    | some _ => go (pos + 1)

/-- A line of a nowdoc, unless it closes it. -/
def scanNowdoc (text : Text) (word : String) (pos : Nat) : Option Nat :=
  match atClosing text word pos with
  | (true, _) => none
  | (false, p) =>
    let stop := text.skipWhile (fun c => c != '\n' && c != '\r') p
    if text.atEnd stop then none
    else if pos < stop then some stop
    else none

/-- Passes blanks and line comments; none at any other slash. -/
def skipGap (text : Text) : Nat → Nat → Option Nat
  | 0, _ => none
  | fuel + 1, pos =>
    let p := text.skipWhile isBlank pos
    if text.look p != '/' then some p
    else if text.look (p + 1) == '/' then
      skipGap text fuel (text.skipWhile (fun c => c != '\n' && c != '\x00') (p + 2))
    else none

def closing (text : Text) (pending : Pending) (pos : Nat) : Option Found :=
  match pending with
  | [] => none
  | word :: rest =>
    let start := text.skipWhile isBlank pos
    let stop := text.skipWhile isNameChar start
    if text.slice start stop == word.toList then some ⟨heredocEnd, start, stop, rest⟩ else none

def opening (text : Text) (pending : Pending) (pos : Nat) : Option Found :=
  let stop := text.skipWhile isNameChar pos
  if stop == pos then none
  else some ⟨heredocStart, pos, stop, String.ofList (text.slice pos stop) :: pending⟩

def scanPart (text : Text) (unit : Nat) (quote : Quote) (inserted : Bool) (pending : Pending)
    (pos : Nat) : Option Found :=
  let found (stop : Nat) : Found := ⟨unit, pos, stop, pending⟩
  match quote, pending with
  | .heredoc, word :: _ => match atClosing text word pos with
    | (true, _) => none
    | (false, p) => (scanString text quote pos (text.size + 2) p inserted).map found
  | _, _ => (scanString text quote pos (text.size + 2) pos inserted).map found

def scan : Scanner := fun text valid pending pos =>
  if valid recovering then none
  else if valid stringCharsAfter then scanPart text stringCharsAfter .string true pending pos
  else if valid stringChars then scanPart text stringChars .string false pending pos
  else if valid commandCharsAfter then scanPart text commandCharsAfter .command true pending pos
  else if valid commandChars then scanPart text commandChars .command false pending pos
  else if valid heredocCharsAfter then scanPart text heredocCharsAfter .heredoc true pending pos
  else if valid heredocChars then scanPart text heredocChars .heredoc false pending pos
  else if valid nowdocText then match pending with
    | [] => none
    | word :: _ => (scanNowdoc text word pos).map fun stop => ⟨nowdocText, pos, stop, pending⟩
  else if valid heredocEnd then closing text pending pos
  else match skipGap text (text.size + 2) pos with
    | none => none
    | some p =>
      if valid endOfText && text.atEnd p then some ⟨endOfText, pos, pos, pending⟩
      else if valid heredocStart then opening text pending p
      else if valid automaticSemicolon && text.look p == '?' && text.look (p + 1) == '>' then
        some ⟨automaticSemicolon, pos, pos, pending⟩
      else none

end CodeAtlas.Dialect.Php
