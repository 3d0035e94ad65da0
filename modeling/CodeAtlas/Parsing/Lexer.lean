import CodeAtlas.Grammar.Language
import CodeAtlas.Parsing.Text

/-! Units of a text. Of the units that may stand at a position the longest match wins,
except that a unit which is complete stops those of lower precedence. Of two units of the
same length the one of higher precedence wins, then the exact text, then the first. -/

namespace CodeAtlas.Parsing

open CodeAtlas.Grammar

/-- A unit on the way to a match. -/
structure Thread where
  token : Nat
  rest : Pattern
  precedence : Int
  weight : Nat

structure Match where
  token : Nat
  stop : Nat
  precedence : Int
  weight : Nat

namespace Lexer

def preferred (t : Thread) : Option Match → Bool
  | none => true
  | some m => m.precedence < t.precedence ||
    (m.precedence == t.precedence && m.weight < t.weight)

/-- The best unit that is complete at the position. -/
def completed (threads : List Thread) (pos : Nat) : Option Match :=
  threads.foldl (fun best t =>
    if t.rest.accepts && preferred t best then some ⟨t.token, pos, t.precedence, t.weight⟩
    else best) none

def stepThreads (c : Char) (threads : List Thread) : List Thread :=
  threads.filterMap fun t =>
    let rest := t.rest.after c
    if rest.isFail then none else some { t with rest }

/-- The longest match from a position and how far the text was read for it. -/
def run (text : Text) (pos : Nat) (threads : List Thread) (best : Option Match) :
    Option Match × Nat :=
  let here := completed threads pos
  let threads := match here with
    | some m => threads.filter fun t => m.precedence ≤ t.precedence
    | none => threads
  let best := here <|> best
  if h : pos < text.chars.size then
    match stepThreads text.chars[pos] threads with
    | [] => (best, pos)
    | t :: ts => run text (pos + 1) (t :: ts) best
  else (best, pos)
termination_by text.chars.size - pos

def weightOf (u : Lexeme) : Nat := (if u.text?.isSome then 2 else 0) + (if u.immediate then 1 else 0)

/-- The units that may stand at a position, for a set of tokens in which a word of the
grammar stands for the word rule. The word rule comes last, so that a unit which reads the
same text as well as a word does is not taken for a word. -/
def candidates (l : Language) (tokens : TokenSet) (immediate : Bool) : List Thread :=
  let wordWanted := tokens.contains l.word ||
    tokens.meets l.isWord
  let thread? (i : Nat) (wanted : Bool) : Option Thread :=
    ((l.tokens[i]?).bind (·.unit?)).bind fun u =>
      if wanted && (immediate || !u.immediate) then some ⟨i, u.pattern, u.precedence, weightOf u⟩
      else none
  let others := (List.range l.tokens.size).filterMap fun i =>
    if i == l.word then none else thread? i (tokens.contains i && !l.isWord.contains i)
  others ++ (thread? l.word wordWanted).toList

inductive Outcome
  | found (token start stop : Nat)
  /-- Nothing was recognised; blanks end at `start`, and the text was read up to `reached`. -/
  | failed (start reached : Nat)

/-- Reads a unit, past any blanks before it. -/
def read (l : Language) (text : Text) (tokens : TokenSet) (immediate : Bool) (pos : Nat) :
    Outcome :=
  match run text pos (candidates l tokens immediate) none with
  | (some m, reached) =>
    if m.stop == pos then .failed pos reached else .found m.token pos m.stop
  | (none, reached) =>
    if h : pos < text.chars.size then
      if l.grammar.blanks.contains text.chars[pos] then read l text tokens false (pos + 1)
      else .failed pos reached
    else if tokens.contains Language.endToken then .found Language.endToken pos pos
    else .failed pos reached
termination_by text.chars.size - pos

/-- The word of the grammar that a text is, if it is one. -/
def wordToken? (l : Language) (word : List Char) : Option Nat :=
  let text := String.ofList word
  match l.words[text.toLower]? with
  | none => none
  | some entries =>
    let exact := entries.find? fun (i, anyCase) =>
      !anyCase && (l.tokens[i]?.bind (·.unit?)).bind (·.text?) == some text
    match exact with
    | some (i, _) => some i
    | none => (entries.find? (·.2)).map Prod.fst

end Lexer

end CodeAtlas.Parsing
