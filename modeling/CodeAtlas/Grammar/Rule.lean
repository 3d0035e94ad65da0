import CodeAtlas.Grammar.Pattern

/-! Grammars as they are written down: named rules built from texts, patterns, sequences,
choices and repetitions, with precedences, aliases and field names attached to parts. -/

namespace CodeAtlas.Grammar

inductive Precedence
  | unset
  | level (n : Int)
  | named (name : String)
  deriving BEq, Hashable, Repr, Inhabited

inductive Side
  | left
  | right
  deriving BEq, Hashable, Repr, DecidableEq

/-- The name under which a part shows in the tree in place of its own. -/
structure Alias where
  name : String
  named : Bool
  deriving BEq, Hashable, Repr, DecidableEq, Inhabited

/-- What can be attached to a part of a rule. -/
structure Marks where
  precedence : Precedence
  side : Option Side
  dynamic : Int
  alias? : Option Alias
  field? : Option String
  deriving BEq, Repr

def Marks.none : Marks := ⟨.unset, .none, 0, .none, .none⟩

/-- A lexical unit. A text outranks a pattern of the same length, and an `immediate` unit
admits no blank before it. -/
structure Lexeme where
  pattern : Pattern
  /-- The exact text, for a unit that is one. -/
  text? : Option String
  /-- The lower-case text of a word that is matched in any case. -/
  folded? : Option String
  precedence : Int
  immediate : Bool
  deriving BEq, Repr, Inhabited

inductive Rule
  | blank
  | ref (name : String)
  | lex (unit : Lexeme)
  | seq (members : List Rule)
  | choice (members : List Rule)
  | repeat1 (content : Rule)
  | marked (marks : Marks) (content : Rule)
  deriving BEq, Repr, Inhabited

namespace Rule

def text (s : String) : Rule := lex ⟨Pattern.text s, some s, none, 0, false⟩

/-- A text that stands alone in a rule is a unit. -/
scoped instance : Coe String Rule := ⟨text⟩

def pattern (p : Pattern) : Rule := lex ⟨p, none, none, 0, false⟩

/-- A word in any case, which leaves nothing in the tree. -/
def foldedBare (s : String) : Rule := lex ⟨Pattern.anyCase s, none, some s, 0, false⟩

def token (p : Pattern) (precedence : Int) : Rule := lex ⟨p, none, none, precedence, false⟩

def immediate (p : Pattern) (precedence : Int) : Rule := lex ⟨p, none, none, precedence, true⟩

/-- Marks added to a part; what the part carries already is kept unless it is replaced. -/
def mark (f : Marks → Marks) : Rule → Rule
  | marked marks content => marked (f marks) content
  | rule => marked (f Marks.none) rule

def prec (p : Precedence) (r : Rule) : Rule := r.mark ({ · with precedence := p })

def precLevel (n : Int) (r : Rule) : Rule := r.prec (.level n)

def precNamed (name : String) (r : Rule) : Rule := r.prec (.named name)

def left (p : Precedence) (r : Rule) : Rule :=
  r.mark ({ · with precedence := p, side := some .left })

def right (p : Precedence) (r : Rule) : Rule :=
  r.mark ({ · with precedence := p, side := some .right })

def dynamic (n : Int) (r : Rule) : Rule := r.mark ({ · with dynamic := n })

def shownAs (name : String) (r : Rule) : Rule := r.mark ({ · with alias? := some ⟨name, true⟩ })

/-- Shows the part as the given text. -/
def shownAsText (text : String) (r : Rule) : Rule :=
  r.mark ({ · with alias? := some ⟨text, false⟩ })

/-- A word in any case, which shows in the tree as it is written here. -/
def folded (s : String) : Rule := (foldedBare s).shownAsText s

def field (name : String) (r : Rule) : Rule := r.mark ({ · with field? := some name })

def optional (r : Rule) : Rule := choice [r, blank]

def repeat0 (r : Rule) : Rule := choice [repeat1 r, blank]

/-- One or more parts with a separator between them. -/
def sepBy1 (separator r : Rule) : Rule := seq [r, repeat0 (seq [separator, r])]

def commaSep1 (r : Rule) : Rule := sepBy1 (text ",") r

def commaSep (r : Rule) : Rule := optional (commaSep1 r)

end Rule

/-- An entry of a list of precedences, from the tightest to the loosest. -/
inductive Rank
  | named (name : String)
  | rule (name : String)
  deriving BEq, Repr

/-- A grammar. The first rule is the start; a rule whose name begins with an underscore,
and a rule listed in `transparent`, leaves no node of its own in the tree. -/
structure Grammar where
  name : String
  rules : List (String × Rule)
  /-- Units that are recognised by a scanner of the dialect. -/
  scanned : List Rule
  /-- What may stand anywhere. -/
  extras : List Rule
  /-- Single characters that may stand anywhere and leave nothing in the tree. -/
  blanks : CharSet
  /-- The rule that words of the grammar are first read as. -/
  word : String
  inlined : List String
  transparent : List String
  ranks : List (List Rank)
  /-- Units that no error recovery looks for, as they read what others should. -/
  contextual : List Rule

end CodeAtlas.Grammar
