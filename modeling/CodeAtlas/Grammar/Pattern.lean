import CodeAtlas.Grammar.CharSet

/-! Regular patterns over characters, matched by derivatives: `p.after c` accepts exactly
the texts that `p` accepts once a leading `c` is taken away. -/

namespace CodeAtlas.Grammar

inductive Pattern
  | fail
  | empty
  | chars (set : CharSet)
  | word (text : List Char)
  | cat (first second : Pattern)
  | alt (left right : Pattern)
  | many (content : Pattern)
  deriving BEq, Repr, Inhabited

namespace Pattern

/-- Whether the empty text matches. -/
def accepts : Pattern → Bool
  | fail => false
  | empty => true
  | chars _ => false
  | word text => text.isEmpty
  | cat a b => a.accepts && b.accepts
  | alt a b => a.accepts || b.accepts
  | many _ => true

/-- One pattern after another, with the trivial cases folded away. -/
def andThen : Pattern → Pattern → Pattern
  | fail, _ => fail
  | empty, b => b
  | a, b => cat a b

/-- Whether a pattern stands among the branches of a choice. -/
def hasBranch (p : Pattern) : Pattern → Bool
  | alt a b => p == a || p == b || hasBranch p b
  | q => p == q

/-- Either pattern; a branch that is already there is not added again. -/
def orElse : Pattern → Pattern → Pattern
  | fail, b => b
  | alt a a', b => a.orElse (a'.orElse b)
  | a, b => match b with
    | fail => a
    | b => if hasBranch a b then b else alt a b

/-- What is left to match after the character. -/
def after (c : Char) : Pattern → Pattern
  | fail => fail
  | empty => fail
  | chars set => if set.contains c then empty else fail
  | word [] => fail
  | word (d :: rest) => if c = d then (if rest.isEmpty then empty else word rest) else fail
  | cat a b =>
    let continued := (a.after c).andThen b
    if a.accepts then continued.orElse (b.after c) else continued
  | alt a b => (a.after c).orElse (b.after c)
  | many a => (a.after c).andThen (many a)

def isFail : Pattern → Bool
  | fail => true
  | _ => false

/-- Whether the whole text matches. -/
def matches? (p : Pattern) (text : List Char) : Bool :=
  (text.foldl (fun q c => q.after c) p).accepts

/-! Ways to write patterns down. -/

def text (s : String) : Pattern := word s.toList

def seqOf : List Pattern → Pattern
  | [] => empty
  | [p] => p
  | p :: rest => cat p (seqOf rest)

def anyOf : List Pattern → Pattern
  | [] => fail
  | [p] => p
  | p :: rest => alt p (anyOf rest)

def many1 (p : Pattern) : Pattern := cat p (many p)

def optional (p : Pattern) : Pattern := alt p empty

/-- Between `least` and `least + extra` copies. -/
def between (p : Pattern) (least : Nat) : Nat → Pattern
  | 0 => seqOf (List.replicate least p)
  | extra + 1 => alt (seqOf (List.replicate (least + extra + 1) p)) (p.between least extra)

/-- A word whose ASCII letters match in either case. -/
def anyCase (s : String) : Pattern :=
  seqOf (s.toList.map fun c =>
    chars ⟨[(c.toLower.toNat, c.toLower.toNat), (c.toUpper.toNat, c.toUpper.toNat)], false⟩)

end Pattern

end CodeAtlas.Grammar
