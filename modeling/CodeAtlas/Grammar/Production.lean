import CodeAtlas.Grammar.Rule

/-! Productions: the flat form of a grammar. Every choice has become productions of its
own, every repetition an auxiliary variable that doubles, and every step carries the marks
that surround it. -/

namespace CodeAtlas.Grammar

inductive Sym
  | token (index : Nat)
  | var (index : Nat)
  deriving BEq, Hashable, Repr, DecidableEq, Inhabited

structure Step where
  sym : Sym
  precedence : Precedence
  side : Option Side
  alias? : Option Alias
  field? : Option String
  deriving BEq, Hashable, Repr, Inhabited

structure Production where
  head : Nat
  steps : List Step
  dynamic : Int
  deriving BEq, Hashable, Repr, Inhabited

/-- A rule whose references are symbols. -/
inductive Shape
  | blank
  | sym (s : Sym)
  | seq (members : List Shape)
  | choice (members : List Shape)
  | repeat1 (content : Shape)
  | marked (marks : Marks) (content : Shape)
  deriving BEq, Repr, Inhabited

/-! ### Lexical units of a rule, in the order in which they are written -/

mutual
def Rule.units : Rule → List Lexeme
  | .blank => []
  | .ref _ => []
  | .lex unit => [unit]
  | .seq members => Rule.unitsOf members
  | .choice members => Rule.unitsOf members
  | .repeat1 content => content.units
  | .marked _ content => content.units
def Rule.unitsOf : List Rule → List Lexeme
  | [] => []
  | r :: rest => r.units ++ Rule.unitsOf rest
end

/-! ### From rules to shapes -/

mutual
/-- `none` marks a reference to a rule that does not exist, or a unit without a number. -/
def Rule.shape? (named : String → Option Sym) (unit : Lexeme → Option Sym) :
    Rule → Option Shape
  | .blank => some .blank
  | .ref name => (named name).map .sym
  | .lex u => (unit u).map .sym
  | .seq members => (Rule.shapes? named unit members).map .seq
  | .choice members => (Rule.shapes? named unit members).map .choice
  | .repeat1 content => (content.shape? named unit).map .repeat1
  | .marked marks content => (content.shape? named unit).map (.marked marks)
def Rule.shapes? (named : String → Option Sym) (unit : Lexeme → Option Sym) :
    List Rule → Option (List Shape)
  | [] => some []
  | r :: rest => do return (← r.shape? named unit) :: (← Rule.shapes? named unit rest)
end

/-! ### Repetitions become auxiliary variables -/

/-- The auxiliary variables made so far: for each, the shape that it repeats and the name
of the rule that it was first met in. -/
structure Repeats where
  first : Nat
  made : Array (Shape × String)

mutual
def Shape.expand (owner : String) (rs : Repeats) : Shape → Shape × Repeats
  | .blank => (.blank, rs)
  | .sym s => (.sym s, rs)
  | .seq members =>
    let (ms, rs) := Shape.expandAll owner rs members
    (.seq ms, rs)
  | .choice members =>
    let (ms, rs) := Shape.expandAll owner rs members
    (.choice ms, rs)
  | .repeat1 content =>
    let (inner, rs) := content.expand owner rs
    match rs.made.findIdx? (·.1 == inner) with
    | some i => (.sym (.var (rs.first + i)), rs)
    | none => (.sym (.var (rs.first + rs.made.size)), { rs with made := rs.made.push (inner, owner) })
  | .marked marks content =>
    let (inner, rs) := content.expand owner rs
    (.marked marks inner, rs)
def Shape.expandAll (owner : String) (rs : Repeats) : List Shape → List Shape × Repeats
  | [] => ([], rs)
  | s :: rest =>
    let (s, rs) := s.expand owner rs
    let (rest, rs) := Shape.expandAll owner rs rest
    (s :: rest, rs)
end

/-- The shape of an auxiliary variable: two of itself, or what it repeats. -/
def Shape.doubling (self : Sym) (content : Shape) : Shape :=
  .choice [.seq [.sym self, .sym self], content]

/-! ### Choices become alternatives -/

mutual
/-- The shapes without a choice that a shape stands for. -/
def Shape.alternatives : Shape → List Shape
  | .seq members => (Shape.sequences members).map .seq
  | .choice members => Shape.union members
  | .marked marks content => content.alternatives.map (.marked marks)
  | s => [s]
def Shape.sequences : List Shape → List (List Shape)
  | [] => [[]]
  | s :: rest =>
    let tails := Shape.sequences rest
    s.alternatives.flatMap fun a => tails.map (a :: ·)
def Shape.union : List Shape → List Shape
  | [] => []
  | s :: rest => s.alternatives ++ Shape.union rest
end

/-! ### Steps of an alternative -/

/-- The marks that surround the part being flattened, innermost first. -/
structure Surround where
  precedences : List Precedence
  sides : List Side
  aliases : List Alias
  fields : List String

def Surround.enter (around : Surround) (m : Marks) : Surround where
  precedences := match m.precedence with
    | .unset => around.precedences
    | p => p :: around.precedences
  sides := m.side.toList ++ around.sides
  aliases := m.alias?.toList ++ around.aliases
  fields := m.field?.toList ++ around.fields

/-- Replaces the marks of the last step by those outside a part that ends early. -/
def leaveLast (around : Surround) (m : Marks) (steps : Array Step) : Array Step :=
  match steps.back? with
  | none => steps
  | some last =>
    let last := match m.precedence with
      | .unset => last
      | _ => { last with precedence := around.precedences.head?.getD .unset }
    let last := match m.side with
      | none => last
      | some _ => { last with side := around.sides.head? }
    steps.pop.push last

mutual
/-- Appends the steps of a shape. `atEnd` says that the shape ends its production, in which
case its last step keeps the marks of the shape. -/
def Shape.flatten (around : Surround) (atEnd : Bool) (steps : Array Step) (dynamic : Int) :
    Shape → Array Step × Int
  | .sym s => (steps.push
      ⟨s, around.precedences.head?.getD .unset, around.sides.head?, around.aliases.head?,
        around.fields.head?⟩, dynamic)
  | .seq members => Shape.flattenAll around atEnd steps dynamic members
  | .marked m content =>
    let dynamic := if m.dynamic.natAbs > dynamic.natAbs then m.dynamic else dynamic
    let (more, dynamic) := content.flatten (around.enter m) atEnd steps dynamic
    if more.size > steps.size && !atEnd then (leaveLast around m more, dynamic)
    else (more, dynamic)
  | _ => (steps, dynamic)
def Shape.flattenAll (around : Surround) (atEnd : Bool) (steps : Array Step) (dynamic : Int) :
    List Shape → Array Step × Int
  | [] => (steps, dynamic)
  | s :: rest =>
    let (steps, dynamic) := s.flatten around (atEnd && rest.isEmpty) steps dynamic
    Shape.flattenAll around atEnd steps dynamic rest
end

/-- The productions of a variable, each once, in the order of the alternatives. -/
def Shape.productions (head : Nat) (s : Shape) : List Production :=
  (s.alternatives.map fun a =>
    let (steps, dynamic) := a.flatten ⟨[], [], [], []⟩ true #[] 0
    ⟨head, steps.toList, dynamic⟩).eraseDups

/-! ### Inlined variables -/

/-- Puts the steps of a production in the place of one step. The step's alias and field
pass to all of them, its precedence and side to the last one if that has none. -/
def Step.splice (outer : Step) (inner : List Step) : List Step :=
  let inner := inner.map fun s =>
    { s with alias? := outer.alias? <|> s.alias?, field? := outer.field? <|> s.field? }
  match inner.getLast? with
  | none => []
  | some last =>
    let precedence := match last.precedence with
      | .unset => outer.precedence
      | p => p
    inner.dropLast ++ [{ last with precedence, side := last.side <|> outer.side }]

/-- All ways to replace the inlined variables of the steps, at most `depth` deep. -/
def inlineSteps (inlined : Nat → Option (List Production)) :
    Nat → List Step → List (List Step × Int)
  | _, [] => [([], 0)]
  | 0, steps => [(steps, 0)]
  | depth + 1, step :: rest =>
    let tails := inlineSteps inlined (depth + 1) rest
    let heads : List (List Step × Int) := match step.sym with
      | .token _ => [([step], 0)]
      | .var v => match inlined v with
        | none => [([step], 0)]
        | some ps => ps.flatMap fun p =>
          (inlineSteps inlined depth (step.splice p.steps)).map fun (steps, dynamic) =>
            (steps, if p.dynamic.natAbs > dynamic.natAbs then p.dynamic else dynamic)
    heads.flatMap fun (hs, hd) => tails.map fun (ts, td) =>
      (hs ++ ts, if td.natAbs > hd.natAbs then td else hd)

def Production.inline (inlined : Nat → Option (List Production)) (p : Production) :
    List Production :=
  (inlineSteps inlined 8 p.steps).map fun (steps, dynamic) =>
    ⟨p.head, steps, if dynamic.natAbs > p.dynamic.natAbs then dynamic else p.dynamic⟩

end CodeAtlas.Grammar
