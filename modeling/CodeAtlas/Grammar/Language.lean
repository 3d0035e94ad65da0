import Std.Data.HashMap
import CodeAtlas.Grammar.Production
import CodeAtlas.Grammar.TokenSet

/-! A grammar made ready for parsing: numbered tokens and variables, productions, the
tokens that can begin a variable, and the variables that can stand at its left edge. -/

namespace CodeAtlas.Grammar

structure TokenInfo where
  name : String
  /-- Whether it shows as a named node; one that is not `visible` shows as nothing. -/
  named : Bool
  visible : Bool
  /-- How it is written, unless only the scanner recognises it. -/
  unit? : Option Lexeme
  /-- Its number among the units of the scanner. -/
  scanned? : Option Nat
  deriving Inhabited

structure VarInfo where
  name : String
  named : Bool
  visible : Bool
  auxiliary : Bool
  deriving Inhabited

/-- A place between two steps of a production. -/
structure Spot where
  production : Nat
  head : Nat
  /-- How many steps lie before it. -/
  done : Nat
  next? : Option Sym
  /-- The tokens that can begin the symbol after the next one; `none` if there is none. -/
  follow? : Option TokenSet
  /-- The precedence and the side of the step before it. -/
  precedence : Precedence
  side : Option Side
  /-- The spot behind the next symbol. -/
  advanced : Nat
  deriving Inhabited

/-- How a variable stands at the left edge of another: the tokens that can follow it
there, and whether whatever follows the whole can follow it too. -/
structure Corner where
  follow : TokenSet
  unbounded : Bool
  deriving BEq, Inhabited

structure Language where
  grammar : Grammar
  tokens : Array TokenInfo
  vars : Array VarInfo
  productions : Array Production
  spots : Array Spot
  /-- Per variable, the spots behind the first step of its productions, by first symbol. -/
  starts : Std.HashMap Sym (Array Nat)
  firsts : Array TokenSet
  corners : Array (Array (Option Corner))
  word : Nat
  /-- Words of the grammar by their lower-case text; `true` for a word in any case. -/
  words : Std.HashMap String (List (Nat × Bool))
  isWord : TokenSet
  extraTokens : TokenSet
  /-- Variables that may stand anywhere, with the first token of each production. -/
  extraVars : List Nat
  /-- Tokens that error recovery looks for. -/
  recoverable : TokenSet
  /-- The token of each unit of the scanner. -/
  scannerTokens : Array Nat
  /-- How a symbol shows if every use of it carries an alias. -/
  shownAs : Std.HashMap Sym Alias

namespace Language

/-- The token that ends every text. -/
def endToken : Nat := 0

/-- Stands behind a variable that may stand anywhere: no token of the text. -/
def extraEnd : Nat := 255

/-! ### Numbering -/

structure Numbering where
  tokens : Array TokenInfo
  vars : Array (VarInfo × Rule)
  word : Nat
  scannerTokens : Array Nat

def countUnits (rules : List Rule) : Array (Lexeme × Nat) :=
  (rules.flatMap Rule.units).foldl (fun acc u =>
    match acc.findIdx? (·.1 == u) with
    | some i => acc.modify i fun (v, n) => (v, n + 1)
    | none => acc.push (u, 1)) #[]

def isHidden (name : String) : Bool := name.startsWith "_"

/-- A rule that is a single unit used nowhere else is a token of that name. -/
def soleUnit? (counts : Array (Lexeme × Nat)) (isStart : Bool) : Rule → Option Lexeme
  | .lex u => if !isStart && counts.any fun (v, n) => v == u && n == 1 then some u else none
  | _ => none

def tokenName (grammar : Grammar) (counts : Array (Lexeme × Nat)) (u : Lexeme) : TokenInfo :=
  let owner := grammar.rules.find? fun (_, r) => soleUnit? counts false r == some u
  match owner with
  | some (name, _) => ⟨name, true, !isHidden name, some u, none⟩
  | none => match u.text? with
    | some text => ⟨text, false, true, some u, none⟩
    | none => ⟨u.folded?.getD "", false, false, some u, none⟩

def number (grammar : Grammar) : Numbering := Id.run do
  let rules := grammar.rules.map Prod.snd
  let counts := countUnits (rules ++ grammar.scanned)
  let mut infos := counts.map fun (u, _) => tokenName grammar counts u
  let wordInfo := infos.find? (·.name == grammar.word)
  infos := infos.filter (·.name != grammar.word)
  let mut tokens : Array TokenInfo := #[⟨"end", false, false, none, none⟩]
  tokens := tokens ++ wordInfo.toArray ++ infos
  let mut scannerTokens := #[]
  for (rule, k) in grammar.scanned.zipIdx do
    let name := match rule with
      | .ref name => name
      | .lex u => u.text?.getD ""
      | _ => ""
    match tokens.findIdx? (·.name == name) with
    | some i =>
      tokens := tokens.modify i ({ · with scanned? := some k })
      scannerTokens := scannerTokens.push i
    | none =>
      scannerTokens := scannerTokens.push tokens.size
      tokens := tokens.push ⟨name, true, !isHidden name, none, some k⟩
  let mut vars := #[]
  for ((name, rule), i) in grammar.rules.zipIdx do
    if (soleUnit? counts (i == 0) rule).isNone then
      let visible := !isHidden name && !grammar.transparent.contains name
      vars := vars.push (⟨name, true, visible, false⟩, rule)
  return ⟨tokens, vars, 1, scannerTokens⟩

/-! ### Productions -/

def symbolNamed (n : Numbering) (name : String) : Option Sym :=
  match n.vars.findIdx? (·.1.name == name) with
  | some i => some (.var i)
  | none => (n.tokens.findIdx? fun t => t.name == name && t.named).map .token

def symbolOfUnit (n : Numbering) (u : Lexeme) : Option Sym :=
  (n.tokens.findIdx? (·.unit? == some u)).map .token

/-- The symbol of a rule that is no more than one. -/
def symbolOfRule (n : Numbering) : Rule → Option Sym
  | .ref name => symbolNamed n name
  | .lex u => symbolOfUnit n u
  | _ => none

def tokenOfRule (n : Numbering) (r : Rule) : Option Nat :=
  match symbolOfRule n r with
  | some (.token i) => some i
  | _ => none

/-- Shapes of all variables, auxiliary ones last. -/
def shapes (n : Numbering) : Array (VarInfo × Shape) := Id.run do
  let names := n.vars.foldl (fun (m : Std.HashMap String Sym) v =>
    m.insertIfNew v.1.name (symbolNamed n v.1.name |>.getD (.token 0))) {}
  let mut rs : Repeats := ⟨n.vars.size, #[]⟩
  let mut out := #[]
  for ((info, rule), i) in n.vars.zipIdx do
    let shape := (rule.shape? (fun name => names[name]? <|> symbolNamed n name)
      (symbolOfUnit n)).getD .blank
    match shape, info.visible with
    | .repeat1 content, false =>
      let (inner, rs') := content.expand info.name rs
      rs := rs'
      out := out.push ({ info with auxiliary := true }, Shape.doubling (.var i) inner)
    | shape, _ =>
      let (shape, rs') := shape.expand info.name rs
      rs := rs'
      out := out.push (info, shape)
  for ((content, owner), k) in rs.made.zipIdx do
    out := out.push (⟨owner, false, false, true⟩,
      Shape.doubling (.var (rs.first + k)) content)
  return out

/-! ### First tokens and left corners -/

def firstOfSym (firsts : Array TokenSet) : Sym → TokenSet
  | .token i => .singleton i
  | .var i => firsts[i]?.getD .empty

/-- Adds to each variable the first tokens of the first steps of its productions. -/
def firstRound (productions : Array Production) (firsts : Array TokenSet) : Array TokenSet :=
  productions.foldl (fun acc p =>
    match p.steps with
    | [] => acc
    | s :: _ => acc.modify p.head (·.union (firstOfSym acc s.sym))) firsts

/-- Repeats until nothing changes, at most `fuel` times. -/
def stable {α : Type} [BEq α] (f : α → α) : Nat → α → α
  | 0, a => a
  | fuel + 1, a =>
    let b := f a
    if b == a then a else stable f fuel b

def firstSets (vars : Nat) (productions : Array Production) : Array TokenSet :=
  stable (firstRound productions) vars (Array.replicate vars .empty)

/-- For each variable the variables that begin one of its productions. -/
def edges (vars : Nat) (firsts : Array TokenSet) (productions : Array Production) :
    Array (List (Nat × Option TokenSet)) :=
  let raw := productions.foldl (fun acc p =>
    match p.steps with
    | ⟨.var z, _, _, _, _⟩ :: rest =>
      let entry := (z, rest.head?.map (firstOfSym firsts ·.sym))
      acc.modify p.head fun es => if es.contains entry then es else entry :: es
    | _ => acc) (Array.replicate vars [])
  raw

def joinCorner (new : Corner) : Option Corner → Corner
  | none => new
  | some old => ⟨old.follow.union new.follow, old.unbounded || new.unbounded⟩

/-- Passes the corners of one variable on along the edges. -/
def cornerRound (es : Array (List (Nat × Option TokenSet))) (row : Array (Option Corner)) :
    Array (Option Corner) :=
  (List.range row.size).foldl (fun acc m =>
    match acc[m]?.join with
    | none => acc
    | some c => (es[m]?.getD []).foldl (fun acc (z, follow?) =>
      let new : Corner := match follow? with
        | some follow => ⟨follow, false⟩
        | none => c
      acc.modify z fun old => some (joinCorner new old)) acc) row

def cornersOf (es : Array (List (Nat × Option TokenSet))) (vars y : Nat) :
    Array (Option Corner) :=
  stable (cornerRound es) vars
    ((Array.replicate vars none).set! y (some ⟨.empty, true⟩))

/-! ### Spots -/

/-- What tells two spots apart: two that agree in it are one. -/
structure SpotKey where
  head : Nat
  done : Nat
  length : Nat
  dynamic : Int
  precedence : Precedence
  side : Option Side
  before : List (Option Alias × Option String)
  /-- The symbols before it, if one of them passes fields on. -/
  passed : List Sym
  rest : List Step
  deriving BEq, Hashable

/-- Variables without a node of their own that hold a field. -/
def passesFields (vars : Array VarInfo) (productions : Array Production) : Array Bool :=
  let round (acc : Array Bool) : Array Bool :=
    productions.foldl (fun acc p =>
      let holds := p.steps.any fun s => s.field?.isSome || match s.sym with
        | .token _ => false
        | .var v => !(vars[v]?.map (·.visible)).getD true && acc[v]?.getD false
      if holds then acc.set! p.head true else acc) acc
  stable round vars.size (Array.replicate vars.size false)

def spotKey (vars : Array VarInfo) (passes : Array Bool) (p : Production) (done : Nat) :
    SpotKey :=
  let before := p.steps.take done
  let inherits := before.any fun s => match s.sym with
    | .token _ => false
    | .var v => !(vars[v]?.map (·.visible)).getD true && passes[v]?.getD false
  { head := p.head, done, length := p.steps.length, dynamic := p.dynamic
    precedence := (before.getLast?.map (·.precedence)).getD .unset
    side := before.getLast?.bind (·.side)
    before := before.map fun s => (s.alias?, s.field?)
    passed := if inherits then before.map (·.sym) else []
    rest := p.steps.drop done }

structure SpotTable where
  spots : Array Spot
  starts : Std.HashMap Sym (Array Nat)

def spotTable (vars : Array VarInfo) (firsts : Array TokenSet)
    (productions : Array Production) : SpotTable := Id.run do
  let passes := passesFields vars productions
  let mut spots : Array Spot := #[]
  let mut known : Std.HashMap SpotKey Nat := {}
  let mut starts : Std.HashMap Sym (Array Nat) := {}
  for (p, i) in productions.zipIdx do
    let n := p.steps.length
    -- From the last spot to the first, so that each knows the one behind it.
    let mut behind := 0
    for back in List.range (n + 1) do
      let done := n - back
      let key := spotKey vars passes p done
      match known[key]? with
      | some k => behind := k
      | none =>
        let rest := p.steps.drop done
        let k := spots.size
        spots := spots.push
          { production := i, head := p.head, done
            next? := rest.head?.map (·.sym)
            follow? := rest.tail.head?.map (firstOfSym firsts ·.sym)
            precedence := key.precedence, side := key.side, advanced := behind }
        known := known.insert key k
        behind := k
      if done == 1 then
        match p.steps.head? with
        | none => pure ()
        | some s =>
          let ks := starts.getD s.sym #[]
          if !ks.contains behind then starts := starts.insert s.sym (ks.push behind)
  return ⟨spots, starts⟩

/-! ### Words -/

/-- Whether a unit is a word of the grammar: letters that the word rule also matches. -/
def wordText? (wordPattern : Pattern) (u : Lexeme) : Option (String × Bool) :=
  let text? := match u.text?, u.folded? with
    | some t, _ => some (t, false)
    | none, some t => some (t, true)
    | none, none => none
  match text? with
  | some (t, anyCase) =>
    if !t.isEmpty && wordPattern.matches? t.toList then some (t, anyCase) else none
  | none => none

/-- The words by lower-case text. A word in any case gives way to the same text written
exactly. -/
def wordTable (tokens : Array TokenInfo) (word : Nat) :
    Std.HashMap String (List (Nat × Bool)) × TokenSet := Id.run do
  let pattern := ((tokens[word]?.bind (·.unit?)).map (·.pattern)).getD .fail
  let candidates := tokens.zipIdx.filterMap fun (t, i) =>
    if i == word then none
    else (t.unit?.bind (wordText? pattern)).map fun (text, anyCase) => (i, text, anyCase)
  let mut table : Std.HashMap String (List (Nat × Bool)) := {}
  let mut set := TokenSet.empty
  for (i, text, anyCase) in candidates do
    let shadowed := anyCase && candidates.any fun (j, other, otherCase) =>
      i != j && !otherCase && other.toLower == text.toLower
    if !shadowed then
      table := table.alter text.toLower fun ws => some ((ws.getD []) ++ [(i, anyCase)])
      set := set.insert i
  return (table, set)

/-! ### Aliases that replace a symbol everywhere -/

def aliasTable (productions : Array Production) : Std.HashMap Sym Alias := Id.run do
  let mut uses : Std.HashMap Sym (Option (List (Alias × Nat))) := {}
  for p in productions do
    for s in p.steps do
      uses := uses.alter s.sym fun old => some <| match s.alias?, old with
        | none, _ => none
        | some _, some none => none
        | some a, none => some [(a, 1)]
        | some a, some (some known) =>
          if known.any (·.1 == a) then
            some (known.map fun (b, n) => if a == b then (b, n + 1) else (b, n))
          else some (known ++ [(a, 1)])
  let mut table := {}
  for (sym, known?) in uses.toList do
    match known? with
    | some (first :: rest) =>
      let best := rest.foldl (fun best x => if x.2 > best.2 then x else best) first
      table := table.insert sym best.1
    | _ => pure ()
  return table

/-- The production behind the start rule: a text is what the start rule derives. -/
def wholeText (head : Nat) : Production := ⟨head, [⟨.var 0, .unset, none, none, none⟩], 0⟩

def compile (grammar : Grammar) : Language := Id.run do
  let n := number grammar
  let shaped := shapes n
  let vars := shaped.map Prod.fst
  let flat := shaped.mapIdx fun i (_, s) => s.productions i
  let inlined : Array (Option (List Production)) := flat.mapIdx fun i ps =>
    if grammar.inlined.contains ((vars[i]?.map (·.name)).getD "")
        && !((vars[i]?.map (·.auxiliary)).getD false)
    then some ps else none
  let written := ((flat.toList.zip inlined.toList).flatMap fun (ps, inl) =>
    if inl.isSome then []
    else ps.flatMap (Production.inline fun v => inlined[v]?.join)).toArray
  let productions := written.push (wholeText vars.size)
  let firsts := firstSets vars.size productions
  let es := edges vars.size firsts productions
  let corners := (Array.range vars.size).map (cornersOf es vars.size)
  let table := spotTable vars firsts productions
  let (words, isWord) := wordTable n.tokens n.word
  let extras := grammar.extras.filterMap (symbolOfRule n)
  let extraTokens := TokenSet.ofList (extras.filterMap fun | .token i => some i | .var _ => none)
  let contextual := grammar.contextual.filterMap (tokenOfRule n)
  let recoverable := TokenSet.ofList
    ((List.range n.tokens.size).filter fun i => !contextual.contains i)
  let shownAs := aliasTable (flat.toList.flatten.toArray)
  return {
    grammar, productions
    tokens := n.tokens.mapIdx fun i t =>
      { t with visible := t.visible || shownAs.contains (Sym.token i) }
    vars := vars.mapIdx fun i v =>
      { v with visible := v.visible || shownAs.contains (Sym.var i) }
    spots := table.spots, starts := table.starts, firsts, corners
    word := n.word, words, isWord, extraTokens
    extraVars := extras.filterMap fun | .var i => some i | .token _ => none
    recoverable, scannerTokens := n.scannerTokens, shownAs }

end Language

end CodeAtlas.Grammar
