import CodeAtlas.Grammar.Language

/-! The automaton that recognises a language, built state by state as a text asks for it.
A state is a set of spots, each with the tokens that may follow its production there.
Conflicts between actions are settled by rank and side as far as these decide; the actions
that remain are all tried. -/

namespace CodeAtlas.Parsing

open CodeAtlas.Grammar

structure Item where
  spot : Nat
  ahead : TokenSet
  deriving BEq, Hashable, Inhabited

structure State where
  items : Array Item
  /-- The tokens for which there is an action. -/
  valid : TokenSet
  deriving Inhabited

inductive Action
  /-- `repeated` marks a step that a repetition also takes by closing itself first. -/
  | shift (state : Nat) (repeated : Bool)
  | shiftExtra
  | reduce (spot : Nat)
  | accept
  | recover
  deriving BEq, Inhabited

structure Automaton where
  states : Array State
  known : Std.HashMap (Array Item) Nat
  moves : Std.HashMap Nat Nat
  decided : Std.HashMap Nat (List Action)
  /-- States that a token opens anywhere, because it begins something that may stand
  anywhere. -/
  openings : List (Nat × Nat)

namespace Automaton

/-- The state in which no token is expected. -/
def lost : Nat := 0

/-- The state before the first token. -/
def start : Nat := 1

def spotAt (l : Language) (i : Nat) : Spot := l.spots[i]?.getD default

def Item.head (l : Language) (item : Item) : Nat := (spotAt l item.spot).head

def Item.isFinished (l : Language) (item : Item) : Bool := (spotAt l item.spot).next?.isNone

/-- Whether a token can begin the next symbol of an item. -/
def Item.steps (l : Language) (token : Nat) (item : Item) : Bool :=
  match (spotAt l item.spot).next? with
  | none => false
  | some sym => (Language.firstOfSym l.firsts sym).contains token

def isAuxiliary (l : Language) (v : Nat) : Bool :=
  match l.vars[v]? with
  | some info => info.auxiliary
  | none => false

def itemsAt (a : Automaton) (state : Nat) : Array Item :=
  match a.states[state]? with
  | some s => s.items
  | none => #[]

def validAt (a : Automaton) (state : Nat) : TokenSet :=
  match a.states[state]? with
  | some s => s.valid
  | none => .empty

/-- The tokens that the items of a state admit. -/
def admitted (l : Language) (items : Array Item) : TokenSet :=
  items.foldl (fun acc item => acc.union <|
    match (spotAt l item.spot).next? with
    | none => item.ahead
    | some sym => Language.firstOfSym l.firsts sym) .empty

def validTokens (l : Language) (openings : List (Nat × Nat)) (items : Array Item) : TokenSet :=
  let own := admitted l items
  if own.contains Language.extraEnd then own
  else (own.union l.extraTokens).union (.ofList (openings.map Prod.fst))

/-- The number of the state with these items, which is new if no state has them yet. -/
def intern (l : Language) (a : Automaton) (items : Array Item) : Nat × Automaton :=
  match a.known[items]? with
  | some k => (k, a)
  | none =>
    let k := a.states.size
    (k, { a with
      states := a.states.push ⟨items, validTokens l a.openings items⟩
      known := a.known.insert items k })

def addItem (items : Array Item) (item : Item) : Array Item :=
  match items.findIdx? (·.spot == item.spot) with
  | some i => items.modify i fun old => { old with ahead := old.ahead.union item.ahead }
  | none => items.push item

/-- What an item lets follow a variable that begins its next symbol. -/
def cornerAhead (l : Language) (item : Item) (head : Nat) : TokenSet :=
  let spot := spotAt l item.spot
  match spot.next? with
  | some (.var y) => match (l.corners[y]?.bind (·[head]?)).join with
    | none => .empty
    | some c =>
      if c.unbounded then c.follow.union (spot.follow?.getD item.ahead) else c.follow
  | _ => .empty

/-- The items behind a symbol. -/
def step (l : Language) (items : Array Item) (sym : Sym) : Array Item :=
  let advanced := items.foldl (fun acc item =>
    let spot := spotAt l item.spot
    if spot.next? == some sym then addItem acc ⟨spot.advanced, item.ahead⟩ else acc) #[]
  let waiting := items.filter fun item => match (spotAt l item.spot).next? with
    | some (.var _) => true
    | _ => false
  (l.starts.getD sym #[]).foldl (fun acc k =>
    let head := (spotAt l k).head
    let ahead := waiting.foldl (fun s item => s.union (cornerAhead l item head)) .empty
    if ahead.isEmpty then acc else addItem acc ⟨k, ahead⟩) advanced

def symCode : Sym → Nat
  | .token i => i
  | .var i => 256 + i

/-- The state behind a symbol; `lost` if the symbol cannot stand there. -/
def move (l : Language) (a : Automaton) (state : Nat) (sym : Sym) : Nat × Automaton :=
  let key := state * 1024 + symCode sym
  match a.moves[key]? with
  | some k => (k, a)
  | none =>
    let items := step l (itemsAt a state) sym
    let (k, a) := if items.isEmpty then (lost, a) else intern l a items
    (k, { a with moves := a.moves.insert key k })

/-! ### Ranks -/

def rankMatches (l : Language) (rank : Rank) (p : Precedence) (heads : List Nat) : Bool :=
  match rank with
  | .named name => p == .named name
  | .rule name => heads.any fun h => (l.vars[h]?.map (·.name)) == some name

/-- Scans a list of ranks for both sides; the one that stands first is tighter. -/
def compareIn (l : Language) (p q : Precedence) (ps qs : List Nat) :
    List Rank → Bool → Bool → Option Ordering
  | [], _, _ => none
  | rank :: rest, sawLeft, sawRight =>
    if rankMatches l rank p ps then
      if sawRight then some .lt else compareIn l p q ps qs rest true sawRight
    else if rankMatches l rank q qs then
      if sawLeft then some .gt else compareIn l p q ps qs rest sawLeft true
    else compareIn l p q ps qs rest sawLeft sawRight

def levelOf : Precedence → Option Int
  | .unset => some 0
  | .level n => some n
  | .named _ => none

def comparePrecedence (l : Language) (p q : Precedence) (ps qs : List Nat) : Ordering :=
  let byLevel := match levelOf p, levelOf q with
    | some m, some n => if m != 0 || n != 0 then some (compare m n) else none
    | _, _ => none
  match byLevel with
  | some o => o
  | none =>
    (l.grammar.ranks.findSome? fun list => compareIn l p q ps qs list false false).getD .eq

/-! ### Actions -/

/-- The reductions for one token so far, all of one precedence. -/
structure Reductions where
  spots : List Nat
  precedence : Precedence
  heads : List Nat
  sides : List (Option Side)

def addReduction (l : Language) (r : Reductions) (k : Nat) : Reductions :=
  let spot := spotAt l k
  let fresh : Reductions := ⟨[k], spot.precedence, [spot.head], [spot.side]⟩
  if r.spots.isEmpty then fresh
  else match comparePrecedence l spot.precedence r.precedence [spot.head] r.heads with
    | .gt => fresh
    | .lt => r
    | .eq => ⟨r.spots ++ [k], spot.precedence,
        if r.heads.contains spot.head then r.heads else r.heads ++ [spot.head],
        if r.sides.contains spot.side then r.sides else r.sides ++ [spot.side]⟩

/-- The order in which reductions are tried: shorter first, then by variable. -/
def reductionOrder (l : Language) (i j : Nat) : Bool :=
  let a := spotAt l i
  let b := spotAt l j
  a.done < b.done || (a.done == b.done && a.head ≤ b.head)

/-- What a conflict between the reductions and the step over the token leaves. -/
inductive Verdict
  | repeated
  | shiftOnly
  | reduceOnly
  | both

def settle (l : Language) (items : Array Item) (token : Nat) (r : Reductions) : Verdict :=
  let stepping := items.toList.filter fun item =>
    (spotAt l item.spot).done > 0 && Item.steps l token item
  let finished := items.toList.filter fun item =>
    Item.isFinished l item && item.ahead.contains token
  let heads := ((stepping ++ finished).map (Item.head l)).filter (· != l.vars.size)
  let isRepeat := match heads with
    | [] => false
    | h :: rest => isAuxiliary l h && rest.all (· == h)
  if isRepeat then .repeated
  else
    let orders := stepping.map fun item =>
      let spot := spotAt l item.spot
      comparePrecedence l spot.precedence r.precedence [spot.head] r.heads
    let more := orders.contains .gt
    let less := orders.contains .lt
    if more && !less then .shiftOnly
    else if less && !more then .reduceOnly
    else if more && less then .both
    else if r.sides == [some Side.left] then .reduceOnly
    else if r.sides == [some Side.right] then .shiftOnly
    else .both

def reduceAction (l : Language) (k : Nat) : Action :=
  if (spotAt l k).head == l.vars.size then .accept else .reduce k

/-- The actions of the items of a state for a token, without those for extras. -/
def itemActions (l : Language) (a : Automaton) (state token : Nat) : List Action × Automaton :=
  let items := itemsAt a state
  let finished := items.toList.filter fun item =>
    Item.isFinished l item && item.ahead.contains token
  let r := ((finished.map (·.spot)).mergeSort (reductionOrder l)).foldl (addReduction l)
    ⟨[], .unset, [], []⟩
  let reductions := r.spots.map (reduceAction l)
  let steps := items.any (Item.steps l token)
  if !steps then (reductions, a)
  else
    let (target, a) := move l a state (.token token)
    if reductions.isEmpty then ([.shift target false], a)
    else match settle l items token r with
      | .repeated => (reductions ++ [.shift target true], a)
      | .shiftOnly => ([.shift target false], a)
      | .reduceOnly => (reductions, a)
      | .both => (reductions ++ [.shift target false], a)

def decide (l : Language) (a : Automaton) (state token : Nat) : List Action × Automaton :=
  let (actions, a) := itemActions l a state token
  let inExtraEnd := (validAt a state).contains Language.extraEnd
  let actions :=
    if !actions.isEmpty || inExtraEnd then actions
    else if l.extraTokens.contains token then [.shiftExtra]
    else match a.openings.find? (·.1 == token) with
      | some (_, target) => [.shift target false]
      | none => if state == lost && l.recoverable.contains token then [.recover] else []
  (actions, a)

/-- The actions of a state for a token. -/
def actions (l : Language) (a : Automaton) (state token : Nat) : List Action × Automaton :=
  let key := state * 256 + token
  match a.decided[key]? with
  | some as => (as, a)
  | none =>
    let (as, a) := decide l a state token
    (as, { a with decided := a.decided.insert key as })

/-- The state behind a token or a variable, as the actions have it. -/
def next (l : Language) (a : Automaton) (state : Nat) : Sym → Nat × Automaton
  | .var i =>
    if l.extraVars.contains i then (state, a) else move l a state (.var i)
  | .token i =>
    let (as, a) := actions l a state i
    match as.getLast? with
    | some (.shift k _) => (k, a)
    | some .shiftExtra => (state, a)
    | _ => (lost, a)

/-- The spot before the start rule and, if the empty text is allowed, that behind it. -/
def startItems (l : Language) : Array Item :=
  let whole := l.spots.findIdx? fun s => s.head == l.vars.size && s.done == 0
  let nothing := l.spots.findIdx? fun s => s.head == 0 && s.done == 0 && s.next?.isNone
  (whole.toArray ++ nothing.toArray).map fun k => ⟨k, .singleton Language.endToken⟩

def extraKernels (l : Language) : List (Nat × Array Item) :=
  (List.range l.tokens.size).filterMap fun t =>
    let ks := (l.starts.getD (.token t) #[]).filter fun k =>
      l.extraVars.contains (spotAt l k).head
    if ks.isEmpty then none
    else some (t, ks.map fun k => ⟨k, .singleton Language.extraEnd⟩)

def initial (l : Language) : Automaton :=
  let kernels := extraKernels l
  let openings := kernels.zipIdx.map fun ((t, _), i) => (t, 2 + i)
  let empty : Automaton := ⟨#[], {}, {}, {}, openings⟩
  let (_, a) := intern l empty #[]
  let (_, a) := intern l a (startItems l)
  kernels.foldl (fun a (_, items) => (intern l a items).2) a

end Automaton

end CodeAtlas.Parsing
