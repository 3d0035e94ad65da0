import CodeAtlas.Parsing.Automaton
import CodeAtlas.Parsing.Lexer
import CodeAtlas.Parsing.Stack

/-! One machine follows all readings of a text at once. Here are its single moves: reading
a unit, stepping over it, reducing, accepting. -/

namespace CodeAtlas.Parsing

open CodeAtlas.Grammar

structure Machine where
  automaton : Automaton
  stack : Stack
  finished? : Option Subtree
  accepts : Nat

/-- What a machine works on. -/
structure Job where
  language : Language
  scanner : Scanner
  text : Text

abbrev Run := StateM Machine

namespace Machine

def maxVersions : Nat := 6
def maxOverflow : Nat := 4

def start (l : Language) : Machine := ⟨Automaton.initial l, .empty, none, 0⟩

def onStack {α : Type} (f : Stack → α × Stack) : Run α := modifyGet fun
  | ⟨a, s, t, n⟩ => match f s with
    | (x, s) => (x, ⟨a, s, t, n⟩)

def onAutomaton {α : Type} (f : Automaton → α × Automaton) : Run α := modifyGet fun
  | ⟨a, s, t, n⟩ => match f a with
    | (x, a) => (x, ⟨a, s, t, n⟩)

def change (f : Stack → Stack) : Run Unit := onStack fun s => ((), f s)

def ask {α : Type} (f : Stack → α) : Run α := do return f (← get).stack

end Machine

namespace Job

open Machine

variable (job : Job)

def actions (state token : Nat) : Run (List Action) :=
  onAutomaton fun a => a.actions job.language state token

def next (state : Nat) (sym : Sym) : Run Nat :=
  onAutomaton fun a => a.next job.language state sym

def validAt (state : Nat) : Run TokenSet := do return (← get).automaton.validAt state

/-! ### Reading a unit -/

/-- The tokens that are looked for while the machine is lost. -/
def lostTokens : TokenSet :=
  (job.language.recoverable.union job.language.extraTokens).insert Language.endToken

/-- A byte order mark at the very start counts as a blank. -/
def behindMark (pos : Nat) : Nat :=
  if pos == 0 && job.text.look 0 == '\ufeff' then 1 else pos

/-- Asks the scanner, and leaves out an empty unit that would lead nowhere. -/
def scan (version state pos : Nat) (valid : TokenSet) (lost : Bool) : Run (Option (Nat × Found)) := do
  let tokens := job.language.scannerTokens
  let wanted (k : Nat) : Bool := match tokens[k]? with
    | some t => valid.contains t
    | none => false
  if !(List.range tokens.size).any wanted then return none
  let pending ← ask (·.pending version)
  match job.scanner job.text wanted pending (job.behindMark pos) with
  | none => return none
  | some found =>
    let token := tokens[found.unit]?.getD 0
    if found.stop ≤ pos && found.pending == pending then
      let after ← job.next state (.token token)
      let advanced ← ask (·.advancedSinceError version)
      if lost || !advanced || after == state then return none
    return some (token, found)

/-- Reads past what no unit matches, until one does. Returns where the unread part begins
and ends. -/
def skipUnknown (fuel : Nat) (version state : Nat) (first stop : Nat) : Run (Nat × Nat) := do
  match fuel with
  | 0 => return (first, stop)
  | fuel + 1 =>
    match ← job.scan version state stop job.lostTokens true with
    | some _ => return (first, stop)
    | none =>
      match Lexer.read job.language job.text job.lostTokens true stop with
      | .found .. => return (first, stop)
      | .failed _ reached =>
        let reached := if reached == stop then reached + 1 else reached
        if job.text.atEnd stop then return (first, stop)
        else skipUnknown fuel version state first reached

def tokenLeaf (state pos token start stop : Nat) : Run Subtree := do
  let l := job.language
  let asWord : Option Nat :=
    if token == l.word then Lexer.wordToken? l (job.text.slice start stop) else none
  match asWord with
  | none => return .leaf (.token token) pos start stop none
  | some w =>
    let as ← job.actions state w
    return .leaf (.token (if as.isEmpty then token else w)) pos start stop none

def foundLeaf (pos : Nat) (token : Nat) (f : Found) : Subtree :=
  .leaf (.token token) pos (min f.start f.stop) f.stop (some f.pending)

/-- The next unit for a reading; none at the end of something that may stand anywhere. -/
def lex (version state : Nat) : Run (Option Subtree) := do
  let l := job.language
  let pos ← ask (·.pos version)
  let valid ← if state == Automaton.lost then pure job.lostTokens else validAt state
  if valid.contains Language.extraEnd then return none
  let lost := state == Automaton.lost
  match ← job.scan version state pos valid lost with
  | some (token, found) => return some (foundLeaf pos token found)
  | none =>
  match Lexer.read l job.text valid true (job.behindMark pos) with
  | .found token start stop => return some (← job.tokenLeaf state pos token start stop)
  | .failed .. =>
  match ← if lost then pure none else job.scan version state pos job.lostTokens true with
  | some (token, found) => return some (foundLeaf pos token found)
  | none =>
  match Lexer.read l job.text job.lostTokens true (job.behindMark pos) with
  | .found token start stop => return some (← job.tokenLeaf state pos token start stop)
  | .failed first reached =>
    let reached := if reached == first then reached + 1 else reached
    let (first, stop) ← job.skipUnknown job.text.size version state first reached
    return some (.leaf .error pos first stop none)

/-! ### Stepping and reducing -/

def push (version : Nat) (tree? : Option Subtree) (state : Nat) : Run Unit :=
  change fun s => s.push job.language version tree? state

def shift (version state : Nat) (ahead : Subtree) (extra : Bool) : Run Unit := do
  let tree := if ahead.children.isEmpty then ahead.withExtra extra else ahead
  job.push version (some tree) state
  match tree.info.pending? with
  | none => return
  | some pending => change fun s => s.modifyHead version ({ · with pending })

/-- Slices of one reading stand together. -/
def groupSlices : List Slice → List (Nat × List (List Subtree))
  | [] => []
  | sl :: rest => match groupSlices rest with
    | (v, ts) :: more =>
      if v == sl.version then (v, sl.trees :: ts) :: more
      else (sl.version, [sl.trees]) :: (v, ts) :: more
    | [] => [(sl.version, [sl.trees])]

/-- The node over the best of several lists of children, and the extras behind it. -/
def bestNode (head spot pos : Nat) : List (List Subtree) → Subtree × List Subtree
  | [] => (Subtree.build job.language job.text (.var head) spot pos [], [])
  | first :: others =>
    let make (trees : List Subtree) : Subtree × List Subtree :=
      let (children, extras) := Subtree.splitExtras trees
      (Subtree.build job.language job.text (.var head) spot pos children, extras)
    others.foldl (fun best trees =>
      let other := make trees
      if Subtree.isBetter best.1 other.1 then other else best) (make first)

/-- Makes the reading part of an earlier one if it agrees with one of them. -/
def mergeInto (version : Nat) (candidates : List Nat) : Run Bool := do
  match candidates with
  | [] => return false
  | j :: rest =>
    if ← onStack fun s => s.merge job.language j version then return true
    else mergeInto version rest

/-- Replaces the top trees of a reading by the node of a finished production. Returns the
first reading that came of it. -/
def reduce (version spot : Nat) (extraEnds : Bool) : Run (Option Nat) := do
  let place := Automaton.spotAt job.language spot
  let dynamic := (job.language.productions[place.production]?.map (·.dynamic)).getD 0
  let before ← ask (·.versions)
  let pos ← ask (·.pos version)
  let slices ← onStack (·.popCount version place.done)
  let halted ← ask fun s => ((List.range s.versions).filter s.isHalted).length
  let mut removed := 0
  for (v, trees) in groupSlices slices do
    let v := v - removed
    if v > maxVersions + maxOverflow + halted then
      change (·.removeVersion v)
      removed := removed + 1
    else
      let (parent, extras) := job.bestNode place.head spot pos trees
      let state ← ask (·.state v)
      let after ← job.next state (.var place.head)
      let parent := (parent.addDynamic dynamic).withExtra (extraEnds && after == state)
      job.push v (some parent) after
      for extra in extras do job.push v (some extra) after
      let others := (List.range v).filter (· != version)
      if ← job.mergeInto v others then removed := removed + 1
  let now ← ask (·.versions)
  return if now > before then some before else none

/-- Ends a reading: what it has read becomes a finished tree, kept if it is the best. -/
def accept (version : Nat) (ahead : Subtree) : Run Unit := do
  job.push version (some ahead) Automaton.start
  let slices ← onStack (·.popAll version)
  for sl in slices do
    let behind := (sl.trees.reverse.takeWhile Subtree.isExtra).reverse
    let rest := sl.trees.take (sl.trees.length - behind.length)
    match rest.getLast? with
    | none => pure ()
    | some tree =>
      let children := rest.dropLast ++ tree.children ++ behind
      let pos := tree.info.start
      let root := Subtree.build job.language job.text tree.kind tree.info.spot pos children
      modify fun m =>
        let better := match m.finished? with
          | none => true
          | some old => Subtree.isBetter old root
        { m with accepts := m.accepts + 1, finished? := if better then some root else m.finished? }
  match slices with
  | sl :: _ => change (·.removeVersion sl.version)
  | [] => pure ()
  change (·.halt version)

end Job

end CodeAtlas.Parsing
