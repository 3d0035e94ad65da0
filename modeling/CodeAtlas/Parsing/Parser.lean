import CodeAtlas.Parsing.Recovery

/-! The parser: all readings of a text advance in turn, the worse ones are dropped, and the
best tree is kept. It always ends with a tree; what fits nowhere stands in it as an error. -/

namespace CodeAtlas.Parsing

open CodeAtlas.Grammar

namespace Job

open Machine

variable (job : Job)

/-- What a reading does next. -/
inductive Turn
  | over
  /-- A reduction was made, and the reading goes on with the same token. -/
  | again (ahead? : Option Subtree)

def tokenOf (t : Subtree) : Option Nat :=
  match t.kind with
  | .token i => some i
  | _ => none

/-- Performs the actions for the token at hand. -/
def perform (version : Nat) (ahead? : Option Subtree) : List Action → Option Nat → Bool →
    Run (Option Turn × Option Nat × Bool)
  | [], last, did => return (none, last, did)
  | action :: rest, last, did => do
    match action, ahead? with
    | .shift _ true, _ => perform version ahead? rest last did
    | .shift target false, some t =>
      job.shift version target t false
      return (some .over, last, did)
    | .shiftExtra, some t =>
      let state ← ask (·.state version)
      job.shift version state t true
      return (some .over, last, did)
    | .reduce spot, _ =>
      let made ← job.reduce version spot ahead?.isNone
      perform version ahead? rest (made <|> last) true
    | .accept, some t =>
      job.accept version t
      return (some .over, last, did)
    | .recover, some t =>
      job.recover version t
      return (some .over, last, did)
    | _, none => perform version ahead? rest last did

/-- A word of the grammar that does not fit is read as a name if a name fits. -/
def asPlainWord? (state : Nat) (t : Subtree) : Run (Option Subtree) := do
  match t.kind with
  | .token i =>
    if job.language.isWord.contains i then
      let as ← job.actions state job.language.word
      return if as.isEmpty then none else some (t.withKind (.token job.language.word))
    else return none
  | _ => return none

/-- One action of a reading, up to the point where it has read on, ended or paused. -/
def advance : Nat → Nat → Option (Option Subtree) → Run Unit
  | 0, version, _ => change (·.halt version)
  | fuel + 1, version, known => do
    let state ← ask (·.state version)
    let ahead? ← match known with
      | some t => pure t
      | none => job.lex version state
    let token := match ahead? with
      | none => some Language.extraEnd
      | some t => tokenOf t
    let as ← match token with
      | some i => job.actions state i
      | none => pure []
    let (turn, last, did) ← job.perform version ahead? as none false
    match turn with
    | some _ => return
    | none =>
    match last with
    | some v =>
      change (·.renumber v version)
      advance fuel version (ahead?.map some)
    | none =>
    if did then
      change (·.halt version)
      return
    match ahead? with
    | none => change (·.halt version)
    | some t =>
      match ← job.asPlainWord? state t with
      | some word => advance fuel version (some (some word))
      | none =>
        if state == Automaton.lost then job.recover version t else change (·.pause version t)

/-- Advances one reading until it has got further than the readings before it. -/
def advanceFully : Nat → Nat → Nat → Run Nat
  | 0, _, reached => return reached
  | fuel + 1, version, reached => do
    if !(← ask (·.isActive version)) then return reached
    job.advance (10 * job.text.size + 1000) version none
    let pos ← ask (·.pos version)
    if pos > reached || (version > 0 && pos == reached) then return pos
    advanceFully fuel version reached

def advanceAll : Nat → Nat → Nat → Run Nat
  | 0, _, reached => return reached
  | fuel + 1, version, reached => do
    if version ≥ (← ask (·.versions)) then return reached
    let reached ← job.advanceFully (10 * job.text.size + 1000) version reached
    advanceAll fuel (version + 1) reached

/-- Compares a reading with all before it; `i` is the reading, counted from one. -/
def condenseOne : Nat → Nat → Nat → Standing → Run Nat
  | 0, i, _, _ => return i
  | fuel + 1, i, j, own => do
    if j + 1 ≥ i then return i
    let left ← standing j
    match left.compare own with
    | .takeLeft =>
      change (·.removeVersion (i - 1))
      return i - 1
    | .preferLeft | .neither =>
      if ← onStack fun s => s.merge job.language j (i - 1) then return i - 1
      condenseOne fuel i (j + 1) own
    | .preferRight =>
      if ← onStack fun s => s.merge job.language j (i - 1) then return i - 1
      change (·.swap (i - 1) j)
      condenseOne fuel i (j + 1) own
    | .takeRight =>
      change (·.removeVersion j)
      condenseOne fuel (i - 1) j own

def condenseAll : Nat → Nat → Option Nat → Run (Option Nat)
  | 0, _, least => return least
  | fuel + 1, i, least => do
    if i ≥ (← ask (·.versions)) then return least
    if ← ask (·.isHalted i) then
      change (·.removeVersion i)
      condenseAll fuel i least
    else
      let own ← standing i
      let least := if own.inError then least else match least with
        | none => some own.cost
        | some c => some (min c own.cost)
      let i ← job.condenseOne 100 (i + 1) 0 own
      condenseAll fuel i least

/-- Lets the best paused reading recover if no other goes on, and drops the other paused
ones. -/
def resumeBest : Nat → Nat → Bool → Option Nat → Run (Option Nat)
  | 0, _, _, least => return least
  | fuel + 1, i, running, least => do
    if i ≥ (← ask (·.versions)) then return least
    match ← ask (·.headAt? i) with
    | some ⟨_, _, _, _, .paused ahead⟩ =>
      if !running && (← get).accepts < maxVersions then
        let cost ← ask (·.cost i)
        change (·.resume i)
        job.handleError i ahead
        resumeBest fuel (i + 1) true (some cost)
      else
        change (·.removeVersion i)
        resumeBest fuel i running least
    | _ => resumeBest fuel (i + 1) true least

/-- Drops the readings that are not worth going on with. Returns the least cost of those
that are. -/
def condense : Run (Option Nat) := do
  let least ← job.condenseAll 1000 0 none
  change fun s => { s with heads := s.heads.extract 0 maxVersions }
  let n ← ask (·.versions)
  if n == 0 then return least
  job.resumeBest (2 * n) 0 false least

def loop : Nat → Nat → Run Unit
  | 0, _ => return
  | fuel + 1, reached => do
    let reached ← job.advanceAll 1000 0 reached
    let least ← job.condense
    let m ← get
    let settled := match m.finished?, least with
      | some t, some c => t.info.cost < c
      | some _, none => true
      | none, _ => false
    if settled || m.stack.versions == 0 then return
    loop fuel reached

/-- The tree of the text. -/
def parse : Subtree :=
  let m := (job.loop (20 * job.text.size + 1000) 0 (Machine.start job.language)).2
  m.finished?.getD (Subtree.build job.language job.text .error 0 0 [])

end Job

end CodeAtlas.Parsing
