import CodeAtlas.Parsing.Machine

/-! What a machine does when no reading can go on: it supplies a token that is missing,
falls back to a state in which the token at hand fits, or skips the token. Readings are
compared by the cost of their errors. -/

namespace CodeAtlas.Parsing

open CodeAtlas.Grammar

/-- How a reading stands. -/
structure Standing where
  cost : Nat
  count : Nat
  dynamic : Int
  inError : Bool

inductive Preference
  | takeLeft
  | preferLeft
  | neither
  | preferRight
  | takeRight

namespace Standing

def maxDifference : Nat := 18 * Subtree.perSkippedTree

def compare (a b : Standing) : Preference :=
  if !a.inError && b.inError then
    if a.cost < b.cost then .takeLeft else .preferLeft
  else if a.inError && !b.inError then
    if b.cost < a.cost then .takeRight else .preferRight
  else if a.cost < b.cost then
    if (b.cost - a.cost) * (1 + a.count) > maxDifference then .takeLeft else .preferLeft
  else if b.cost < a.cost then
    if (a.cost - b.cost) * (1 + b.count) > maxDifference then .takeRight else .preferRight
  else if a.dynamic > b.dynamic then .preferLeft
  else if b.dynamic > a.dynamic then .preferRight
  else .neither

end Standing

namespace Job

open Machine

variable (job : Job)

def maxDepth : Nat := 16

def countSinceError (version : Nat) : Run Nat := onStack (·.countSinceError version)

def standing (version : Nat) : Run Standing := do
  let cost ← ask (·.cost version)
  let count ← countSinceError version
  let paused ← ask (·.isPaused version)
  let state ← ask (·.state version)
  let dynamic ← ask fun s => (s.top version).dynamic
  return ⟨cost + (if paused then Subtree.perSkippedTree else 0), count, dynamic,
    paused || state == Automaton.lost⟩

/-- Whether another reading makes one of the given cost pointless. -/
def betterExists (version : Nat) (inError : Bool) (cost : Nat) : Run Bool := do
  let finished ← do
    match (← get).finished? with
    | some t => pure (decide (t.info.cost ≤ cost))
    | none => pure false
  if finished then return true
  let pos ← ask (·.pos version)
  let dynamic ← ask fun s => (s.top version).dynamic
  let count ← countSinceError version
  let own : Standing := ⟨cost, count, dynamic, inError⟩
  let n ← ask (·.versions)
  for i in List.range n do
    let active ← ask (·.isActive i)
    let there ← ask (·.pos i)
    if i != version && active && pos ≤ there then
      match own.compare (← standing i) with
      | .takeRight => return true
      | .preferRight => if ← ask (·.canMerge i version) then return true
      | _ => pure ()
  return false

/-- The reductions that some token allows in a state, each variable and length once, and
whether some token can be stepped over. -/
def possibleActions (state : Nat) (tokens : List Nat) : Run (List Nat × Bool) := do
  let mut spots : List Nat := []
  let mut steps := false
  for t in tokens do
    for action in ← job.actions state t do
      match action with
      | .shift _ false => steps := true
      | .recover => steps := true
      | .reduce k =>
        let a := Automaton.spotAt job.language k
        let known := spots.any fun j =>
          let b := Automaton.spotAt job.language j
          b.head == a.head && b.done == a.done
        if a.done > 0 && !known then spots := spots ++ [k]
      | _ => pure ()
  return (spots, steps)

/-- Performs all reductions that are possible with the token, or with any token if none is
given. Says whether the token can then be stepped over. -/
def reduceAll (start : Nat) (ahead? : Option Nat) : Run Bool := do
  let first ← ask (·.versions)
  let tokens := match ahead? with
    | some t => [t]
    | none => (List.range job.language.tokens.size).drop 1
  let rec go (fuel i version : Nat) (can : Bool) : Run Bool := do
    match fuel with
    | 0 => return can
    | fuel + 1 =>
      let count ← ask (·.versions)
      if version ≥ count then return can
      let earlier := ((List.range version).drop first)
      if ← job.mergeInto version earlier then go fuel (i + 1) version can
      else
        let state ← ask (·.state version)
        let (spots, steps) ← job.possibleActions state tokens
        let mut last : Option Nat := none
        for k in spots do last ← job.reduce version k false
        let following := if version == start then count else version + 1
        if steps then go fuel (i + 1) following true
        else match last with
          | some v =>
            if i < maxVersions then
              change (·.renumber v version)
              go fuel (i + 1) version can
            else
              if ahead?.isSome then change (·.removeVersion version)
              go fuel (i + 1) following can
          | none =>
            if ahead?.isSome then change (·.removeVersion version)
            go fuel (i + 1) following can
  go 1000 0 start false

/-- Puts an error around what was read since an earlier state and goes on from there. -/
def recoverTo (version depth goal : Nat) : Run Bool := do
  let slices ← onStack (·.popCount version depth)
  let mut previous : Option Nat := none
  for sl in slices do
    if previous == some sl.version then continue
    let state ← ask (·.state sl.version)
    if state != goal then
      change (·.halt sl.version)
      continue
    let errors ← onStack (·.popError sl.version)
    let opened := (errors.head?.map (·.children)).getD []
    let (children, extras) := Subtree.splitExtras (opened ++ sl.trees)
    if !children.isEmpty then
      let error := (Subtree.build job.language job.text .error 0 0 children).withExtra true
      job.push sl.version (some error) goal
    for extra in extras do job.push sl.version (some extra) goal
    previous := some sl.version
  return previous.isSome

/-- Looks for a state below in which the token fits. -/
def fallBack (version token : Nat) : Run Bool := do
  let before ← ask (·.versions)
  let pos ← ask (·.pos version)
  let landings := ((← ask (·.headAt? version)).bind (·.landings)).getD #[]
  let count ← countSinceError version
  let cost ← ask (·.cost version)
  let mut did := false
  for e in landings do
    if e.state == Automaton.lost || e.pos == pos then continue
    let depth := if count > 0 then e.depth + 1 else e.depth
    let merges ← ask fun s => (List.range before).any fun j => s.state j == e.state && s.pos j == pos
    if merges then continue
    let newCost := cost + e.depth * Subtree.perSkippedTree
      + (job.text.byteOf pos - job.text.byteOf e.pos) * Subtree.perSkippedByte
      + (job.text.rowOf pos - job.text.rowOf e.pos) * Subtree.perSkippedLine
    if ← betterExists version false newCost then break
    let as ← job.actions e.state token
    if !as.isEmpty then
      if ← job.recoverTo version depth e.state then
        did := true
        break
  return did

def dropHalted (first : Nat) : Run Unit := do
  let n ← ask (·.versions)
  for k in (List.range (n - first)).reverse do
    let active ← ask (·.isActive (first + k))
    if !active then change (·.removeVersion (first + k))

/-- Skips the token and stays lost. -/
def skipToken (version : Nat) (ahead : Subtree) : Run Unit := do
  let l := job.language
  let isExtra ← match ahead.kind with
    | .token t => do
      match (← job.actions Automaton.start t).getLast? with
      | some .shiftExtra => pure true
      | _ => pure false
    | _ => pure false
  let ahead := if isExtra then ahead.withExtra true else ahead
  let part := Subtree.build l job.text .errorPart 0 0 [ahead]
  let count ← countSinceError version
  let mut part := part
  if count > 0 then
    let slices ← onStack (·.popCount version 1)
    match slices with
    | [] => pure ()
    | sl :: rest =>
      if !rest.isEmpty then
        let n ← ask (·.versions)
        for _ in List.range (n - (sl.version + 1)) do change (·.removeVersion (sl.version + 1))
      change (·.renumber sl.version version)
      part := Subtree.build l job.text .errorPart 0 0 (sl.trees ++ [part])
  job.push version (some part) Automaton.lost
  match ahead.info.pending? with
  | none => pure ()
  | some pending => change (·.modifyHead version ({ · with pending }))

/-- One step of recovery with the token at hand. -/
def recover (version : Nat) (ahead : Subtree) : Run Unit := do
  let before ← ask (·.versions)
  let cost ← ask (·.cost version)
  let did ← match ahead.kind with
    | .token t => job.fallBack version t
    | _ => pure false
  dropHalted before
  let n ← ask (·.versions)
  if did && n > maxVersions then
    change (·.halt version)
    return
  let pending ← ask (·.pending version)
  let changes := match ahead.info.pending? with
    | some p => p != pending
    | none => false
  if did && changes then
    change (·.halt version)
    return
  if ahead.isEnd then
    let pos ← ask (·.pos version)
    let wrap := Subtree.build job.language job.text .error 0 pos []
    job.push version (some wrap) Automaton.start
    job.accept version ahead
    return
  let i := ahead.info
  let newCost := cost + Subtree.perSkippedTree
    + (job.text.byteOf i.stop - job.text.byteOf i.origin) * Subtree.perSkippedByte
    + (job.text.rowOf i.stop - job.text.rowOf i.origin) * Subtree.perSkippedLine
  if ← betterExists version false newCost then
    change (·.halt version)
    return
  job.skipToken version ahead

/-- Tries every token that the state expects: if the token at hand would fit behind one of
them, a reading goes on as if it had been there. -/
def supplyMissing (version : Nat) (ahead : Subtree) : Run Bool := do
  match ahead.kind with
  | .token token =>
    let state ← ask (·.state version)
    let pos ← ask (·.pos version)
    for t in (List.range job.language.tokens.size).drop 1 do
      let after ← job.next state (.token t)
      if after == Automaton.lost || after == state then continue
      let reduces := match ← job.actions after token with
        | .reduce _ :: _ => true
        | _ => false
      if reduces then
        let w ← onStack (·.copyVersion version)
        job.push w (some (Subtree.missingLeaf t pos)) after
        if ← job.reduceAll w (some token) then return true
    return false
  | _ => return false

/-- Begins recovery where a reading could not go on. -/
def handleError (version : Nat) (ahead : Subtree) : Run Unit := do
  let before ← ask (·.versions)
  let _ ← job.reduceAll version none
  let count ← ask (·.versions)
  let mut supplied := false
  for v in version :: (List.range count).drop before do
    if !supplied then supplied ← job.supplyMissing v ahead
    job.push v none Automaton.lost
  for _ in List.range (count - before) do
    let _ ← onStack (·.merge job.language version before)
  let landings ← ask (·.landings version maxDepth)
  change (·.modifyHead version ({ · with landings := some landings }))
  job.recover version ahead

end Job

end CodeAtlas.Parsing
