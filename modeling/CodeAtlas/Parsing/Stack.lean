import CodeAtlas.Parsing.Subtree

/-! The stack of a parser that follows several readings at once. Readings share the nodes
below the place where they part; a node with several links is a place where they met. -/

namespace CodeAtlas.Parsing

structure Link where
  node : Nat
  /-- `none` marks the start of an error. -/
  tree? : Option Subtree
  deriving Inhabited

structure StackNode where
  state : Nat
  pos : Nat
  cost : Nat
  /-- Nodes of the tree below. -/
  count : Nat
  dynamic : Int
  links : Array Link
  deriving Inhabited

/-- A state below the place where an error was met. -/
structure Landing where
  pos : Nat
  depth : Nat
  state : Nat

inductive Status
  | active
  | paused (ahead : Subtree)
  | halted

/-- The top of one reading. -/
structure Head where
  node : Nat
  pending : Pending
  landings : Option (Array Landing)
  /-- The count of the node where the last error was met. -/
  countAtError : Nat
  status : Status

structure Stack where
  nodes : Array StackNode
  heads : Array Head

/-- One way down the stack: the trees that it passed and the reading it leads to. -/
structure Slice where
  trees : List Subtree
  version : Nat

namespace Stack

def maxLinks : Nat := 8
def maxPaths : Nat := 64

def empty : Stack := ⟨#[⟨1, 0, 0, 0, 0, #[]⟩], #[⟨0, [], none, 0, .active⟩]⟩

def nodeAt (s : Stack) (i : Nat) : StackNode := s.nodes[i]?.getD default

def headAt? (s : Stack) (v : Nat) : Option Head := s.heads[v]?

def versions (s : Stack) : Nat := s.heads.size

def top (s : Stack) (v : Nat) : StackNode :=
  match s.heads[v]? with
  | some h => s.nodeAt h.node
  | none => default

def state (s : Stack) (v : Nat) : Nat := (s.top v).state

def pos (s : Stack) (v : Nat) : Nat := (s.top v).pos

def pending (s : Stack) (v : Nat) : Pending :=
  match s.heads[v]? with
  | some h => h.pending
  | none => []

def isActive (s : Stack) (v : Nat) : Bool :=
  match s.heads[v]? with
  | some ⟨_, _, _, _, .active⟩ => true
  | _ => false

def isPaused (s : Stack) (v : Nat) : Bool :=
  match s.heads[v]? with
  | some ⟨_, _, _, _, .paused _⟩ => true
  | _ => false

def isHalted (s : Stack) (v : Nat) : Bool :=
  match s.heads[v]? with
  | some ⟨_, _, _, _, .halted⟩ => true
  | _ => false

def modifyHead (s : Stack) (v : Nat) (f : Head → Head) : Stack :=
  { s with heads := s.heads.modify v f }

def halt (s : Stack) (v : Nat) : Stack := s.modifyHead v ({ · with status := .halted })

def pause (s : Stack) (v : Nat) (ahead : Subtree) : Stack :=
  let count := (s.top v).count
  s.modifyHead v ({ · with status := .paused ahead, countAtError := count })

def resume (s : Stack) (v : Nat) : Stack := s.modifyHead v ({ · with status := .active })

def removeVersion (s : Stack) (v : Nat) : Stack := { s with heads := s.heads.eraseIdxIfInBounds v }

def cost (s : Stack) (v : Nat) : Nat :=
  let node := s.top v
  let opens := node.state == 0 && match node.links[0]? with
    | some link => link.tree?.isNone
    | none => false
  node.cost + (if s.isPaused v || opens then Subtree.perRecovery else 0)

/-- Nodes of the tree since the last error. -/
def countSinceError (s : Stack) (v : Nat) : Nat × Stack :=
  let count := (s.top v).count
  match s.heads[v]? with
  | none => (0, s)
  | some h =>
    if count < h.countAtError then (0, s.modifyHead v ({ · with countAtError := count }))
    else (count - h.countAtError, s)

def newNode (l : Grammar.Language) (below : Nat) (under : StackNode) (tree? : Option Subtree)
    (state : Nat) : StackNode :=
  match tree? with
  | none => { under with state, links := #[⟨below, none⟩] }
  | some t =>
    { state, pos := t.info.stop, cost := under.cost + t.info.cost
      count := under.count + t.nodeCount l, dynamic := under.dynamic + t.info.dynamic
      links := #[⟨below, some t⟩] }

def push (l : Grammar.Language) (s : Stack) (v : Nat) (tree? : Option Subtree) (state : Nat) :
    Stack :=
  match s.heads[v]? with
  | none => s
  | some h =>
    let node := newNode l h.node (s.nodeAt h.node) tree? state
    let k := s.nodes.size
    let s := { s with nodes := s.nodes.push node }
    s.modifyHead v fun h =>
      { h with node := k, countAtError := if tree?.isNone then node.count else h.countAtError }

/-- Adds a reading at a node, with the history of another one. -/
def addVersion (s : Stack) (like node : Nat) : Nat × Stack :=
  match s.heads[like]? with
  | none => (s.heads.size, s)
  | some h =>
    (s.heads.size, { s with heads := s.heads.push ⟨node, h.pending, none, h.countAtError, .active⟩ })

def copyVersion (s : Stack) (v : Nat) : Nat × Stack :=
  match s.heads[v]? with
  | none => (s.heads.size, s)
  | some h => (s.heads.size, { s with heads := s.heads.push { h with landings := none } })

/-- Puts one reading in the place of another. -/
def renumber (s : Stack) (source target : Nat) : Stack :=
  if source == target then s
  else match s.heads[source]?, s.heads[target]? with
    | some h, some old =>
      let h := if old.landings.isSome && h.landings.isNone then { h with landings := old.landings }
        else h
      { s with heads := (s.heads.set! target h).eraseIdxIfInBounds source }
    | _, _ => s

def swap (s : Stack) (v w : Nat) : Stack :=
  match s.heads[v]?, s.heads[w]? with
  | some a, some b => { s with heads := (s.heads.set! v b).set! w a }
  | _, _ => s

/-! ### Meeting readings -/

/-- Whether two links lead over the same tree, as far as the parser can tell. -/
def sameTree (a b : Option Subtree) : Bool :=
  match a, b with
  | none, none => true
  | some t, some u =>
    let i := t.info
    let j := u.info
    i.kind == j.kind &&
      ((i.cost > 0 && j.cost > 0) ||
        (i.start - i.origin == j.start - j.origin && i.stop - i.start == j.stop - j.start &&
          t.children.length == u.children.length && i.extra == j.extra &&
          i.pending?.getD [] == j.pending?.getD []))
  | _, _ => false

def Link.dynamic (link : Link) : Int :=
  match link.tree? with
  | some t => t.info.dynamic
  | none => 0

def dynamicOver (s : Stack) (link : Link) : Int :=
  (s.nodeAt link.node).dynamic + Link.dynamic link

def setNode (s : Stack) (i : Nat) (f : StackNode → StackNode) : Stack :=
  { s with nodes := s.nodes.modify i f }

/-- Adds a link to a node. Links over the same tree from the same node become one, those
from nodes that agree make these nodes meet in turn. -/
def addLink (l : Grammar.Language) : Nat → Stack → Nat → Link → Stack
  | 0, s, _, _ => s
  | fuel + 1, s, self, link =>
    if link.node == self then s
    else
      let node := s.nodeAt self
      let under := s.nodeAt link.node
      let hit := node.links.toList.zipIdx.find? fun (old, _) =>
        sameTree old.tree? link.tree? &&
          (old.node == link.node ||
            (let other := s.nodeAt old.node
             other.state == under.state && other.pos == under.pos && other.cost == under.cost))
      match hit with
      | some (old, i) =>
        if old.node == link.node then
          if Link.dynamic old < Link.dynamic link then
            let dynamic := s.dynamicOver link
            s.setNode self fun n => { n with links := n.links.set! i link, dynamic }
          else s
        else
          let s := under.links.foldl (fun s inner => addLink l fuel s old.node inner) s
          let dynamic := s.dynamicOver link
          s.setNode self fun n => { n with dynamic := max n.dynamic dynamic }
      | none =>
        if node.links.size == maxLinks then s
        else
          let count := under.count + ((link.tree?.map (·.nodeCount l)).getD 0)
          let dynamic := s.dynamicOver link
          s.setNode self fun n =>
            { n with links := n.links.push link, count := max n.count count
                     dynamic := max n.dynamic dynamic }

def canMerge (s : Stack) (v w : Nat) : Bool :=
  let a := s.top v
  let b := s.top w
  s.isActive v && s.isActive w && a.state == b.state && a.pos == b.pos && a.cost == b.cost &&
    s.pending v == s.pending w

/-- Makes the second reading part of the first where they agree. -/
def merge (l : Grammar.Language) (s : Stack) (v w : Nat) : Bool × Stack :=
  if !s.canMerge v w then (false, s)
  else match s.heads[v]? with
    | none => (false, s)
    | some h =>
      let links := (s.top w).links
      let s := links.foldl (fun s link => addLink l s.nodes.size s h.node link) s
      let node := s.nodeAt h.node
      let s := if node.state == 0 then s.modifyHead v ({ · with countAtError := node.count }) else s
      (true, s.removeVersion w)

/-! ### Ways down -/

/-- A way down the stack: where it is, the trees it passed, topmost last, and how many of
them count. -/
structure Path where
  node : Nat
  trees : List Subtree
  count : Nat

/-- Takes one step over a link. -/
def Path.over (p : Path) (link : Link) : Path :=
  match link.tree? with
  | none => ⟨link.node, p.trees, p.count + 1⟩
  | some t => ⟨link.node, t :: p.trees, if t.isExtra then p.count else p.count + 1⟩

/-- What becomes of a way at a node: whether a slice ends there and whether the way does. -/
structure Halt where
  pop : Bool
  stop : Bool

/-- One round: every way that is not done goes one link further; further links of a node
open new ways, which begin their own rounds later. -/
def round {σ : Type} (s : Stack) (decide : σ → Path → σ × Halt) (paths : List Path) (memo : σ) :
    List Path × List Path × σ :=
  let (kept, added, popped, memo) := paths.foldl (fun (kept, added, popped, memo) p =>
    let node := s.nodeAt p.node
    let (memo, h) := decide memo p
    let popped := if h.pop then p :: popped else popped
    if h.stop || node.links.isEmpty then (kept, added, popped, memo)
    else
      let others := (node.links.toList.drop 1).map p.over
      let room := maxPaths - (paths.length + added.length)
      let first := (node.links.toList.take 1).map p.over
      (kept ++ first, added ++ others.take room, popped, memo)) ([], [], [], memo)
  (kept ++ added, popped.reverse, memo)

def walk {σ : Type} (s : Stack) (decide : σ → Path → σ × Halt) :
    Nat → List Path → σ → List Path → List Path × σ
  | 0, _, memo, acc => (acc, memo)
  | _, [], memo, acc => (acc, memo)
  | fuel + 1, paths, memo, acc =>
    let (paths, popped, memo) := s.round decide paths memo
    s.walk decide fuel paths memo (acc ++ popped)

def walkFrom {σ : Type} (s : Stack) (v : Nat) (decide : σ → Path → σ × Halt) (memo : σ) :
    List Path × σ :=
  match s.heads[v]? with
  | none => ([], memo)
  | some h => s.walk decide (s.nodes.size + 1) [⟨h.node, [], 0⟩] memo []

/-- Opens a reading for each node at which a way ended; ways that end at one node share
its reading and stand together. -/
def slices (s : Stack) (v : Nat) (paths : List Path) : List Slice × Stack :=
  let (acc, s) := paths.foldl (fun ((acc, s) : List Slice × Stack) p =>
    let atNode (sl : Slice) : Bool := match s.heads[sl.version]? with
      | some h => h.node == p.node
      | none => false
    match (acc.zipIdx.filter fun (sl, _) => atNode sl).getLast? with
    | some (sl, i) => (acc.take (i + 1) ++ ⟨p.trees, sl.version⟩ :: acc.drop (i + 1), s)
    | none =>
      let (w, s) := s.addVersion v p.node
      (acc ++ [⟨p.trees, w⟩], s)) ([], s)
  (acc, s)

/-- Takes a number of trees off a reading, extras not counted. -/
def popCount (s : Stack) (v count : Nat) : List Slice × Stack :=
  let (paths, _) := s.walkFrom v (fun (u : Unit) p =>
    (u, if p.count == count then ⟨true, true⟩ else ⟨false, false⟩)) ()
  s.slices v paths

/-- Takes all trees off a reading. -/
def popAll (s : Stack) (v : Nat) : List Slice × Stack :=
  let (paths, _) := s.walkFrom v (fun (u : Unit) p =>
    (u, if (s.nodeAt p.node).links.isEmpty then ⟨true, false⟩ else ⟨false, false⟩)) ()
  s.slices v paths

/-- Takes off an error that is on top. -/
def popError (s : Stack) (v : Nat) : List Subtree × Stack :=
  let onTop := (s.top v).links.any fun link => (link.tree?.map (·.isError)).getD false
  if !onTop then ([], s)
  else
    let (paths, _) := s.walkFrom v (fun (found : Bool) p =>
      match p.trees with
      | [] => (found, ⟨false, false⟩)
      | t :: _ =>
        if !found && t.isError then (true, ⟨true, true⟩) else (found, ⟨false, true⟩)) false
    let (sls, s) := s.slices v paths
    match sls with
    | sl :: _ => (sl.trees, s.renumber sl.version v)
    | [] => ([], s)

/-- The states that lie at most `maxDepth` trees below the top of a reading. -/
def landings (s : Stack) (v maxDepth : Nat) : Array Landing :=
  (s.walkFrom v (fun (found : Array Landing) p =>
    let state := (s.nodeAt p.node).state
    if p.count > maxDepth then (found, ⟨false, true⟩)
    else
      let known := found.any fun e => e.depth == p.count && e.state == state
      if known then (found, ⟨false, false⟩)
      else (found.push ⟨(s.nodeAt p.node).pos, p.count, state⟩, ⟨false, false⟩)) #[]).2

/-- Whether the reading has got past its last error. -/
def advancedSinceError (s : Stack) (v : Nat) : Bool :=
  match s.heads[v]? with
  | none => true
  | some h =>
    if (s.nodeAt h.node).cost == 0 then true
    else go h (s.nodes.size + 1) h.node
where
  go (h : Head) : Nat → Nat → Bool
    | 0, _ => false
    | fuel + 1, k =>
      let node := s.nodeAt k
      match node.links[0]? with
      | none => false
      | some link => match link.tree? with
        | none => false
        | some t =>
          if t.info.stop > t.info.origin then true
          else if node.count > h.countAtError && t.info.cost == 0 then go h fuel link.node
          else false

end Stack

end CodeAtlas.Parsing
