import CodeAtlas.Grammar.Language
import CodeAtlas.Parsing.Scanner

/-! The parts of a tree while it is being built, with the cost of the errors in them. -/

namespace CodeAtlas.Parsing

open CodeAtlas.Grammar

inductive Kind
  | token (index : Nat)
  | var (index : Nat)
  /-- A stretch of text that fits nowhere. -/
  | error
  /-- A part of such a stretch. -/
  | errorPart
  deriving BEq, Inhabited, DecidableEq

structure NodeInfo where
  kind : Kind
  /-- Where the blanks before it begin. -/
  origin : Nat
  start : Nat
  stop : Nat
  /-- The finished spot that it was reduced by. -/
  spot : Nat
  extra : Bool
  missing : Bool
  cost : Nat
  dynamic : Int
  /-- Nodes below it that show in the tree, and those of them that no other one holds. -/
  shown : Nat
  shownChildren : Nat
  /-- What the scanner waits for behind it, if the scanner found it. -/
  pending? : Option Pending
  deriving Inhabited

inductive Subtree
  | node (info : NodeInfo) (children : List Subtree)
  deriving Inhabited

namespace Subtree

def info : Subtree → NodeInfo
  | node i _ => i

def children : Subtree → List Subtree
  | node _ cs => cs

def kind (t : Subtree) : Kind := t.info.kind

def isExtra (t : Subtree) : Bool := t.info.extra

def isError (t : Subtree) : Bool := t.kind == .error

def isEnd (t : Subtree) : Bool := t.kind == .token Language.endToken

/-- What an error costs: a recovery, a token that is missing, a tree, a byte or a line that
is skipped. -/
def perRecovery : Nat := 500
def perMissing : Nat := 110
def perSkippedTree : Nat := 100
def perSkippedByte : Nat := 1
def perSkippedLine : Nat := 30

def isVisible (l : Language) (t : Subtree) : Bool :=
  match t.kind with
  | .token i => (l.tokens[i]?.map (·.visible)).getD false
  | .var i => (l.vars[i]?.map (·.visible)).getD false
  | .error => true
  | .errorPart => false

def withExtra (extra : Bool) : Subtree → Subtree
  | node i cs => node { i with extra } cs

def withKind (kind : Kind) : Subtree → Subtree
  | node i cs => node { i with kind } cs

def leaf (kind : Kind) (origin start stop : Nat) (pending? : Option Pending) : Subtree :=
  node ⟨kind, origin, start, stop, 0, kind == .token Language.endToken, false, 0, 0, 0, 0,
    pending?⟩ []

/-- A token that is not there but would have fitted. -/
def missingLeaf (token pos : Nat) : Subtree :=
  node ⟨.token token, pos, pos, pos, 0, false, true, perMissing + perRecovery, 0, 0, 0, none⟩ []

/-- Nodes that count as progress: those that show, and stretches of skipped text. -/
def nodeCount (l : Language) (t : Subtree) : Nat :=
  t.info.shown + (if t.isVisible l then 1 else 0) + (if t.kind == .errorPart then 1 else 0)

structure Summary where
  cost : Nat
  dynamic : Int
  shown : Nat
  shownChildren : Nat
  /-- Children so far that are not extras. -/
  index : Nat

/-- The aliases of the steps of a production, by step. -/
def stepAliases (l : Language) (spot : Nat) : List (Option Alias) :=
  match l.spots[spot]? with
  | some s => ((l.productions[s.production]?).map fun p => p.steps.map (·.alias?)).getD []
  | none => []

def addChild (l : Language) (inError : Bool) (aliases : List (Option Alias)) (s : Summary)
    (child : Subtree) : Summary :=
  let i := child.info
  let cost := s.cost + (if child.kind == .errorPart then 0 else i.cost)
  let hasChildren := !child.children.isEmpty
  let visible := child.isVisible l
  let skipped :=
    if !inError || i.extra || (child.isError && !hasChildren) then 0
    else if visible then perSkippedTree
    else if hasChildren then perSkippedTree * i.shownChildren
    else 0
  let aliased := !i.extra && (aliases[s.index]?.join).isSome
  { cost := cost + skipped
    dynamic := s.dynamic + i.dynamic
    shown := s.shown + i.shown + (if aliased || visible then 1 else 0)
    shownChildren := s.shownChildren +
      (if aliased || visible then 1 else if hasChildren then i.shownChildren else 0)
    index := if i.extra then s.index else s.index + 1 }

/-- A node over children; `pos` is where it stands if it has none. -/
def build (l : Language) (text : Text) (kind : Kind) (spot : Nat) (pos : Nat)
    (children : List Subtree) : Subtree :=
  let inError := kind == .error || kind == .errorPart
  let aliases := match kind with
    | .var _ => stepAliases l spot
    | _ => []
  let s := children.foldl (addChild l inError aliases) ⟨0, 0, 0, 0, 0⟩
  let first := children.head?.map (·.info)
  let start := (first.map (·.start)).getD pos
  let stop := (children.getLast?.map (·.info.stop)).getD pos
  let own :=
    if inError then
      perRecovery + perSkippedByte * (text.byteOf stop - text.byteOf start)
        + perSkippedLine * (text.rowOf stop - text.rowOf start)
    else 0
  let pending? := children.foldl (fun acc c => c.info.pending? <|> acc) none
  node ⟨kind, (first.map (·.origin)).getD pos, start, stop, spot, false, false, s.cost + own,
    s.dynamic, s.shown, s.shownChildren, pending?⟩ children

def addDynamic (n : Int) : Subtree → Subtree
  | node i cs => node { i with dynamic := i.dynamic + n } cs

/-- Splits off the extras at the end. -/
def splitExtras (ts : List Subtree) : List Subtree × List Subtree :=
  let extras := (ts.reverse.takeWhile isExtra).reverse
  (ts.take (ts.length - extras.length), extras)

def kindOrder : Kind → Nat
  | .token i => i
  | .var i => 256 + i
  | .errorPart => 65534
  | .error => 65535

mutual
/-- Orders trees by symbol, then by number of children, then by the children. -/
def compare : Subtree → Subtree → Ordering
  | node i cs, node j ds =>
    (Ord.compare (kindOrder i.kind) (kindOrder j.kind)).then <|
      (Ord.compare cs.length ds.length).then (compareAll cs ds)
def compareAll : List Subtree → List Subtree → Ordering
  | [], _ => .eq
  | _, [] => .eq
  | c :: cs, d :: ds => (compare c d).then (compareAll cs ds)
end

/-- Whether the second of two trees over the same text is the better one. -/
def isBetter (old new : Subtree) : Bool :=
  if new.info.cost < old.info.cost then true
  else if old.info.cost < new.info.cost then false
  else if old.info.dynamic < new.info.dynamic then true
  else if new.info.dynamic < old.info.dynamic then false
  else if old.info.cost > 0 then true
  else compare old new == .gt

end Subtree

end CodeAtlas.Parsing
