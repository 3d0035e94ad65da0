/-! Syntax trees. A node spans bytes of a source text; it has a type, perhaps a field name
under its parent, and children in the order of the text. -/

namespace CodeAtlas.Tree

/-- What a node shows of itself, apart from its children. -/
structure Face where
  type : String
  /-- Named nodes stand for a rule, the others for a text of the grammar. -/
  named : Bool
  field? : Option String
  start : Nat
  stop : Nat
  isError : Bool
  isMissing : Bool
  /-- Whether the node counts as erroneous whatever its children are. -/
  flagged : Bool
  /-- Whether the text of the node cannot be had. -/
  silent : Bool
  deriving Repr, Inhabited, DecidableEq

inductive Node
  | mk (face : Face) (children : List Node)
  deriving Repr, Inhabited

namespace Node

def face : Node → Face
  | mk f _ => f

def children : Node → List Node
  | mk _ cs => cs

def type (n : Node) : String := n.face.type

def start (n : Node) : Nat := n.face.start

def stop (n : Node) : Nat := n.face.stop

/-- The children that are named, in order. -/
def namedChildren (n : Node) : List Node := n.children.filter (·.face.named)

/-- The first child, named or not, with a field name. -/
def child? (n : Node) (field : String) : Option Node :=
  n.children.find? (·.face.field? == some field)

/-- The first child, named or not, of one of the given types. -/
def firstOfType? (n : Node) (types : List String) : Option Node :=
  n.children.find? fun c => types.contains c.type

/-- Whether a child is the given text of the grammar. -/
def hasToken (n : Node) (text : String) : Bool :=
  n.children.any fun c => !c.face.named && c.type == text

mutual
def hasError : Node → Bool
  | mk f cs => f.flagged || f.isError || f.isMissing || anyHasError cs
def anyHasError : List Node → Bool
  | [] => false
  | c :: cs => c.hasError || anyHasError cs
end

def isFault (n : Node) : Bool := n.face.isError || n.face.isMissing

end Node

end CodeAtlas.Tree
