import CodeAtlas.Text.Blank
import CodeAtlas.Text.Quoted
import CodeAtlas.Tree.Source
import CodeAtlas.Tree.Walk

/-! # Faults in a tree

The first erroneous or missing node of a tree, and how it is reported. -/

namespace CodeAtlas.Tree

namespace Node

/-- Looks for a fault at the nodes on a list and below them, first entry first. A node without one leaves
its place on the list to those of its children that are worth a look. -/
def searchFault? (worth : Node → Bool) (stack : List Node) : Option Node :=
  match stack with
  | [] => none
  | n :: rest =>
    if n.isFault then some n else searchFault? worth (n.children.filter worth ++ rest)
termination_by sizeAll stack
decreasing_by
  have := sizeAll_le_of_sublist (List.filter_sublist (p := worth) (l := n.children))
  simp only [sizeAll_append, sizeAll, size_eq]
  omega

/-- Whether there may be a fault at a node or below it. -/
def mayHoldFault (n : Node) : Bool := n.hasError || n.face.isMissing

/-- The first fault in the order of the text; children without an error are passed over. -/
def firstFault? (root : Node) : Option Node := searchFault? mayHoldFault [root]

end Node

/-- The part of a text that a message quotes: the first line, without the white space around
the text, and no more than forty characters of it. -/
def snippet (text : String) : String :=
  String.ofList ((Text.firstLine (Text.trimChars Text.isBlank text.toList)).take 40)

def place (s : Source) (n : Node) : String :=
  s!"({s.line n}:{s.column n.start})"

/-- How a fault is reported. -/
def faultMessage (s : Source) (n : Node) : String :=
  if n.face.isMissing then s!"Missing {Text.quoted n.type} {place s n}"
  else
    let part := snippet ((s.textOf? n).getD "")
    if part.isEmpty then s!"Unexpected end of input {place s n}"
    else s!"Unexpected token {Text.quoted part} {place s n}"

/-- What is wrong with the tree of a source text, if anything is. -/
def syntaxError? (s : Source) (root : Node) : Option String :=
  if root.hasError then some (faultMessage s (root.firstFault?.getD root)) else none

end CodeAtlas.Tree
