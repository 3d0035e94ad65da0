import CodeAtlas.Parsing.Parser
import CodeAtlas.Tree.Node

/-! The tree that a reader sees: nodes that do not show give way to their children, aliases
replace names, and fields pass through nodes that do not show. -/

namespace CodeAtlas.Parsing

open CodeAtlas.Grammar CodeAtlas.Tree

/-- How a node is called when nothing renames it. -/
def ownName (l : Language) (kind : Kind) : String × Bool :=
  match kind with
  | .token i =>
    match l.shownAs[Sym.token i]?, l.tokens[i]? with
    | some a, _ => (a.name, a.named)
    | none, some t => (t.name, t.named)
    | none, none => ("", false)
  | .var i =>
    match l.shownAs[Sym.var i]?, l.vars[i]? with
    | some a, _ => (a.name, a.named)
    | none, some v => (v.name, v.named)
    | none, none => ("", false)
  | .error => ("ERROR", true)
  | .errorPart => ("", false)

def stepsOf (l : Language) (info : NodeInfo) : List Step :=
  match info.kind, l.spots[info.spot]? with
  | .var _, some s => match l.productions[s.production]? with
    | some p => p.steps
    | none => []
  | _, _ => []

mutual
def Subtree.shown (l : Language) (text : Text) (alias? : Option Alias) (field? : Option String) :
    Subtree → List Node
  | .node info children =>
    let plain := ownName l info.kind
    let (name, named) := match alias? with
      | some a => (a.name, a.named)
      | none => plain
    if Subtree.isVisible l (.node info children) || alias?.isSome then
      [.mk ⟨name, named, field?, text.byteOf info.start, text.byteOf info.stop,
        info.kind == .error, info.missing, info.cost > 0, false⟩
        (Subtree.shownAll l text none (stepsOf l info) children)]
    else Subtree.shownAll l text field? (stepsOf l info) children
/-- The children of a node with the steps of its production; extras take no step. -/
def Subtree.shownAll (l : Language) (text : Text) (outer? : Option String) :
    List Step → List Subtree → List Node
  | _, [] => []
  | steps, t :: ts =>
    if t.isExtra then t.shown l text none none ++ Subtree.shownAll l text outer? steps ts
    else match steps with
      | [] => t.shown l text none outer? ++ Subtree.shownAll l text outer? [] ts
      | s :: rest =>
        t.shown l text s.alias? (s.field? <|> outer?) ++ Subtree.shownAll l text outer? rest ts
end

/-- Reads a text into the tree that shows. -/
def parseTree (l : Language) (scanner : Scanner) (source : String) : Node :=
  let text := Text.ofString source
  match (Job.parse ⟨l, scanner, text⟩).shown l text none none with
  | root :: _ => root
  | [] => .mk ⟨"ERROR", true, none, 0, source.utf8ByteSize, true, false, true, false⟩ []

end CodeAtlas.Parsing
