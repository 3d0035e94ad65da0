import CodeAtlas.Path.Segment

/-! # Normal forms of paths

One spelling for all paths that lead to the same place without asking a disk. -/

namespace CodeAtlas.Path

/-- The path without empty parts, single dots and resolvable double dots. -/
def collapse (cs : List Char) : List Char :=
  let slashes := leadingSlashes cs
  let text := List.replicate slashes '/' ++ join (resolve (slashes != 0) (segments cs))
  if text.isEmpty then here else text

/-- Drops one slash or backslash at the end of a text of two characters or more. -/
def dropMark (cs : List Char) : List Char :=
  match cs.getLast? with
  | some c => if 1 < cs.length && (c == '/' || c == '\\') then cs.dropLast else cs
  | none => cs

def normalizeChars (cs : List Char) : List Char := dropMark (collapse cs)

def normalize (path : String) : String := String.ofList (normalizeChars path.toList)

/-- The absolute path that `path` is when read from `base`. -/
def absoluteFrom (base path : String) : String :=
  let parts :=
    if isAbsolute path.toList then segments path.toList
    else segments base.toList ++ segments path.toList
  String.ofList (dropMark ('/' :: join (resolve true parts)))

/-- Drops what two lists begin with in common. -/
def dropCommon : List Segment → List Segment → List Segment × List Segment
  | s :: ss, t :: ts => if s = t then dropCommon ss ts else (s :: ss, t :: ts)
  | ss, ts => (ss, ts)

/-- The way from one list of resolved parts to another. -/
def way (root path : List Segment) : List Segment :=
  let rest := dropCommon root path
  rest.1.map (fun _ => up) ++ rest.2

/-- The parts that lead from a root to a path. The empty path leads nowhere. -/
def relative (path root : String) : List Segment :=
  if path.isEmpty then []
  else way (resolve true (segments root.toList)) (resolve true (segments path.toList))

def relativeSegments (path root : String) : List String :=
  (relative path root).map String.ofList

end CodeAtlas.Path
