import CodeAtlas.Path.Normal

/-! # Excluded paths

A path is excluded if a part of it below the root contains a pattern. -/

namespace CodeAtlas.Path

/-- Whether a text occurs somewhere in another. -/
def occursIn (pattern : List Char) : List Char → Bool
  | [] => pattern.isEmpty
  | c :: cs => pattern.isPrefixOf (c :: cs) || occursIn pattern cs

def matchesAny (patterns : List String) (s : Segment) : Bool :=
  patterns.any fun p => occursIn p.toList s

def excluded (path root : String) (patterns : List String) : Bool :=
  (relative path root).any (matchesAny patterns)

/-- What is left out of every scan. -/
def defaultPatterns : List String :=
  ["node_modules", ".git", ".next", "dist", "build", ".cache", "coverage", ".turbo", ".vercel",
    "__pycache__", "venv", ".env", ".env.local", ".DS_Store"]

end CodeAtlas.Path
