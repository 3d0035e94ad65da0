/-! # Path segments

A path as the parts between its slashes. -/

namespace CodeAtlas.Path

abbrev Segment := List Char

/-- The parts of a text between slashes; there is one more part than there are slashes. -/
def split : List Char → List Segment
  | [] => [[]]
  | c :: cs => match split cs with
    | [] => [[c]]
    | s :: ss => if c = '/' then [] :: s :: ss else (c :: s) :: ss

theorem split_ne_nil (cs : List Char) : split cs ≠ [] := by
  induction cs with
  | nil => simp [split]
  | cons c cs ih =>
    simp only [split]
    split
    · simp
    · split <;> simp

/-- The parts with a slash between any two. -/
def join : List Segment → List Char
  | [] => []
  | [s] => s
  | s :: t :: rest => s ++ '/' :: join (t :: rest)

theorem join_split (cs : List Char) : join (split cs) = cs := by
  induction cs with
  | nil => rfl
  | cons c cs ih =>
    simp only [split]
    split
    · next h => exact absurd h (split_ne_nil cs)
    · next s ss h =>
      rw [h] at ih
      split
      · next hc => simp [join, ih, hc]
      · cases ss with
        | nil => simp_all [join]
        | cons => simp_all [join]

def here : Segment := ['.']

def up : Segment := ['.', '.']

/-- The parts that say something: neither empty nor a single dot. -/
def segments (cs : List Char) : List Segment :=
  (split cs).filter fun s => s != [] && s != here

/-- Takes one more part onto a path whose parts are listed from the last to the first: two dots
take the part before them away, unless that part is two dots as well. At the root they say
nothing. -/
def enter (rooted : Bool) (path : List Segment) (s : Segment) : List Segment :=
  if s != up then s :: path
  else match path with
    | [] => if rooted then [] else [up]
    | t :: rest => if t == up then up :: t :: rest else rest

/-- The parts with every two dots resolved that can be. -/
def resolve (rooted : Bool) (ss : List Segment) : List Segment :=
  (ss.foldl (enter rooted) []).reverse

/-- Slashes at the start: none, one or two. Three and more count as one. -/
def leadingSlashes (cs : List Char) : Nat :=
  match cs.takeWhile (· == '/') with
  | [] => 0
  | [_, _] => 2
  | _ => 1

def isAbsolute (cs : List Char) : Bool := cs.head? == some '/'

end CodeAtlas.Path
