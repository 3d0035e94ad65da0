import CodeAtlas.Path.Segment
import CodeAtlas.Text.Case

/-! # File name extensions -/

namespace CodeAtlas.Path

/-- What stands behind the last dot of a name, and what stands before that dot from its last
character to its first. -/
def atLastDot (name : List Char) : Option (List Char × List Char) :=
  match name.reverse.dropWhile (· != '.') with
  | [] => none
  | _ :: before => some ((name.reverse.takeWhile (· != '.')).reverse, before)

/-- The extension of a path with its dot, in lower case. A name that only begins or ends with
a dot has none. -/
def extension (path : String) : String :=
  match atLastDot ((segments path.toList).getLast?.getD []) with
  | some (after, before) =>
    if after.isEmpty || before.isEmpty then ""
    else Text.lower (String.ofList ('.' :: after))
  | none => ""

/-- The type of a file by its name, without a dot. Dots at the start of a name do not count,
but a dot at its end gives the empty type. -/
def fileType? (name : String) : Option String :=
  let last := (name.toList.reverse.takeWhile (· != '/')).reverse
  match atLastDot last with
  | some (after, before) =>
    if before.all (· == '.') then none
    else some (String.ofList ((Text.lower (String.ofList ('.' :: after))).toList.drop 1))
  | none => none

end CodeAtlas.Path
