import CodeAtlas.Json.Value
import CodeAtlas.Text.Quoted

/-! # Writing JSON

Values as text, without blanks. -/

namespace CodeAtlas.Json

def escape (c : Char) : List Char :=
  if c == '"' || c == '\\' then ['\\', c]
  else if c.toNat < 0x20 then '\\' :: 'u' :: Text.hexDigits 4 c.toNat
  else [c]

def writeString (out s : String) : String :=
  (s.toList.foldl (fun out c => (escape c).foldl String.push out) (out.push '"')).push '"'

mutual

/-- Writes a value behind a text. -/
def write (out : String) : Json → String
  | .null => out ++ "null"
  | .bool b => out ++ (if b then "true" else "false")
  | .int n => out ++ toString n
  | .decimal d => out ++ toString d.mantissa ++ "e" ++ toString d.exponent
  | .nonFinite => out ++ "NaN"
  | .string s => writeString out s
  | .array elements => (writeElements (out.push '[') "" elements).push ']'
  | .object members => (writeMembers (out.push '\x7b') "" members).push '\x7d'

/-- Writes elements, with a text before the first and commas before the others. -/
def writeElements (out before : String) : List Json → String
  | [] => out
  | j :: rest => writeElements (write (out ++ before) j) "," rest

def writeMembers (out before : String) : List (String × Json) → String
  | [] => out
  | (key, j) :: rest =>
    writeMembers (write ((writeString (out ++ before) key).push ':') j) "," rest

end

def text (j : Json) : String := write "" j

end CodeAtlas.Json
