import CodeAtlas.Keyed
import CodeAtlas.Json.Read
import CodeAtlas.Text.Utf8

/-! # Addresses

The path of a request and what stands behind its question mark. Bytes may be written as a percent
sign with two hexadecimal digits. -/

namespace CodeAtlas.Service

/-- The bytes of a text in which percent signs stand for bytes. -/
def bytesOf : List Char → List UInt8
  | [] => []
  | '%' :: a :: b :: rest => match Json.hexValue? a, Json.hexValue? b with
    | some x, some y => UInt8.ofNat (16 * x + y) :: bytesOf rest
    | _, _ => 0x25 :: bytesOf (a :: b :: rest)
  | c :: rest => String.utf8EncodeChar c ++ bytesOf rest

def decodeText (cs : List Char) : String := String.ofList (Text.decode (bytesOf cs))

/-- The parts of a text between marks. -/
def splitAtMarks (mark : Char) : List Char → List (List Char)
  | [] => [[]]
  | c :: cs => match splitAtMarks mark cs with
    | [] => [[c]]
    | s :: ss => if c == mark then [] :: s :: ss else (c :: s) :: ss

/-- What stands before the first mark, and what stands behind it. -/
def cutAt (mark : Char) (cs : List Char) : List Char × List Char :=
  (cs.takeWhile (· != mark), (cs.dropWhile (· != mark)).drop 1)

/-- The values of a query. A plus sign stands for a blank; the last value of a name counts. -/
def readQuery (cs : List Char) : Keyed String :=
  let decode (cs : List Char) : String := decodeText (cs.map fun c => if c == '+' then ' ' else c)
  let parts := (splitAtMarks '&' cs).filter (!·.isEmpty)
  Keyed.ofList (parts.map fun part =>
    let (name, value) := cutAt '=' part
    (decode name, decode value))

structure Address where
  path : String
  query : Keyed String
  deriving Repr, DecidableEq

/-- Reads an address as it is written in a request. -/
def Address.read (text : String) : Address :=
  let (written, _) := cutAt '#' text.toList
  let (path, query) := cutAt '?' written
  let path := if path.head? == some '/' then path else '/' :: path
  ⟨decodeText path, readQuery query⟩

end CodeAtlas.Service
