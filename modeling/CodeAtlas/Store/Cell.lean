import CodeAtlas.Json.Texts

/-! # Cells

How values that the database has no type for stand in the cells of a row: lists of texts as JSON, flags as
numbers. -/

namespace CodeAtlas.Store

/-- The list of texts that a JSON text is, unless it says that there is none. -/
def readList? (text : String) : Option (Option (List String)) :=
  match Json.readAll text.toList with
  | .ok .null => some none
  | .ok j => j.texts?.map some
  | .error _ => none

def writeList : Option (List String) → String
  | none => "null"
  | some ss => String.ofList (Json.writeTexts ss)

theorem readList?_writeList (ss? : Option (List String)) : readList? (writeList ss?) = some ss? := by
  cases ss? with
  | none => rfl
  | some ss =>
    rw [readList?, writeList, String.toList_ofList, Json.readAll_writeTexts]
    exact congrArg (Option.map some) (Json.texts?_strings ss)

/-- A cell with a list of texts, or with the word that there is none. -/
structure ListCell where
  text : String
  is_list : (readList? text).isSome
  deriving Repr, DecidableEq

namespace ListCell

def write (ss? : Option (List String)) : ListCell where
  text := writeList ss?
  is_list := by rw [readList?_writeList]; rfl

def read (c : ListCell) : Option (List String) := (readList? c.text).get c.is_list

@[simp] theorem read_write (ss? : Option (List String)) : (write ss?).read = ss? := by
  simp only [read, write, readList?_writeList, Option.get_some]

end ListCell

def writeFlag (b : Bool) : Int := if b then 1 else 0

def readFlag (n : Int) : Bool := n != 0

@[simp] theorem readFlag_writeFlag (b : Bool) : readFlag (writeFlag b) = b := by cases b <;> rfl

end CodeAtlas.Store
