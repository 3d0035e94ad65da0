import CodeAtlas.Keyed
import CodeAtlas.Text.Blank

/-! # Files of assignments

A file that assigns values to names, one to a line. A value may stand between quotes, and then
reach over several lines; comments begin with a number sign. A line that cannot be read is
passed over. Values may mention other names. -/

namespace CodeAtlas.Settings

open CodeAtlas.Text

def isInnerBlank (c : Char) : Bool := isBlank c && c != '\n' && c != '\r'

/-- A name, with its value if one is assigned. -/
structure Assignment where
  name : String
  value? : Option String
  deriving Repr, DecidableEq

/-! ## Values -/

/-- The text up to a quote that closes it and what stands behind that quote. A quote behind a
backslash closes only if no other does. -/
def closeQuote (quote : Char) : List Char → Option (List Char × List Char)
  | [] => none
  | '\\' :: c :: cs =>
    if c == quote then
      match closeQuote quote cs with
      | some (text, rest) => some ('\\' :: c :: text, rest)
      | none => some (['\\'], cs)
    else (closeQuote quote (c :: cs)).map fun (text, rest) => ('\\' :: text, rest)
  | c :: cs =>
    if c == quote then some ([], cs)
    else (closeQuote quote cs).map fun (text, rest) => (c :: text, rest)

/-- Resolves those escapes that the table knows. -/
def unescape (table : List (Char × Char)) : List Char → List Char
  | '\\' :: c :: cs =>
    match table.find? (·.1 == c) with
    | some (_, d) => d :: unescape table cs
    | none => '\\' :: unescape table (c :: cs)
  | c :: cs => c :: unescape table cs
  | [] => []

def singleEscapes : List (Char × Char) := [('\\', '\\'), ('\'', '\'')]

def doubleEscapes : List (Char × Char) := singleEscapes ++ [('"', '"'), ('a', '\x07'),
  ('b', '\x08'), ('f', '\x0c'), ('n', '\n'), ('r', '\r'), ('t', '\t'), ('v', '\x0b')]

/-- Drops a comment that has white space before it. -/
def withoutComment : List Char → List Char
  | [] => []
  | c :: cs =>
    if isBlank c && ((c :: cs).dropWhile isBlank).head? == some '#' then []
    else c :: withoutComment cs

def trimEnd (cs : List Char) : List Char := (cs.reverse.dropWhile isBlank).reverse

def isLineText (c : Char) : Bool := c != '\n' && c != '\r'

/-- Reads a value. -/
def readValue : List Char → Option (List Char × List Char)
  | '\'' :: cs => (closeQuote '\'' cs).map fun (text, rest) => (unescape singleEscapes text, rest)
  | '"' :: cs => (closeQuote '"' cs).map fun (text, rest) => (unescape doubleEscapes text, rest)
  | cs => some (trimEnd (withoutComment (cs.takeWhile isLineText)), cs.dropWhile isLineText)

/-! ## Lines -/

/-- Passes the word that marks an assignment for export. -/
def skipExport (cs : List Char) : List Char :=
  let word := "export".toList
  if word.isPrefixOf cs && ((cs.drop word.length).head?.map isInnerBlank).getD false then
    (cs.drop word.length).dropWhile isInnerBlank
  else cs

/-- Reads a name; a line that begins with a number sign has none. -/
def readName : List Char → Option (Option (List Char) × List Char)
  | '#' :: cs => some (none, '#' :: cs)
  | '\'' :: cs =>
    let name := cs.takeWhile (· != '\'')
    match cs.dropWhile (· != '\'') with
    | _ :: rest => if name.isEmpty then none else some (some name, rest)
    | [] => none
  | cs =>
    let inName (c : Char) : Bool := c != '=' && c != '#' && !isBlank c
    if (cs.takeWhile inName).isEmpty then none
    else some (some (cs.takeWhile inName), cs.dropWhile inName)

/-- Passes a comment and the end of the line. -/
def endLine? (cs : List Char) : Option (List Char) :=
  let cs := match cs.dropWhile isInnerBlank with
    | '#' :: rest => rest.dropWhile isLineText
    | _ => cs
  match cs.dropWhile isInnerBlank with
  | [] => some []
  | '\r' :: '\n' :: rest => some rest
  | c :: rest => if isLineText c then none else some rest

/-- Passes what is left of a line that cannot be read. -/
def skipLine (cs : List Char) : List Char := (cs.dropWhile isLineText).drop 1

/-- How reading an assignment ended. -/
inductive Reading
  | read (a? : Option Assignment) (rest : List Char)
  /-- The line cannot be read from here on. -/
  | broken (rest : List Char)

def readAssignment (cs : List Char) : Reading :=
  let cs := skipExport cs
  match readName cs with
  | none => .broken cs
  | some (name?, cs) =>
    let cs := cs.dropWhile isInnerBlank
    let valued : Except (List Char) (Option (List Char) × List Char) := match cs with
      | '=' :: cs =>
        let cs := cs.dropWhile isInnerBlank
        match readValue cs with
        | some (value, rest) => .ok (some value, rest)
        | none => .error cs
      | cs => .ok (none, cs)
    match valued with
    | .error cs => .broken cs
    | .ok (value?, cs) => match endLine? cs with
      | none => .broken (match cs.dropWhile isInnerBlank with
        | '#' :: rest => rest.dropWhile isLineText
        | _ => cs)
      | some rest =>
        .read (name?.map fun n => ⟨String.ofList n, value?.map String.ofList⟩) rest

/-- The assignments of a file; no more lines are read than the text has characters. -/
def readAll : Nat → List Char → List Assignment
  | 0, _ => []
  | fuel + 1, cs =>
    match cs.dropWhile isBlank with
    | [] => []
    | cs => match readAssignment cs with
      | .read a? rest => a?.toList ++ readAll fuel rest
      | .broken rest => readAll fuel (skipLine rest)

/-- Line ends of every kind become line feeds. -/
def unifyLines : List Char → List Char
  | '\r' :: '\n' :: cs => '\n' :: unifyLines cs
  | '\r' :: cs => '\n' :: unifyLines cs
  | c :: cs => c :: unifyLines cs
  | [] => []

def assignments (text : String) : List Assignment :=
  let cs := unifyLines text.toList
  readAll (cs.length + 1) cs

/-! ## Names inside values -/

/-- A name in braces with what stands in for it. -/
structure Mention where
  name : List Char
  other : List Char

/-- Reads a mention from behind its opening brace. -/
def readMention (cs : List Char) : Option (Mention × List Char) :=
  let name := cs.takeWhile fun c => c != '\x7d' && c != ':'
  match cs.drop name.length with
  | '\x7d' :: rest => some (⟨name, []⟩, rest)
  | ':' :: '-' :: rest =>
    let other := rest.takeWhile (· != '\x7d')
    match rest.drop other.length with
    | _ :: rest => some (⟨name, other⟩, rest)
    | [] => none
  | _ => none

/-- Replaces the names that a value mentions. -/
def expand (lookup : String → Option String) : Nat → List Char → List Char
  | 0, cs => cs
  | _, [] => []
  | fuel + 1, c :: cs =>
    match c, cs with
    | '$', '\x7b' :: behind => match readMention behind with
      | some (m, rest) =>
        ((lookup (String.ofList m.name)).map String.toList).getD m.other
          ++ expand lookup fuel rest
      | none => c :: expand lookup fuel cs
    | _, _ => c :: expand lookup fuel cs

/-- The values of a file, given those that are set around it. `overriding` says that the file
wins over them. A name without a value counts as empty where it is mentioned. -/
def resolveAll (around : Keyed String) (overriding : Bool) (as : List Assignment) :
    Keyed (Option String) :=
  as.foldl (fun values a =>
    let own (name : String) : Option String := (values.get? name).map (·.getD "")
    let lookup (name : String) : Option String :=
      if overriding then own name <|> around.get? name else around.get? name <|> own name
    values.set a.name (a.value?.map fun v =>
      String.ofList (expand lookup (v.length + 1) v.toList))) []

/-- The settings around a file once the file has been read. -/
def load (around : Keyed String) (overriding : Bool) (text : String) : Keyed String :=
  (resolveAll around overriding (assignments text)).foldl (fun env (name, value?) =>
    match value? with
    | some v => if env.contains name && !overriding then env else env.set name v
    | none => env) around

end CodeAtlas.Settings
