import CodeAtlas.Outline.Record
import CodeAtlas.Service.Problem
import CodeAtlas.Text.Blank

/-! # Payloads

The bodies of requests. A value of a neighbouring type is taken where its meaning is clear; else
every field that does not fit is reported. Fields have a short name for clients and a long one. -/

namespace CodeAtlas.Service

open CodeAtlas.Outline

/-- A value, or all that is wrong with it. -/
abbrev Checked (α : Type) := Except (List Problem) α

def problems {α : Type} : Checked α → List Problem
  | .ok _ => []
  | .error ps => ps

/-- A check of a value at a place. -/
abbrev Check (α : Type) := List Json → Json → Checked α

def complain {α : Type} (c : Complaint) : Check α := fun place input => .error [⟨c, place, input⟩]

/-! ## Single values -/

def readText : Check String
  | _, .string s => .ok s
  | place, j => complain .noString place j

def trueWords : List String := ["1", "t", "y", "on", "yes", "true"]

def falseWords : List String := ["0", "f", "n", "no", "off", "false"]

/-- Letters of the ASCII alphabet in lower case. -/
def lowerAscii (s : String) : String := String.ofList (s.toList.map Char.toLower)

def boolOfInt? (n : Int) : Option Bool :=
  if n == 0 then some false else if n == 1 then some true else none

/-- Whether an integer has 64 bits. -/
def isShort (n : Int) : Bool := -9223372036854775808 ≤ n && n ≤ 9223372036854775807

def readBool : Check Bool
  | _, .bool b => .ok b
  | place, .string s =>
    let word := lowerAscii s
    if trueWords.contains word then .ok true
    else if falseWords.contains word then .ok false
    else complain .unclearBool place (.string s)
  | place, .int n =>
    if !isShort n then complain .noBool place (.int n)
    else match boolOfInt? n with
      | some b => .ok b
      | none => complain .unclearBool place (.int n)
  | place, .decimal d => match d.integer? with
    | some n =>
      if !isShort n then complain .noBool place (.decimal d)
      else match boolOfInt? n with
        | some b => .ok b
        | none => complain .unclearBool place (.decimal d)
    | none => complain .noBool place (.decimal d)
  | place, j => complain .noBool place j

/-! ### Integers as text -/

def isDigitOrMark (c : Char) : Bool := c.isDigit || c == '_'

/-- Drops zeros, and marks between them, that stand before other digits. -/
def dropZeros (cs : List Char) : List Char :=
  match cs with
  | '0' :: rest =>
    let kept := rest.dropWhile fun c => c == '0' || c == '_'
    match kept with
    | c :: _ => if c.isDigit then kept else '0' :: kept
    | [] => if rest.getLast? == some '_' then rest else ['0']
  | cs => cs

/-- Drops a point with nothing but zeros behind it. -/
def dropFraction (cs : List Char) : List Char :=
  let after := cs.dropWhile (· != '.')
  if after.drop 1 |>.all (· == '0') then cs.takeWhile (· != '.') else cs

/-- Whether no mark is at an end or beside another mark. -/
def marksFit : Bool → List Char → Bool
  | afterDigit, [] => afterDigit
  | afterDigit, '_' :: cs => afterDigit && marksFit false cs
  | _, _ :: cs => marksFit true cs

/-- No more digits than this are read. -/
def maxDigits : Nat := 4300

inductive IntegerText
  | value (n : Int)
  | tooLong
  | unclear
  deriving Repr, DecidableEq

def readDigits (negative : Bool) (cs : List Char) : IntegerText :=
  let digits := dropFraction (dropZeros cs)
  if !digits.all isDigitOrMark || !marksFit false digits then .unclear
  else
    let digits := digits.filter Char.isDigit
    if maxDigits < digits.length then .tooLong
    else
      let n : Nat := digits.foldl (fun n c => 10 * n + (c.toNat - 48)) 0
      .value (if negative then -(n : Int) else n)

def readIntegerText (s : String) : IntegerText :=
  match Text.trimChars (fun c => Text.isBlank c && !(28 ≤ c.toNat && c.toNat ≤ 31)) s.toList with
  | '-' :: cs => readDigits true cs
  | '+' :: cs => readDigits false cs
  | cs => readDigits false cs

def readInt : Check Int
  | _, .int n => .ok n
  | _, .bool b => .ok (if b then 1 else 0)
  | place, .string s => match readIntegerText s with
    | .value n => .ok n
    | .tooLong => complain .largeInteger place (.string s)
    | .unclear => complain .unclearInteger place (.string s)
  | place, .decimal d => match d.integer? with
    | some n => if isShort n then .ok n else complain .largeInteger place (.decimal d)
    | none => complain .fraction place (.decimal d)
  | place, .nonFinite => complain .infinite place .nonFinite
  | place, j => complain .noInteger place j

/-- An integer that is not below a bound. -/
def readIntFrom (least : Int) : Check Int := fun place input => do
  let n ← readInt place input
  if n < least then complain (.below least) place input else return n

/-- A value that may be absent. -/
def optional {α : Type} (check : Check α) : Check (Option α)
  | _, .null => .ok none
  | place, j => (check place j).map some

/-! ## Objects -/

/-- The value of a field by its short name, or else by its long one. -/
def field {α : Type} (members : List (String × Json)) (place : List Json) (short long : String)
    (default : α) (check : Check α) : Checked α :=
  match Json.member? members short with
  | some j => check (place ++ [.string short]) j
  | none => match Json.member? members long with
    | some j => check (place ++ [.string long]) j
    | none => .ok default

def readSourceType : Check SourceType
  | place, .string s => match SourceType.ofName? s with
    | some t => .ok t
    | none => complain (.noneOf "module" "script") place (.string s)
  | place, j => complain (.noneOf "module" "script") place j

def readOptions : Check Options
  | place, .object members =>
    let comments := field members place "includeComments" "include_comments" false readBool
    let privateMembers := field members place "includePrivate" "include_private" false readBool
    let sourceType := field members place "sourceType" "source_type" .asModule readSourceType
    match comments, privateMembers, sourceType with
    | .ok comments, .ok privateMembers, .ok sourceType => .ok ⟨comments, privateMembers, sourceType⟩
    | _, _, _ => .error (problems comments ++ problems privateMembers ++ problems sourceType)
  | place, j => complain .noObject place j

/-- A source text to be read. -/
structure AnalyzeRequest where
  filePath? : Option String
  code? : Option String
  options? : Option Options
  deriving Repr, DecidableEq

def readAnalyzeRequest : Check AnalyzeRequest
  | place, .object members =>
    let filePath? := field members place "filePath" "file_path" none (optional readText)
    let code? := field members place "code" "code" none (optional readText)
    let options? := field members place "options" "options" none (optional readOptions)
    match filePath?, code?, options? with
    | .ok filePath?, .ok code?, .ok options? => .ok ⟨filePath?, code?, options?⟩
    | _, _, _ => .error (problems filePath? ++ problems code? ++ problems options?)
  | place, j => complain .noObject place j

/-- A project to be scanned. -/
structure ScanRequest where
  projectId? : Option String
  projectPath? : Option String
  content : Bool
  maxFileSize? : Option Int
  deriving Repr, DecidableEq

def readScanRequest : Check ScanRequest
  | place, .object members =>
    let projectId? := field members place "projectId" "project_id" none (optional readText)
    let projectPath? := field members place "projectPath" "project_path" none (optional readText)
    let content := field members place "includeContent" "include_content" false readBool
    let maxFileSize? :=
      field members place "maxFileSize" "max_file_size" none (optional (readIntFrom 0))
    match projectId?, projectPath?, content, maxFileSize? with
    | .ok projectId?, .ok projectPath?, .ok content, .ok maxFileSize? =>
      .ok ⟨projectId?, projectPath?, content, maxFileSize?⟩
    | _, _, _, _ => .error (problems projectId? ++ problems projectPath? ++ problems content ++
        problems maxFileSize?)
  | place, j => complain .noObject place j

end CodeAtlas.Service
