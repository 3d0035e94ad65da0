import CodeAtlas.Json.Records
import CodeAtlas.Service.Address
import CodeAtlas.Service.Payload

/-! # Answering requests

The routes of the service. What goes wrong inside an answer is not shown to clients, but what was
stored before stays stored. -/

namespace CodeAtlas.Service

open CodeAtlas.Disk CodeAtlas.Outline CodeAtlas.Project CodeAtlas.Scan CodeAtlas.Store

structure Request where
  method : String
  address : Address
  body? : Option String
  deriving Repr, DecidableEq

inductive Body
  | json (j : Json)
  | text (s : String)
  | nothing
  deriving Repr

structure Answer where
  status : Nat
  body : Body
  deriving Repr

namespace Answer

def ok (members : List (String × Json)) : Answer := ⟨200, .json (.object members)⟩

def success (members : List (String × Json)) : Answer := ok (("success", .bool true) :: members)

def refusal (status : Nat) (reason : String) : Answer :=
  ⟨status, .json (.object [("detail", .string reason)])⟩

/-- The answer when the service itself fails. -/
def failure : Answer := ⟨500, .text "Internal Server Error"⟩

/-- The answer to a request that does not fit. A number without a finite value cannot be shown. -/
def invalid (ps : List Problem) : Answer :=
  let detail : Json := .array (ps.map (·.json))
  if detail.hasNonFinite then failure else ⟨422, .json (.object [("detail", detail)])⟩

end Answer

/-! ## Routes -/

inductive Route
  | health
  | analyze
  | scan
  | dependencies
  deriving Repr, DecidableEq

namespace Route

def all : List Route := [health, analyze, scan, dependencies]

def path : Route → String
  | health => "/health"
  | analyze => "/code/analyze"
  | scan => "/projects/scan"
  | dependencies => "/code/dependencies"

def method : Route → String
  | health | dependencies => "GET"
  | analyze | scan => "POST"

def ofPath? (path : String) : Option Route := all.find? (·.path == path)

/-- The path without slashes at its end, or with one if it has none. -/
def otherSpelling (path : String) : String :=
  let cs := path.toList
  if cs.getLast? == some '/' then String.ofList (cs.reverse.dropWhile (· == '/')).reverse
  else path ++ "/"

/-- The route of a path. A client that spells a path with slashes at its end is sent to the route
without them. -/
def find? (path : String) : Option Route := (ofPath? path).or (ofPath? (otherSpelling path))

end Route

/-! ## Bodies -/

def atBody : List Json := [.string "body"]

/-- Reads the body of a request. -/
def readBody {α : Type} (check : Check α) (body? : Option String) : Except Answer α :=
  match body?.filter (!·.isEmpty) with
  | none => .error (.invalid [⟨.missing, atBody, .null⟩])
  | some text => match Json.read text with
    | .ok j => (check atBody j).mapError .invalid
    | .error ⟨.shortNumber, _⟩ => .error (.refusal 400 "There was an error parsing the body")
    | .error e =>
      .error (.invalid [⟨.unreadable e.expected.message, atBody ++ [.nat e.position], .object []⟩])

/-! ## Answers -/

/-- A service with its scanner on a disk. -/
structure Site where
  scanner : Scanner
  disk : Disk

def analyze (r : AnalyzeRequest) : Answer :=
  match r.filePath?.filter (!·.isEmpty), r.code? with
  | some path, some code => match Outline.tryParse path code (r.options?.getD .default) with
    | .ok f =>
      .success [("result", f.json), ("language", .string f.language), ("stats", f.summary.json)]
    | .error _ => .failure
  | _, _ => .refusal 400 "Missing filePath or code"

/-- Scans the project that a request names, if its path leads to a folder. -/
def scan (s : Site) (r : ScanRequest) : StateM Database Answer := fun db =>
  match r.projectId?.filter (!·.isEmpty), r.projectPath?.filter (!·.isEmpty) with
  | some projectId, some projectPath => match s.disk.resolve projectPath with
    | .error _ => (.failure, db)
    | .ok path =>
      if !s.disk.isFolder path then (.refusal 404 s!"Project directory not found: {path}", db)
      else match scanProject s.scanner s.disk projectId path r.content r.maxFileSize? db with
        | (.ok report, db) =>
          (.success [("stats", report.totals.json),
            ("files", .array (report.entries.map (·.json)))], db)
        | (.error _, db) => (.failure, db)
  | _, _ => (.refusal 400 "Missing projectId or projectPath", db)

/-- The dependencies of a file, or else the graph of a project. -/
def dependencies (query : Keyed String) (db : Database) : Answer :=
  match (query.get? "fileId").filter (!·.isEmpty), (query.get? "projectId").filter (!·.isEmpty) with
  | some fileId, _ => match fileDependencies db fileId with
    | .ok d => .success [("dependencies", Json.strings d.dependencies),
        ("dependents", Json.strings d.dependents)]
    | .error _ => .failure
  | none, some projectId => match projectGraph db projectId with
    | .ok g => .success [("graph", g.json)]
    | .error _ => .failure
  | none, none => .refusal 400 "Missing fileId or projectId"

def Route.answer (s : Site) (r : Request) : Route → StateM Database Answer
  | .health => pure (.ok [("status", .string "healthy")])
  | .analyze => pure (match readBody readAnalyzeRequest r.body? with
    | .ok request => Service.analyze request
    | .error answer => answer)
  | .scan => match readBody readScanRequest r.body? with
    | .ok request => Service.scan s request
    | .error answer => pure answer
  | .dependencies => fun db => (Service.dependencies r.address.query db, db)

/-- Answers a request. A request for the head alone gets no body. -/
def respond (s : Site) (r : Request) : StateM Database Answer := do
  let answer ← match Route.find? r.address.path with
    | none => pure (.refusal 404 "Not Found")
    | some route =>
      if route.method == r.method then route.answer s r
      else pure (.refusal 405 "Method Not Allowed")
  return if r.method == "HEAD" then { answer with body := .nothing } else answer

end CodeAtlas.Service
