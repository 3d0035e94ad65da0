import CodeAtlas.Dialect.Php
import CodeAtlas.Dialect.Php.Scanner
import CodeAtlas.Dialect.Tsx
import CodeAtlas.Dialect.Tsx.Scanner
import CodeAtlas.Outline.Php
import CodeAtlas.Outline.Script
import CodeAtlas.Parsing.Shown
import CodeAtlas.Path.Extension

/-! # Parsing files

A file is read by the language that its extension names. What cannot be read comes back as a
file with an error; only a pattern that nests too deep makes the reading itself fail. -/

namespace CodeAtlas.Outline

open CodeAtlas.Grammar CodeAtlas.Tree

/-- The grammars there are. One grammar reads ECMAScript, JSX and TypeScript alike. -/
inductive GrammarName
  | tsx
  | php
  deriving Repr, DecidableEq

namespace GrammarName

def name : GrammarName → String
  | tsx => "tsx"
  | php => "php"

def ofName? (s : String) : Option GrammarName := [tsx, php].find? (·.name == s)

def unavailable (s : String) : String := s!"Language {s} not available"

end GrammarName

/-- What the tree of a file is walked for. -/
inductive Family
  | script
  | php
  deriving Repr, DecidableEq

structure FileLanguage where
  name : String
  grammar : GrammarName
  family : Family

def scriptExtensions : List (String × String) := [
  (".js", "javascript"), (".jsx", "javascript"), (".mjs", "javascript"), (".cjs", "javascript"),
  (".ts", "typescript"), (".tsx", "typescript"), (".mts", "typescript"), (".cts", "typescript")]

/-- The language of an extension in lower case with its dot. -/
def languageOfExtension? (ext : String) : Option FileLanguage :=
  match scriptExtensions.find? (·.1 == ext) with
  | some (_, name) => some ⟨name, .tsx, .script⟩
  | none => if ext == ".php" then some ⟨"php", .php, .php⟩ else none

/-- An extension in lower case and with a dot, unless it is empty. -/
def withDot (ext : String) : String :=
  let ext := Text.lower ext
  if ext.isEmpty || ext.toList.head? == some '.' then ext else "." ++ ext

def unknownLanguage : String := "unknown"

/-- The name of the language of an extension in any spelling. -/
def languageName (ext : String) : String :=
  ((languageOfExtension? (withDot ext)).map (·.name)).getD unknownLanguage

def grammarOf? (ext : String) : Option GrammarName :=
  (languageOfExtension? (withDot ext)).map (·.grammar)

def isSupported (path : String) : Bool := (languageOfExtension? (Path.extension path)).isSome

/-! ## Trees -/

def tsxLanguage : Language := Language.compile Dialect.Tsx.grammar

def phpLanguage : Language := Language.compile Dialect.Php.grammar

/-- The tree of a source text. -/
def treeOf : GrammarName → String → Node
  | .tsx, source => Parsing.parseTree tsxLanguage Dialect.Tsx.scan source
  | .php, source => Parsing.parseTree phpLanguage Dialect.Php.scan source

/-! ## Results -/

def Family.extract (path : String) (s : Source) (o : Options) (root : Node) :
    Family → Except String (List Finding)
  | .script => Script.extract path s o.sourceType root
  | .php => .ok (Php.extract path s root)

/-- What a file declares, given its tree, if the walk through it does not break off. A fault of the tree
comes before any other. -/
def Family.read (f : Family) (path language : String) (s : Source) (o : Options) (root : Node) :
    ParsedFile :=
  match syntaxError? s root with
  | some message => .failed path language message
  | none => match f.extract path s o root with
    | .error message => .failed path language message
    | .ok fs => .ofFindings path language fs

/-- What makes the reading of a file fail. -/
inductive NestingError
  | exceeded
  deriving Repr, DecidableEq

def NestingError.message : NestingError → String
  | exceeded => "maximum recursion depth exceeded"

/-- Whether the walk through the tree of a file breaks off. A tree with a fault is not walked. -/
def Family.breaksOff (path : String) (s : Source) (o : Options) (root : Node) : Family → Bool
  | .script => (syntaxError? s root).isNone && Script.breaksOff path s o.sourceType root
  | .php => false

/-- Reads a file, given its tree. -/
def Family.tryRead (f : Family) (path language : String) (s : Source) (o : Options) (root : Node) :
    Except NestingError ParsedFile :=
  if f.breaksOff path s o root then .error .exceeded else .ok (f.read path language s o root)

/-- The grammar that a family reads a path with. -/
def Family.grammarFor (path : String) : Family → GrammarName
  | .script => (grammarOf? (Path.extension path)).getD .tsx
  | .php => .php

def Family.languageFor (path : String) : Family → String
  | .script => languageName (Path.extension path)
  | .php => "php"

/-- What a source text declares as a member of a family, whatever its extension. -/
def Family.parse (f : Family) (path source : String) (o : Options) : ParsedFile :=
  f.read path (f.languageFor path) (Source.ofString source) o (treeOf (f.grammarFor path) source)

/-- Reads a source text as a member of a family, whatever its extension. -/
def Family.tryParse (f : Family) (path source : String) (o : Options) :
    Except NestingError ParsedFile :=
  f.tryRead path (f.languageFor path) (Source.ofString source) o (treeOf (f.grammarFor path) source)

def unsupported (path : String) : ParsedFile :=
  let bare := Text.dropLeading '.' (Path.extension path)
  let label := if bare.isEmpty then "<none>" else bare
  .failed path unknownLanguage s!"Unsupported file extension: {label}"

/-- What a source text declares by the extension of its path. -/
def parse (path source : String) (o : Options) : ParsedFile :=
  match languageOfExtension? (Path.extension path) with
  | some l => l.family.parse path source o
  | none => unsupported path

/-- Reads a source text by the extension of its path. -/
def tryParse (path source : String) (o : Options) : Except NestingError ParsedFile :=
  match languageOfExtension? (Path.extension path) with
  | some l => l.family.tryParse path source o
  | none => .ok (unsupported path)

end CodeAtlas.Outline
