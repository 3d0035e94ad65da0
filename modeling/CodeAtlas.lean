import CodeAtlas.Dialect.Php
import CodeAtlas.Dialect.Php.Expressions
import CodeAtlas.Dialect.Php.Scanner
import CodeAtlas.Dialect.Php.Statements
import CodeAtlas.Dialect.Tsx
import CodeAtlas.Dialect.Tsx.Expressions
import CodeAtlas.Dialect.Tsx.Lexemes
import CodeAtlas.Dialect.Tsx.Members
import CodeAtlas.Dialect.Tsx.Scanner
import CodeAtlas.Dialect.Tsx.Statements
import CodeAtlas.Dialect.Tsx.Types
import CodeAtlas.Disk.Basic
import CodeAtlas.Disk.Edit
import CodeAtlas.Disk.Entry
import CodeAtlas.Disk.Link
import CodeAtlas.Grammar.CharSet
import CodeAtlas.Grammar.Language
import CodeAtlas.Grammar.Pattern
import CodeAtlas.Grammar.Production
import CodeAtlas.Grammar.Rule
import CodeAtlas.Grammar.TokenSet
import CodeAtlas.Graph.Dependency
import CodeAtlas.Graph.Network
import CodeAtlas.Json.Print
import CodeAtlas.Json.Read
import CodeAtlas.Json.Records
import CodeAtlas.Json.Texts
import CodeAtlas.Json.Value
import CodeAtlas.Keyed
import CodeAtlas.Number.Rounding
import CodeAtlas.Outline.Parse
import CodeAtlas.Outline.Php
import CodeAtlas.Outline.Record
import CodeAtlas.Outline.Script
import CodeAtlas.Outline.Sighting
import CodeAtlas.Parsing.Automaton
import CodeAtlas.Parsing.Lexer
import CodeAtlas.Parsing.Machine
import CodeAtlas.Parsing.Parser
import CodeAtlas.Parsing.Recovery
import CodeAtlas.Parsing.Scanner
import CodeAtlas.Parsing.Shown
import CodeAtlas.Parsing.Stack
import CodeAtlas.Parsing.Subtree
import CodeAtlas.Parsing.Text
import CodeAtlas.Path.Extension
import CodeAtlas.Path.Normal
import CodeAtlas.Path.Pattern
import CodeAtlas.Path.Segment
import CodeAtlas.Project.Ingestion
import CodeAtlas.Proofs.Attempts
import CodeAtlas.Proofs.Disk.Follow
import CodeAtlas.Proofs.Disk.Legal
import CodeAtlas.Proofs.Disk.OneFile
import CodeAtlas.Proofs.Graph.Attributes
import CodeAtlas.Proofs.Graph.Collected
import CodeAtlas.Proofs.Graph.Network
import CodeAtlas.Proofs.Keyed
import CodeAtlas.Proofs.Outline.Declaration
import CodeAtlas.Proofs.Outline.Language
import CodeAtlas.Proofs.Outline.Nesting
import CodeAtlas.Proofs.Outline.Php.Owners
import CodeAtlas.Proofs.Outline.Php.Uses
import CodeAtlas.Proofs.Outline.Places
import CodeAtlas.Proofs.Outline.Recorded
import CodeAtlas.Proofs.Outline.Refusal
import CodeAtlas.Proofs.Outline.Script.Bindings
import CodeAtlas.Proofs.Outline.Script.Declarations
import CodeAtlas.Proofs.Outline.Script.Entities
import CodeAtlas.Proofs.Outline.Script.Exports
import CodeAtlas.Proofs.Outline.Script.Flags
import CodeAtlas.Proofs.Outline.Script.Literals
import CodeAtlas.Proofs.Outline.Script.Refusal
import CodeAtlas.Proofs.Outline.Script.Reported
import CodeAtlas.Proofs.Outline.Spans
import CodeAtlas.Proofs.Outline.Starts
import CodeAtlas.Proofs.Path.Cancelling
import CodeAtlas.Proofs.Path.Canonical
import CodeAtlas.Proofs.Path.Relative
import CodeAtlas.Proofs.Path.Segments
import CodeAtlas.Proofs.Path.Suffix
import CodeAtlas.Proofs.Project.Completion
import CodeAtlas.Proofs.Project.Content
import CodeAtlas.Proofs.Project.Contents
import CodeAtlas.Proofs.Project.Dependencies
import CodeAtlas.Proofs.Project.Exact
import CodeAtlas.Proofs.Project.FileTypes
import CodeAtlas.Proofs.Project.First
import CodeAtlas.Proofs.Project.Incremental
import CodeAtlas.Proofs.Project.Indexing
import CodeAtlas.Proofs.Project.Isolation
import CodeAtlas.Proofs.Project.Loops
import CodeAtlas.Proofs.Project.Mirror
import CodeAtlas.Proofs.Project.Numbers
import CodeAtlas.Proofs.Project.OneFile
import CodeAtlas.Proofs.Project.Outcome
import CodeAtlas.Proofs.Project.Pass
import CodeAtlas.Proofs.Project.Reached
import CodeAtlas.Proofs.Project.Repeat
import CodeAtlas.Proofs.Project.Requests
import CodeAtlas.Proofs.Project.Stages
import CodeAtlas.Proofs.Project.Times
import CodeAtlas.Proofs.Project.Unread
import CodeAtlas.Proofs.Scan.Exclusion
import CodeAtlas.Proofs.Scan.Found
import CodeAtlas.Proofs.Scan.Listing
import CodeAtlas.Proofs.Scan.Marks
import CodeAtlas.Proofs.Scan.OneFile
import CodeAtlas.Proofs.Scan.Patch
import CodeAtlas.Proofs.Scan.Reported
import CodeAtlas.Proofs.Scan.Spelling
import CodeAtlas.Proofs.Scan.Visits
import CodeAtlas.Proofs.Store.Bare
import CodeAtlas.Proofs.Store.Drafts
import CodeAtlas.Proofs.Store.Ends
import CodeAtlas.Proofs.Store.Operations
import CodeAtlas.Proofs.Store.Ownership
import CodeAtlas.Proofs.Store.Records
import CodeAtlas.Proofs.Store.Registered
import CodeAtlas.Proofs.Store.Rows
import CodeAtlas.Proofs.Store.Shelves
import CodeAtlas.Proofs.Store.Yields
import CodeAtlas.Proofs.Text.LastMark
import CodeAtlas.Proofs.Text.Quoted
import CodeAtlas.Proofs.Text.Utf8
import CodeAtlas.Proofs.Time.Civil
import CodeAtlas.Proofs.Time.Dates
import CodeAtlas.Proofs.Tree.Columns
import CodeAtlas.Proofs.Tree.Fault
import CodeAtlas.Proofs.Tree.Message
import CodeAtlas.Proofs.Tree.Nodes
import CodeAtlas.Proofs.Tree.Ranges
import CodeAtlas.Proofs.Tree.Tour
import CodeAtlas.Scan.Change
import CodeAtlas.Scan.Metadata
import CodeAtlas.Scan.Scanner
import CodeAtlas.Service.Address
import CodeAtlas.Service.Payload
import CodeAtlas.Service.Problem
import CodeAtlas.Service.Respond
import CodeAtlas.Settings.Assignment
import CodeAtlas.Settings.Service
import CodeAtlas.Store.Cell
import CodeAtlas.Store.Database
import CodeAtlas.Store.Draft
import CodeAtlas.Store.Error
import CodeAtlas.Store.Process
import CodeAtlas.Store.Registry
import CodeAtlas.Store.Table
import CodeAtlas.Text.Blank
import CodeAtlas.Text.Case
import CodeAtlas.Text.Integer
import CodeAtlas.Text.Printable
import CodeAtlas.Text.Quoted
import CodeAtlas.Text.Utf8
import CodeAtlas.Time.Calendar
import CodeAtlas.Time.FileClock
import CodeAtlas.Time.Moment
import CodeAtlas.Tree.Fault
import CodeAtlas.Tree.Node
import CodeAtlas.Tree.Source
import CodeAtlas.Tree.Walk
