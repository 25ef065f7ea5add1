import TypedLinks.CommandLine.Manual
import TypedLinks.CommandLine.Options
import TypedLinks.CommandLine.Run
import TypedLinks.CommandLine.Word
import TypedLinks.Diagnostic.Problem
import TypedLinks.Diagnostic.Render
import TypedLinks.Diagnostic.Report
import TypedLinks.Diagnostic.Style
import TypedLinks.Disk
import TypedLinks.Disk.Canonical
import TypedLinks.Disk.Fault
import TypedLinks.Disk.FileSystem
import TypedLinks.Disk.Name
import TypedLinks.Forwarding.Declaration
import TypedLinks.Forwarding.Forward
import TypedLinks.Forwarding.Scope
import TypedLinks.Grammar.Ebnf
import TypedLinks.Journal
import TypedLinks.Json.Reader
import TypedLinks.Json.Value
import TypedLinks.Link.Outcome
import TypedLinks.Link.Process
import TypedLinks.Link.Require
import TypedLinks.Link.Shape
import TypedLinks.Link.Update
import TypedLinks.Luau.Automaton.Categories
import TypedLinks.Luau.Automaton.State
import TypedLinks.Luau.Automaton.Tokens
import TypedLinks.Luau.Construction
import TypedLinks.Luau.Grammar
import TypedLinks.Luau.Lexeme
import TypedLinks.Luau.Machine
import TypedLinks.Luau.Parse
import TypedLinks.Luau.Position
import TypedLinks.Luau.StringLiteral
import TypedLinks.Luau.Syntax
import TypedLinks.Luau.Terminal
import TypedLinks.Luau.Token
import TypedLinks.Luau.Tree
import TypedLinks.Main
import TypedLinks.Packages.Batch
import TypedLinks.Packages.Discover
import TypedLinks.Path
import TypedLinks.Proofs.Diagnostic.Carets
import TypedLinks.Proofs.Diagnostic.Color
import TypedLinks.Proofs.Diagnostic.Location
import TypedLinks.Proofs.Disk.Shape
import TypedLinks.Proofs.Disk.Spelled
import TypedLinks.Proofs.Disk.Usable
import TypedLinks.Proofs.Forwarding.Arguments
import TypedLinks.Proofs.Forwarding.Carried
import TypedLinks.Proofs.Forwarding.Extended
import TypedLinks.Proofs.Forwarding.Forwarded
import TypedLinks.Proofs.Forwarding.FreeNames
import TypedLinks.Proofs.Forwarding.Mentions
import TypedLinks.Proofs.Forwarding.Parameters
import TypedLinks.Proofs.Forwarding.Placed
import TypedLinks.Proofs.Forwarding.Rendered
import TypedLinks.Proofs.Forwarding.Settled
import TypedLinks.Proofs.Forwarding.Uncommented
import TypedLinks.Proofs.Forwarding.Visibility
import TypedLinks.Proofs.Json.Reading
import TypedLinks.Proofs.Lexing.Blanks
import TypedLinks.Proofs.Lexing.Closing
import TypedLinks.Proofs.Lexing.Escapes
import TypedLinks.Proofs.Lexing.Flat
import TypedLinks.Proofs.Lexing.Ignored
import TypedLinks.Proofs.Lexing.Languages
import TypedLinks.Proofs.Lexing.Literals
import TypedLinks.Proofs.Lexing.Locality
import TypedLinks.Proofs.Lexing.Scanning
import TypedLinks.Proofs.Lexing.Trivia
import TypedLinks.Proofs.Lexing.Written
import TypedLinks.Proofs.Link.Decoding
import TypedLinks.Proofs.Link.Effect
import TypedLinks.Proofs.Link.FixedPoint
import TypedLinks.Proofs.Link.Forms
import TypedLinks.Proofs.Link.LineEnds
import TypedLinks.Proofs.Link.Located
import TypedLinks.Proofs.Link.Plan
import TypedLinks.Proofs.Link.RequirePath
import TypedLinks.Proofs.Link.Source
import TypedLinks.Proofs.Link.StaticPath
import TypedLinks.Proofs.Link.Stops
import TypedLinks.Proofs.Link.Written
import TypedLinks.Proofs.Packages.Completeness
import TypedLinks.Proofs.Packages.Convergence
import TypedLinks.Proofs.Packages.Discovery
import TypedLinks.Proofs.Packages.Exports
import TypedLinks.Proofs.Packages.Failures
import TypedLinks.Proofs.Packages.Frame
import TypedLinks.Proofs.Packages.Independence
import TypedLinks.Proofs.Packages.Listing
import TypedLinks.Proofs.Packages.Report
import TypedLinks.Proofs.Packages.Runs
import TypedLinks.Proofs.Parsing.Carry
import TypedLinks.Proofs.Parsing.Derivation
import TypedLinks.Proofs.Parsing.Execution
import TypedLinks.Proofs.Parsing.Extent
import TypedLinks.Proofs.Parsing.Faults
import TypedLinks.Proofs.Parsing.Lists
import TypedLinks.Proofs.Parsing.Progress
import TypedLinks.Proofs.Parsing.Reading
import TypedLinks.Proofs.Parsing.Sentences
import TypedLinks.Proofs.Parsing.Shifts
import TypedLinks.Proofs.Parsing.Table
import TypedLinks.Proofs.Parsing.Tokens
import TypedLinks.Proofs.Parsing.Uncommented
import TypedLinks.Proofs.Parsing.Unterminated
import TypedLinks.Proofs.Parsing.Viable
import TypedLinks.Proofs.Parsing.Walk
import TypedLinks.Proofs.Parsing.Words
import TypedLinks.Proofs.Sourcemap.Ancestors
import TypedLinks.Proofs.Sourcemap.Canonical
import TypedLinks.Proofs.Sourcemap.Loading
import TypedLinks.Proofs.Sourcemap.Owner
import TypedLinks.Proofs.Sourcemap.Paths
import TypedLinks.Proofs.Sourcemap.Reported
import TypedLinks.Proofs.Sourcemap.Schema
import TypedLinks.Proofs.Sourcemap.Search
import TypedLinks.Proofs.Sourcemap.Settled
import TypedLinks.Proofs.Sourcemap.Walks
import TypedLinks.Proofs.Syntax.Blocks
import TypedLinks.Proofs.Syntax.Building
import TypedLinks.Proofs.Syntax.Calls
import TypedLinks.Proofs.Syntax.Chunk
import TypedLinks.Proofs.Syntax.Declarations
import TypedLinks.Proofs.Syntax.Endings
import TypedLinks.Proofs.Syntax.Equality
import TypedLinks.Proofs.Syntax.Members
import TypedLinks.Proofs.Syntax.Nodes
import TypedLinks.Proofs.Syntax.Positions
import TypedLinks.Proofs.Syntax.Problems
import TypedLinks.Proofs.Syntax.Rebuilt
import TypedLinks.Proofs.Syntax.Shape
import TypedLinks.Proofs.Syntax.Signatures
import TypedLinks.Proofs.Syntax.Spans
import TypedLinks.Proofs.Syntax.Surroundings
import TypedLinks.Proofs.Syntax.Unplaced
import TypedLinks.Proofs.Text.Encoding
import TypedLinks.Proofs.World.Execution
import TypedLinks.Sourcemap.Load
import TypedLinks.Sourcemap.Node
import TypedLinks.Sourcemap.Reader
import TypedLinks.Sourcemap.Resolution
import TypedLinks.Sourcemap.Search
import TypedLinks.Stop
import TypedLinks.Text.Basic
import TypedLinks.Text.Blank
import TypedLinks.Text.Digit
import TypedLinks.Text.Lines
import TypedLinks.Text.Printable
import TypedLinks.Text.Quoted
import TypedLinks.Text.Utf8
import TypedLinks.World
