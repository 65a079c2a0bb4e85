import Polyglot.Decimal.Double
import Polyglot.Decimal.Integer
import Polyglot.Decimal.Shortest
import Polyglot.Document.Basic
import Polyglot.Document.Layout
import Polyglot.Document.Members
import Polyglot.Fact
import Polyglot.Fault
import Polyglot.File.Go
import Polyglot.File.TypeScript
import Polyglot.Handle
import Polyglot.Imports
import Polyglot.Inspect
import Polyglot.Lowering.Go
import Polyglot.Lowering.Spelling
import Polyglot.Lowering.TypeScript
import Polyglot.Operator
import Polyglot.Options
import Polyglot.Program
import Polyglot.Proofs.Clause
import Polyglot.Proofs.Document.Growth
import Polyglot.Proofs.Document.Printing
import Polyglot.Proofs.Document.Settling
import Polyglot.Proofs.Drawing.Basic
import Polyglot.Proofs.Drawing.Printing
import Polyglot.Proofs.Drawing.Runs
import Polyglot.Proofs.Go.Drawing
import Polyglot.Proofs.Go.Packages
import Polyglot.Proofs.Go.Printer
import Polyglot.Proofs.Go.Rendering
import Polyglot.Proofs.Imports
import Polyglot.Proofs.Line
import Polyglot.Proofs.NormalForm
import Polyglot.Proofs.Printer
import Polyglot.Proofs.Printing
import Polyglot.Proofs.Replay
import Polyglot.Proofs.Script.Basic
import Polyglot.Proofs.Script.Clauses
import Polyglot.Proofs.Script.DepthFirst
import Polyglot.Proofs.Script.Keeping
import Polyglot.Proofs.Script.Meaning
import Polyglot.Proofs.Script.OfOutline
import Polyglot.Proofs.Script.Recording
import Polyglot.Proofs.Step
import Polyglot.Proofs.Transparency
import Polyglot.Proofs.TypeScript.Drawing
import Polyglot.Proofs.TypeScript.Members
import Polyglot.Proofs.TypeScript.Printer
import Polyglot.Proofs.TypeScript.Rendering
import Polyglot.Proofs.TypeScript.Shuffling
import Polyglot.Proofs.Unfolding
import Polyglot.Sink
import Polyglot.SourceFile
import Polyglot.Step
import Polyglot.Storage.FileTree
import Polyglot.Storage.Node
import Polyglot.Storage.Stream
import Polyglot.Suite.Basic
import Polyglot.Suite.Compile
import Polyglot.Tag
import Polyglot.Target.Basic
import Polyglot.Target.Outline
import Polyglot.Target.Recording
import Polyglot.Target.Replay
import Polyglot.TestFile.Basic
import Polyglot.TestFile.Jest
import Polyglot.TestFile.Testify
import Polyglot.Text.Blank
import Polyglot.Text.Letter
import Polyglot.Text.Quoted
import Polyglot.Text.Separated
import Polyglot.Text.Visible
import Polyglot.Ty
import Polyglot.Value
import Polyglot.Wire.Basic
import Polyglot.Wire.Fact
import Polyglot.Wire.Program
import Polyglot.Wire.Value
import Polyglot.Proofs.Suite.Recording
import Polyglot.Proofs.Document.Success
import Polyglot.Proofs.Session
import Polyglot.Proofs.TypeScript.Calls
import Polyglot.Proofs.TestFile.Passages
import Polyglot.Proofs.TestFile.Pages
import Polyglot.Proofs.TestFile.Jest
import Polyglot.Proofs.Rejection
import Polyglot.Proofs.TypeScript.Progress
import Polyglot.Proofs.Agreement
import Polyglot.Proofs.Go.Calls
import Polyglot.Proofs.Go.Heading
import Polyglot.Proofs.TestFile.Testify
import Polyglot.Proofs.Residue
import Polyglot.Proofs.Table
import Polyglot.Proofs.Document.Forest
import Polyglot.Proofs.Document.Views
import Polyglot.Proofs.Document.Tiers
import Polyglot.Proofs.Document.Additions
import Polyglot.Proofs.TypeScript.Additions
import Polyglot.Proofs.TypeScript.Integrity
import Polyglot.Proofs.Go.Additions
import Polyglot.Proofs.Foreign
import Polyglot.Proofs.Nesting
import Polyglot.Proofs.EarlyRendering
import Polyglot.Proofs.Editing
import Polyglot.Proofs.Parts
import Polyglot.Proofs.Suite.Validity
import Polyglot.Proofs.Go.Needs
import Polyglot.Proofs.Go.Receivers
import Polyglot.Proofs.Go.Qualifiers
import Polyglot.Proofs.Go.Literals
import Polyglot.Proofs.TestFile.Usage
import Polyglot.Proofs.Offences
import Polyglot.Proofs.TestFile.Scenarios
import Polyglot.Proofs.Wire.RoundTrip
import Polyglot.Proofs.TestFile.Acceptance
import Polyglot.Proofs.Text.Unquoting
import Polyglot.Proofs.Reading.Pieces
import Polyglot.Proofs.Reading.Values
import Polyglot.Proofs.Reading.Essence
import Polyglot.Proofs.Reading.Recovery
import Polyglot.Proofs.Reading.Unique
import Polyglot.Proofs.TestFile.Context
import Polyglot.Proofs.Document.Splicing
import Polyglot.Proofs.Reading.Elements
import Polyglot.Proofs.Document.Interruption
import Polyglot.Proofs.Text.Delimiting
import Polyglot.Proofs.Reading.Types
import Polyglot.Proofs.Decimal.Rounding
import Polyglot.Proofs.Decimal.Search
import Polyglot.Proofs.Decimal.Numerals
import Polyglot.Proofs.Decimal.Literals
import Polyglot.Proofs.Search
import Polyglot.Proofs.Suite.Cases
import Polyglot.Proofs.Text.Trimming
import Polyglot.Proofs.Entries
import Polyglot.Proofs.Emissions
