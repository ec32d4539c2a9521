import Stencil.Body.Edit
import Stencil.Body.Frame
import Stencil.Body.Render
import Stencil.Body.Source
import Stencil.Catalog
import Stencil.Catalog.Load
import Stencil.CommandLine
import Stencil.CommandLine.Arguments
import Stencil.CommandLine.Report
import Stencil.Datum
import Stencil.Decimal.Binary64
import Stencil.Decimal.Positional
import Stencil.Decimal.Shortest
import Stencil.Dictionary
import Stencil.DiskFault
import Stencil.Draft
import Stencil.Event
import Stencil.Event.Header
import Stencil.Event.Reader
import Stencil.Fault
import Stencil.FileTree
import Stencil.Item
import Stencil.Json.Document
import Stencil.Json.Numeral
import Stencil.Json.Symbol
import Stencil.Main
import Stencil.Node
import Stencil.Path
import Stencil.Proofs.Body.Grows
import Stencil.Proofs.Body.InPlace
import Stencil.Proofs.Body.Join
import Stencil.Proofs.Body.Merge
import Stencil.Proofs.Body.OpenPath
import Stencil.Proofs.Body.Outline
import Stencil.Proofs.Body.Print
import Stencil.Proofs.Body.Unused
import Stencil.Proofs.Body.Visit
import Stencil.Proofs.Body.WellFormed
import Stencil.Proofs.Brace
import Stencil.Proofs.Catalog.Configuration
import Stencil.Proofs.Catalog.Directory
import Stencil.Proofs.Catalog.Faults
import Stencil.Proofs.Catalog.FileNames
import Stencil.Proofs.Catalog.Identity
import Stencil.Proofs.Catalog.Loading
import Stencil.Proofs.Catalog.Names
import Stencil.Proofs.Catalog.Operation
import Stencil.Proofs.Catalog.Reloading
import Stencil.Proofs.Catalog.Rendering
import Stencil.Proofs.Catalog.Sources
import Stencil.Proofs.Catalog.Steps
import Stencil.Proofs.Catalog.Yield
import Stencil.Proofs.CommandLine
import Stencil.Proofs.Concatenation
import Stencil.Proofs.Datum.Entries
import Stencil.Proofs.Datum.Filling
import Stencil.Proofs.Datum.Offences
import Stencil.Proofs.Datum.Ordered
import Stencil.Proofs.Datum.Rearrangement
import Stencil.Proofs.Dictionary
import Stencil.Proofs.Draft
import Stencil.Proofs.Fallible
import Stencil.Proofs.FileTree.Walk
import Stencil.Proofs.FreeName
import Stencil.Proofs.Gap
import Stencil.Proofs.Grammar
import Stencil.Proofs.Grammar.Completion
import Stencil.Proofs.Grammar.Header
import Stencil.Proofs.Grammar.Seam
import Stencil.Proofs.Growth
import Stencil.Proofs.Layout
import Stencil.Proofs.OpenStack
import Stencil.Proofs.OpenStack.Outcome
import Stencil.Proofs.Path.Below
import Stencil.Proofs.Path.Join
import Stencil.Proofs.Path.Pattern
import Stencil.Proofs.Path.TemplateName
import Stencil.Proofs.Phase
import Stencil.Proofs.Progress
import Stencil.Proofs.Progress.Events
import Stencil.Proofs.Progress.Failure
import Stencil.Proofs.Progress.Finality
import Stencil.Proofs.Reader
import Stencil.Proofs.Scope.Flat
import Stencil.Proofs.Scope.Irrelevance
import Stencil.Proofs.Scope.LoopName
import Stencil.Proofs.Scope.Path
import Stencil.Proofs.Scope.Renaming
import Stencil.Proofs.Segment.Canonical
import Stencil.Proofs.Segment.Escape
import Stencil.Proofs.Segment.Search
import Stencil.Proofs.Text.ByteOrder
import Stencil.Proofs.Text.Mark
import Stencil.Proofs.Text.Split
import Stencil.Proofs.Token.Name
import Stencil.Proofs.Token.Spacing
import Stencil.Scope
import Stencil.Segment
import Stencil.Settings
import Stencil.Template
import Stencil.Text.Brace
import Stencil.Text.CharClass
import Stencil.Text.Cut
import Stencil.Text.Digest
import Stencil.Text.Hidden
import Stencil.Text.Quoted
import Stencil.Text.Split
import Stencil.Text.Trim
import Stencil.Token
import Stencil.Value
