import CodeScribe.Main
import CodeScribe.Page.Whole
import CodeScribe.Proofs.Table
import CodeScribe.Proofs.Text.Basic
import CodeScribe.Proofs.Text.Pattern
import CodeScribe.Proofs.Text.FirstWay
import CodeScribe.Proofs.Text.Words
import CodeScribe.Proofs.Text.Case
import CodeScribe.Proofs.Path
import CodeScribe.Proofs.Source.Names
import CodeScribe.Proofs.Source.Settings
import CodeScribe.Proofs.Source.Blocks
import CodeScribe.Proofs.Source.ClassBlocks
import CodeScribe.Proofs.Source.EnumConstants
import CodeScribe.Proofs.Source.EnumMembers
import CodeScribe.Proofs.Source.FunctionHeads
import CodeScribe.Proofs.Source.FunctionPlaces
import CodeScribe.Proofs.Dependency.WellFormed
import CodeScribe.Proofs.Dependency.Counts
import CodeScribe.Proofs.Dependency.Search
import CodeScribe.Proofs.Dependency.Cycles
import CodeScribe.Proofs.Dependency.Identifiers
import CodeScribe.Proofs.Dependency.Index
import CodeScribe.Proofs.Dependency.Resolve
import CodeScribe.Proofs.Dependency.Imports
import CodeScribe.Proofs.Dependency.Edges
import CodeScribe.Proofs.Dependency.Qualified
import CodeScribe.Proofs.Dependency.Order
import CodeScribe.Proofs.Dependency.Lookup
import CodeScribe.Proofs.Catalog.Names
import CodeScribe.Proofs.Catalog.Sentences
import CodeScribe.Proofs.Catalog.Flows
import CodeScribe.Proofs.Catalog.Bodies
import CodeScribe.Proofs.Catalog.Marks
import CodeScribe.Proofs.Catalog.Database
import CodeScribe.Proofs.Catalog.Components
import CodeScribe.Proofs.Document.Related
import CodeScribe.Proofs.Document.Isolation
import CodeScribe.Proofs.Workspace.Growth
import CodeScribe.Proofs.Scribe.Uses
import CodeScribe.Proofs.Scribe.Creation
import CodeScribe.Proofs.Scribe.History
import CodeScribe.Proofs.Dependency.Drawings
import CodeScribe.Proofs.Frame
import CodeScribe.Proofs.Workspace.Frames
import CodeScribe.Proofs.Page.Frames
import CodeScribe.Proofs.Page.Environment
import CodeScribe.Proofs.Workspace.Places
import CodeScribe.Proofs.Workspace.Fetching
import CodeScribe.Proofs.Workspace.Checkout
import CodeScribe.Proofs.Workspace.Clones
import CodeScribe.Proofs.Workspace.Addresses
import CodeScribe.Proofs.Workspace.Exclusion
import CodeScribe.Proofs.Document.Chunks
import CodeScribe.Proofs.Table.Absorb
import CodeScribe.Proofs.Document.MergeRules
import CodeScribe.Proofs.Document.Merging
import CodeScribe.Proofs.Document.Passings
import CodeScribe.Proofs.Document.Members
import CodeScribe.Proofs.Document.Sections
import CodeScribe.Proofs.Scribe.Streaming
import CodeScribe.Proofs.Dependency.Excerpts
import CodeScribe.Proofs.Catalog.Comments
import CodeScribe.Proofs.Dependency.Unread
import CodeScribe.Proofs.Dependency.Coupling
import CodeScribe.Proofs.Diagram.Labels
import CodeScribe.Proofs.Diagram.MessageLines
import CodeScribe.Proofs.Diagram.CallGraphs
import CodeScribe.Proofs.Text.Stretches
import CodeScribe.Proofs.Text.Replacing
import CodeScribe.Proofs.Text.Search
import CodeScribe.Proofs.Text.Substitution
import CodeScribe.Proofs.Diagram.Replies
import CodeScribe.Proofs.Diagram.ArrowTexts
import CodeScribe.Proofs.Document.Synthesis
import CodeScribe.Proofs.Document.Counting
import CodeScribe.Proofs.Page.Progress
import CodeScribe.Proofs.Pdf.CodeText
