import CodeEmission.Assembly.Line
import CodeEmission.Assembly.Listing
import CodeEmission.Assembly.Operand
import CodeEmission.CodeUnit.Basic
import CodeEmission.CodeUnit.Decode
import CodeEmission.CodeUnit.Encoding
import CodeEmission.CodeUnit.Verify
import CodeEmission.Command.Config
import CodeEmission.Command.Flag
import CodeEmission.Command.Job
import CodeEmission.Command.Line
import CodeEmission.Command.Program
import CodeEmission.Command.Session
import CodeEmission.Command.Settings
import CodeEmission.Expr
import CodeEmission.Files.Path
import CodeEmission.Files.System
import CodeEmission.Files.Tree
import CodeEmission.Main
import CodeEmission.Object.Assemble
import CodeEmission.Object.Basic
import CodeEmission.Object.Pack
import CodeEmission.Object.Unpack
import CodeEmission.Pipeline.Driver
import CodeEmission.Pipeline.Options
import CodeEmission.Pipeline.Run
import CodeEmission.Platform.Bucket
import CodeEmission.Platform.Pattern
import CodeEmission.Platform.Profile
import CodeEmission.Platform.Registry
import CodeEmission.Platform.Resolver
import CodeEmission.Platform.Triple
import CodeEmission.Progress.Event
import CodeEmission.Progress.View
import CodeEmission.Proofs.Assembly.DataImage
import CodeEmission.Proofs.Assembly.Forms
import CodeEmission.Proofs.Assembly.Legibility
import CodeEmission.Proofs.Assembly.Marks
import CodeEmission.Proofs.Assembly.Names
import CodeEmission.Proofs.Assembly.Notations
import CodeEmission.Proofs.Assembly.Parts
import CodeEmission.Proofs.Assembly.References
import CodeEmission.Proofs.Assembly.Statements
import CodeEmission.Proofs.Assembly.Texts
import CodeEmission.Proofs.CodeUnit.DefinedNames
import CodeEmission.Proofs.CodeUnit.Encodings
import CodeEmission.Proofs.CodeUnit.Fixups
import CodeEmission.Proofs.CodeUnit.Rules
import CodeEmission.Proofs.CodeUnit.Skeleton
import CodeEmission.Proofs.CodeUnit.Soundness
import CodeEmission.Proofs.CodeUnit.WellFormed
import CodeEmission.Proofs.Command.ConfigKeys
import CodeEmission.Proofs.Command.ConfigSearch
import CodeEmission.Proofs.Command.Layers
import CodeEmission.Proofs.Command.Outcomes
import CodeEmission.Proofs.Command.Outputs
import CodeEmission.Proofs.Expr.WrittenValue
import CodeEmission.Proofs.Files.AllOrNothing
import CodeEmission.Proofs.Files.AtomicWrite
import CodeEmission.Proofs.Files.Behaviour
import CodeEmission.Proofs.Files.Path
import CodeEmission.Proofs.Files.Places
import CodeEmission.Proofs.Mangle.Resolution
import CodeEmission.Proofs.Mangle.Separation
import CodeEmission.Proofs.Object.Capacity
import CodeEmission.Proofs.Object.Chunk
import CodeEmission.Proofs.Object.Container
import CodeEmission.Proofs.Object.Fields
import CodeEmission.Proofs.Object.JumpTables
import CodeEmission.Proofs.Object.Layout
import CodeEmission.Proofs.Object.Linked
import CodeEmission.Proofs.Object.Linking
import CodeEmission.Proofs.Object.Placement
import CodeEmission.Proofs.Object.Reader
import CodeEmission.Proofs.Object.RoundTrip
import CodeEmission.Proofs.Object.SplitData
import CodeEmission.Proofs.Object.SymbolTable
import CodeEmission.Proofs.Pipeline.Agreement
import CodeEmission.Proofs.Pipeline.Confinement
import CodeEmission.Proofs.Pipeline.DataAgreement
import CodeEmission.Proofs.Pipeline.Delivery
import CodeEmission.Proofs.Pipeline.Exports
import CodeEmission.Proofs.Pipeline.InternalReferences
import CodeEmission.Proofs.Pipeline.Lifecycle
import CodeEmission.Proofs.Pipeline.Output
import CodeEmission.Proofs.Pipeline.Resumption
import CodeEmission.Proofs.Pipeline.Standard
import CodeEmission.Proofs.Pipeline.TraceLevels
import CodeEmission.Proofs.Pipeline.Verification
import CodeEmission.Proofs.Pipeline.Window
import CodeEmission.Proofs.Platform.CanonicalNames
import CodeEmission.Proofs.Platform.Patterns
import CodeEmission.Proofs.Platform.Registrations
import CodeEmission.Proofs.Platform.Resolution
import CodeEmission.Proofs.Platform.Specificity
import CodeEmission.Proofs.Platform.SystemNames
import CodeEmission.Proofs.Progress.Interleaving
import CodeEmission.Proofs.Stage.Preservation
import CodeEmission.Proofs.Text.ByteOrder
import CodeEmission.Proofs.Text.Composed
import CodeEmission.Proofs.Text.LineFeeds
import CodeEmission.Proofs.Text.Words
import CodeEmission.Proofs.Trace.Nesting
import CodeEmission.Proofs.Trace.Newest
import CodeEmission.Proofs.Trace.Openings
import CodeEmission.Proofs.Trace.Projection
import CodeEmission.Proofs.Trace.Recorded
import CodeEmission.Proofs.Trace.Snapshots
import CodeEmission.Stage.Basic
import CodeEmission.Stage.Layout
import CodeEmission.Stage.Legalize
import CodeEmission.Stage.Mangle
import CodeEmission.Stage.Standard
import CodeEmission.Stage.Unwind
import CodeEmission.Text.Blank
import CodeEmission.Text.Cells
import CodeEmission.Text.Composed
import CodeEmission.Text.Composed.Tables
import CodeEmission.Text.Decimal
import CodeEmission.Text.Duration
import CodeEmission.Text.EditDistance
import CodeEmission.Text.Grapheme
import CodeEmission.Text.Hex
import CodeEmission.Text.Json
import CodeEmission.Text.LowerCase
import CodeEmission.Text.Numeral
import CodeEmission.Text.Printable
import CodeEmission.Text.Quoted
import CodeEmission.Text.RangeTable
import CodeEmission.Text.Terminal
import CodeEmission.Timing
import CodeEmission.Toml.Document
import CodeEmission.Toml.Literal
import CodeEmission.Toml.Number
import CodeEmission.Toml.Quoted
import CodeEmission.Toml.Reader
import CodeEmission.Toml.Shape
import CodeEmission.Trace.Event
import CodeEmission.Trace.Level
import CodeEmission.Trace.Recorder
import CodeEmission.Trace.Ring
import CodeEmission.Trace.Timestamp
import CodeEmission.Version
