import XmlSchema.Batch.FileResult
import XmlSchema.Batch.Program
import XmlSchema.Batch.Results
import XmlSchema.Batch.Run
import XmlSchema.Batch.Text
import XmlSchema.Bisection
import XmlSchema.CommandLine.Reader
import XmlSchema.Component.Basic
import XmlSchema.Component.Grammar
import XmlSchema.Component.Name
import XmlSchema.Component.Symbol
import XmlSchema.ContentModel.Automaton
import XmlSchema.ContentModel.Basic
import XmlSchema.ContentModel.Constraint
import XmlSchema.Datatype.Builtin
import XmlSchema.Datatype.Lexical
import XmlSchema.Datatype.SimpleType
import XmlSchema.Files.Discovery
import XmlSchema.Files.Glob
import XmlSchema.Files.Path
import XmlSchema.Files.Tree
import XmlSchema.Instance.Document
import XmlSchema.Instance.Reference
import XmlSchema.Instance.StartTag
import XmlSchema.Instance.Token
import XmlSchema.Main
import XmlSchema.Number.Binary64
import XmlSchema.Number.Notation
import XmlSchema.Pattern.Facet
import XmlSchema.Pattern.Translation
import XmlSchema.Proofs.Batch.Counts
import XmlSchema.Proofs.Batch.Tasks
import XmlSchema.Proofs.Component.Content
import XmlSchema.Proofs.Component.Derivation
import XmlSchema.Proofs.Component.Imports
import XmlSchema.Proofs.Component.Inside
import XmlSchema.Proofs.Component.Merging
import XmlSchema.Proofs.Component.Pool
import XmlSchema.Proofs.Component.Reference
import XmlSchema.Proofs.Component.Symbol
import XmlSchema.Proofs.Component.Wildcard
import XmlSchema.Proofs.ContentModel.AllGroup
import XmlSchema.Proofs.ContentModel.Ambiguity
import XmlSchema.Proofs.ContentModel.Attribution
import XmlSchema.Proofs.ContentModel.Chart
import XmlSchema.Proofs.ContentModel.Choice
import XmlSchema.Proofs.ContentModel.Clash
import XmlSchema.Proofs.ContentModel.Concatenation
import XmlSchema.Proofs.ContentModel.Emptiness
import XmlSchema.Proofs.ContentModel.Expected
import XmlSchema.Proofs.ContentModel.Graph
import XmlSchema.Proofs.ContentModel.Labels
import XmlSchema.Proofs.ContentModel.Language
import XmlSchema.Proofs.ContentModel.Layout
import XmlSchema.Proofs.ContentModel.Matching
import XmlSchema.Proofs.ContentModel.Occurrence
import XmlSchema.Proofs.ContentModel.Path
import XmlSchema.Proofs.ContentModel.Run
import XmlSchema.Proofs.ContentModel.Size
import XmlSchema.Proofs.ContentModel.States
import XmlSchema.Proofs.Datatype.Base64
import XmlSchema.Proofs.Datatype.Calendar
import XmlSchema.Proofs.Datatype.DateLiterals
import XmlSchema.Proofs.Datatype.DateOrder
import XmlSchema.Proofs.Datatype.DecimalLiterals
import XmlSchema.Proofs.Datatype.DigitFacets
import XmlSchema.Proofs.Datatype.Digits
import XmlSchema.Proofs.Datatype.Enumeration
import XmlSchema.Proofs.Datatype.Names
import XmlSchema.Proofs.Datatype.Numeral
import XmlSchema.Proofs.Datatype.Restriction
import XmlSchema.Proofs.Datatype.WhiteSpace
import XmlSchema.Proofs.Instance.AttributeNames
import XmlSchema.Proofs.Instance.Attributes
import XmlSchema.Proofs.Instance.Delivery
import XmlSchema.Proofs.Instance.Legality
import XmlSchema.Proofs.Instance.LineEnds
import XmlSchema.Proofs.Instance.Lines
import XmlSchema.Proofs.Instance.Locality
import XmlSchema.Proofs.Instance.Prolog
import XmlSchema.Proofs.Instance.Writing
import XmlSchema.Proofs.Pattern.Anchoring
import XmlSchema.Proofs.Pattern.ClassExpr
import XmlSchema.Proofs.Pattern.ClassReading
import XmlSchema.Proofs.Pattern.SetReading
import XmlSchema.Proofs.Provider.HintValues
import XmlSchema.Proofs.Provider.Hints
import XmlSchema.Proofs.Provider.Identity
import XmlSchema.Proofs.Provider.RootTag
import XmlSchema.Proofs.Regex.Extension
import XmlSchema.Proofs.Regex.Language
import XmlSchema.Proofs.Regex.Parsing
import XmlSchema.Proofs.Regex.Parts
import XmlSchema.Proofs.Regex.Plain
import XmlSchema.Proofs.Report.LineFeeds
import XmlSchema.Proofs.Report.Xml
import XmlSchema.Proofs.Schema.Acyclic
import XmlSchema.Proofs.Schema.Adopted
import XmlSchema.Proofs.Schema.AnyType
import XmlSchema.Proofs.Schema.Attempt
import XmlSchema.Proofs.Schema.AttributeUses
import XmlSchema.Proofs.Schema.Closed
import XmlSchema.Proofs.Schema.ClosedUnit
import XmlSchema.Proofs.Schema.Confluence
import XmlSchema.Proofs.Schema.Coverage
import XmlSchema.Proofs.Schema.Depth
import XmlSchema.Proofs.Schema.Earlier
import XmlSchema.Proofs.Schema.ExtendedContent
import XmlSchema.Proofs.Schema.Extension
import XmlSchema.Proofs.Schema.Follow
import XmlSchema.Proofs.Schema.Growth
import XmlSchema.Proofs.Schema.Inclusion
import XmlSchema.Proofs.Schema.Inside
import XmlSchema.Proofs.Schema.Lenient
import XmlSchema.Proofs.Schema.Location
import XmlSchema.Proofs.Schema.Makeup
import XmlSchema.Proofs.Schema.Memory
import XmlSchema.Proofs.Schema.Nesting
import XmlSchema.Proofs.Schema.Order
import XmlSchema.Proofs.Schema.Passes
import XmlSchema.Proofs.Schema.Plain
import XmlSchema.Proofs.Schema.Program
import XmlSchema.Proofs.Schema.Refusal
import XmlSchema.Proofs.Schema.Rendering
import XmlSchema.Proofs.Schema.Sealed
import XmlSchema.Proofs.Schema.Slot
import XmlSchema.Proofs.Schema.Together
import XmlSchema.Proofs.Schema.Trace
import XmlSchema.Proofs.Schema.Uniform
import XmlSchema.Proofs.Schema.UnitOrder
import XmlSchema.Proofs.Schema.ValidNamespaces
import XmlSchema.Proofs.Schema.Yield
import XmlSchema.Proofs.Structure.RootPath
import XmlSchema.Proofs.Text.Decoding
import XmlSchema.Proofs.Text.LineEnds
import XmlSchema.Proofs.Text.Pieces
import XmlSchema.Proofs.Unicode.Categories
import XmlSchema.Proofs.Validation.Caching
import XmlSchema.Proofs.Validation.Cause
import XmlSchema.Proofs.Validation.Chunks
import XmlSchema.Proofs.Validation.ClosedPool
import XmlSchema.Proofs.Validation.Correspondence
import XmlSchema.Proofs.Validation.FixedValues
import XmlSchema.Proofs.Validation.Judgement
import XmlSchema.Proofs.Validation.LineEnds
import XmlSchema.Proofs.Validation.NamespaceWarnings
import XmlSchema.Proofs.Validation.OpenElement
import XmlSchema.Proofs.Validation.Options
import XmlSchema.Proofs.Validation.ReadBack
import XmlSchema.Proofs.Validation.RootElements
import XmlSchema.Proofs.Validation.Skipped
import XmlSchema.Proofs.Validation.Stacks
import XmlSchema.Proofs.Validation.Streaming
import XmlSchema.Proofs.Validation.Verdict
import XmlSchema.Provider.Basic
import XmlSchema.Provider.Hint
import XmlSchema.Regex.Basic
import XmlSchema.Regex.Syntax
import XmlSchema.Report.Basic
import XmlSchema.Report.Verbosity
import XmlSchema.Schema.Compilation
import XmlSchema.Schema.Compiler
import XmlSchema.Schema.Definition
import XmlSchema.Schema.Document
import XmlSchema.Schema.Error
import XmlSchema.Schema.Resolution
import XmlSchema.Settings.Basic
import XmlSchema.Settings.Environment
import XmlSchema.Settings.Failure
import XmlSchema.Settings.FailureText
import XmlSchema.Settings.Loading
import XmlSchema.Settings.Reading
import XmlSchema.Structure.Monitor
import XmlSchema.Text.Basic
import XmlSchema.Text.Json
import XmlSchema.Text.Json.Reader
import XmlSchema.Text.Utf8
import XmlSchema.Toml.Basic
import XmlSchema.Toml.Reader
import XmlSchema.Unicode.BinaryTable
import XmlSchema.Unicode.Category
import XmlSchema.Unicode.CategoryTable
import XmlSchema.Unicode.FoldingTable
import XmlSchema.Unicode.Lowercase
import XmlSchema.Unicode.Property
import XmlSchema.Unicode.ScriptTable
import XmlSchema.Validation.Cache
import XmlSchema.Validation.Failure
import XmlSchema.Validation.FailureText
import XmlSchema.Validation.Frame
import XmlSchema.Validation.Outcome
import XmlSchema.Validation.Session
import XmlSchema.Validation.Validator
import XmlSchema.Validation.Violation
import XmlSchema.Xml.Name
import XmlSchema.Xml.Reader
