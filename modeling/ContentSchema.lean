import ContentSchema.Address.Email
import ContentSchema.Address.HostNumber
import ContentSchema.Address.Url
import ContentSchema.Calendar.Clock
import ContentSchema.Calendar.Date
import ContentSchema.Calendar.IsoReading
import ContentSchema.Calendar.IsoText
import ContentSchema.Collection.Descriptor
import ContentSchema.Collection.Registry
import ContentSchema.Collection.Selector
import ContentSchema.Collection.Site
import ContentSchema.Collection.Source
import ContentSchema.Command.Invocation
import ContentSchema.Command.Options
import ContentSchema.Command.ReportText
import ContentSchema.Command.Run
import ContentSchema.Constraint.Basic
import ContentSchema.Constraint.Matching
import ContentSchema.Content.Document
import ContentSchema.Content.Frontmatter
import ContentSchema.Content.Glob
import ContentSchema.Content.Loader
import ContentSchema.Content.Location
import ContentSchema.Content.NamePattern
import ContentSchema.Content.Tree
import ContentSchema.Entries
import ContentSchema.Fault
import ContentSchema.Log.Event
import ContentSchema.Log.Journal
import ContentSchema.Log.Problem
import ContentSchema.Log.Record
import ContentSchema.Log.Writing
import ContentSchema.Main
import ContentSchema.Number.Binary64
import ContentSchema.Number.Decimal
import ContentSchema.Number.Power
import ContentSchema.Pattern.Basic
import ContentSchema.Pattern.Matching
import ContentSchema.Pattern.Reading
import ContentSchema.Pattern.Width
import ContentSchema.Proofs.Answer
import ContentSchema.Proofs.Calendar.DayText
import ContentSchema.Proofs.Calendar.RoundTrip
import ContentSchema.Proofs.Calendar.Tails
import ContentSchema.Proofs.Calendar.UniversalTime
import ContentSchema.Proofs.Collection.Expansion
import ContentSchema.Proofs.Collection.Flattening
import ContentSchema.Proofs.Collection.Pages
import ContentSchema.Proofs.Collection.Precedence
import ContentSchema.Proofs.Collection.Registration
import ContentSchema.Proofs.Collection.Stability
import ContentSchema.Proofs.Collection.Totality
import ContentSchema.Proofs.Command.Verdict
import ContentSchema.Proofs.Content.Accounting
import ContentSchema.Proofs.Content.Agreement
import ContentSchema.Proofs.Content.Chronicle
import ContentSchema.Proofs.Content.Discovery
import ContentSchema.Proofs.Content.Frontmatter
import ContentSchema.Proofs.Content.Halting
import ContentSchema.Proofs.Content.Harvest
import ContentSchema.Proofs.Content.Order
import ContentSchema.Proofs.Content.Removal
import ContentSchema.Proofs.Content.Resilience
import ContentSchema.Proofs.Entries
import ContentSchema.Proofs.Journal
import ContentSchema.Proofs.JsonSchema.Acceptance
import ContentSchema.Proofs.JsonSchema.Annotations
import ContentSchema.Proofs.JsonSchema.Bounds
import ContentSchema.Proofs.JsonSchema.Fallbacks
import ContentSchema.Proofs.JsonSchema.Meaning
import ContentSchema.Proofs.JsonSchema.Rendering
import ContentSchema.Proofs.JsonSchema.Survival
import ContentSchema.Proofs.JsonSchema.Writing
import ContentSchema.Proofs.Log.Writing
import ContentSchema.Proofs.Merging
import ContentSchema.Proofs.Sameness
import ContentSchema.Proofs.Schema.Assembly
import ContentSchema.Proofs.Schema.Consistency
import ContentSchema.Proofs.Schema.Construction
import ContentSchema.Proofs.Schema.Defaults
import ContentSchema.Proofs.Schema.Defects
import ContentSchema.Proofs.Schema.Equality
import ContentSchema.Proofs.Schema.Extension
import ContentSchema.Proofs.Schema.Metadata
import ContentSchema.Proofs.Schema.MetadataMerging
import ContentSchema.Proofs.Schema.Record
import ContentSchema.Proofs.Schema.Shape
import ContentSchema.Proofs.Schema.Tree
import ContentSchema.Proofs.Text.Lines
import ContentSchema.Proofs.Validation.BuiltIns
import ContentSchema.Proofs.Validation.Embedding
import ContentSchema.Proofs.Validation.Examination
import ContentSchema.Proofs.Validation.FixedPoints
import ContentSchema.Proofs.Validation.Mirrors
import ContentSchema.Proofs.Validation.Omission
import ContentSchema.Proofs.Validation.Parts
import ContentSchema.Proofs.Validation.PathIdentity
import ContentSchema.Proofs.Validation.Places
import ContentSchema.Proofs.Validation.Projection
import ContentSchema.Proofs.Validation.Refusals
import ContentSchema.Proofs.Validation.ReportAlgebra
import ContentSchema.Proofs.Validation.Reports
import ContentSchema.Proofs.Validation.Soundness
import ContentSchema.Proofs.Validation.Testing
import ContentSchema.Proofs.Validation.Violations
import ContentSchema.Proofs.Value
import ContentSchema.Proofs.Value.Freezing
import ContentSchema.Schema.Basic
import ContentSchema.Schema.Builders
import ContentSchema.Schema.Combinators
import ContentSchema.Schema.Consistency
import ContentSchema.Schema.Equality
import ContentSchema.Schema.Fields
import ContentSchema.Schema.Fragments
import ContentSchema.Schema.JsonSchema
import ContentSchema.Text.Base64
import ContentSchema.Text.Blank
import ContentSchema.Text.LetterCase
import ContentSchema.Text.Lines
import ContentSchema.Text.Numeral
import ContentSchema.Text.Printable
import ContentSchema.Text.Quoted
import ContentSchema.Text.Ranges
import ContentSchema.Text.Word
import ContentSchema.Validation.FieldError
import ContentSchema.Validation.Report
import ContentSchema.Validation.Result
import ContentSchema.Value.Basic
import ContentSchema.Value.DateText
import ContentSchema.Value.Display
import ContentSchema.Value.Equality
import ContentSchema.Value.Frozen
import ContentSchema.Value.Json
import ContentSchema.Value.Order
import ContentSchema.Yaml.Cursor
import ContentSchema.Yaml.Document
import ContentSchema.Yaml.Failure
import ContentSchema.Yaml.Node
import ContentSchema.Yaml.Reader
import ContentSchema.Yaml.Scalar
import ContentSchema.Yaml.ScalarValue
import ContentSchema.Yaml.Tag
import ContentSchema.Yaml.Timestamp
import ContentSchema.Yaml.Token
import ContentSchema.Yaml.TokenStream
