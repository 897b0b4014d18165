import Cohort.Aggregate.Basic
import Cohort.Aggregate.Reduction
import Cohort.Aggregate.Scan
import Cohort.CommandLine.Arguments
import Cohort.CommandLine.Comment
import Cohort.CommandLine.Entry
import Cohort.CommandLine.Ini
import Cohort.CommandLine.Json5
import Cohort.CommandLine.Layers
import Cohort.CommandLine.Numeral
import Cohort.CommandLine.Overlay
import Cohort.CommandLine.Reader
import Cohort.CommandLine.Ron
import Cohort.CommandLine.Run
import Cohort.CommandLine.SettingsFile
import Cohort.CommandLine.Toml.Reading
import Cohort.CommandLine.Toml.Scalar
import Cohort.CommandLine.Toml.Table
import Cohort.CommandLine.Yaml.Cursor
import Cohort.CommandLine.Yaml.Reading
import Cohort.CommandLine.Yaml.Scalar
import Cohort.ComputedField
import Cohort.Constraint
import Cohort.DataType
import Cohort.Decimal.Basic
import Cohort.Decimal.Binary
import Cohort.Decimal.Layout
import Cohort.Decimal.Reading
import Cohort.Decimal.Rounding
import Cohort.Decimal.Shortest
import Cohort.Dependency
import Cohort.Error
import Cohort.Field
import Cohort.Fixture
import Cohort.Formula.Evaluation
import Cohort.Formula.Expr
import Cohort.Formula.Lexer
import Cohort.Formula.Parser
import Cohort.Formula.Token
import Cohort.Formula.Value
import Cohort.Index
import Cohort.Instant.Basic
import Cohort.Instant.Calendar
import Cohort.Instant.Printer
import Cohort.Instant.Reading
import Cohort.Json.Basic
import Cohort.Json.Coercion
import Cohort.Json.Document
import Cohort.Json.NumberText
import Cohort.Json.Printer
import Cohort.Main
import Cohort.Membership
import Cohort.Operator
import Cohort.Profile
import Cohort.Proofs.Aggregate.Arrival
import Cohort.Proofs.Aggregate.Cap
import Cohort.Proofs.Aggregate.Chronology
import Cohort.Proofs.Aggregate.Distinct
import Cohort.Proofs.Aggregate.Payload
import Cohort.Proofs.Aggregate.Scan
import Cohort.Proofs.Aggregate.Tally
import Cohort.Proofs.Aggregate.Tiling
import Cohort.Proofs.Aggregate.Touch
import Cohort.Proofs.CommandLine.Selection
import Cohort.Proofs.Constraint.Acceptance
import Cohort.Proofs.Constraint.Bands
import Cohort.Proofs.Constraint.Legality
import Cohort.Proofs.Constraint.Literal
import Cohort.Proofs.Constraint.Negation
import Cohort.Proofs.Constraint.Operands
import Cohort.Proofs.Constraint.Steps
import Cohort.Proofs.Constraint.Values
import Cohort.Proofs.Decimal.Interval
import Cohort.Proofs.Decimal.Order
import Cohort.Proofs.Decimal.Rounding
import Cohort.Proofs.Decimal.Text
import Cohort.Proofs.Definition
import Cohort.Proofs.Dependency.Cycle
import Cohort.Proofs.Dependency.Graph
import Cohort.Proofs.Dependency.Order
import Cohort.Proofs.Dependency.Walk
import Cohort.Proofs.Fixture
import Cohort.Proofs.Fixture.Outcome
import Cohort.Proofs.Formula.Comparison
import Cohort.Proofs.Formula.Date
import Cohort.Proofs.Formula.Display
import Cohort.Proofs.Formula.Evaluation
import Cohort.Proofs.Formula.Grammar
import Cohort.Proofs.Formula.Kinds
import Cohort.Proofs.Formula.Lexemes
import Cohort.Proofs.Formula.Longest
import Cohort.Proofs.Formula.Modes
import Cohort.Proofs.Formula.Operands
import Cohort.Proofs.Formula.Parser
import Cohort.Proofs.Formula.Pattern
import Cohort.Proofs.Formula.Position
import Cohort.Proofs.Formula.Quotation
import Cohort.Proofs.Formula.Reader
import Cohort.Proofs.Formula.Steps
import Cohort.Proofs.Formula.Transcript
import Cohort.Proofs.Index
import Cohort.Proofs.Instant.Calendar
import Cohort.Proofs.Instant.Months
import Cohort.Proofs.Instant.Order
import Cohort.Proofs.Instant.Parts
import Cohort.Proofs.Instant.Regular
import Cohort.Proofs.Instant.Shift
import Cohort.Proofs.Instant.Text
import Cohort.Proofs.Json.Count
import Cohort.Proofs.Json.Document
import Cohort.Proofs.Json.Exact
import Cohort.Proofs.Json.Meaning
import Cohort.Proofs.Json.Number
import Cohort.Proofs.Json.Printer
import Cohort.Proofs.Registry.Acceptance
import Cohort.Proofs.Registry.Contents
import Cohort.Proofs.Registry.Creation
import Cohort.Proofs.Registry.Deletion
import Cohort.Proofs.Registry.Dependents
import Cohort.Proofs.Registry.Frame
import Cohort.Proofs.Registry.Identity
import Cohort.Proofs.Registry.Operation
import Cohort.Proofs.Registry.Ordered
import Cohort.Proofs.Report.Csv
import Cohort.Proofs.Report.Duration
import Cohort.Proofs.Report.Export
import Cohort.Proofs.Report.Grouping
import Cohort.Proofs.Report.Limits
import Cohort.Proofs.Report.Pages
import Cohort.Proofs.Report.Paging
import Cohort.Proofs.Report.Plan
import Cohort.Proofs.Report.Raw
import Cohort.Proofs.Report.Rows
import Cohort.Proofs.Report.Sign
import Cohort.Proofs.Report.Sorting
import Cohort.Proofs.Result
import Cohort.Proofs.Segment.Compilation
import Cohort.Proofs.Segment.Draft
import Cohort.Proofs.Segment.Occurrence
import Cohort.Proofs.Service.Audience
import Cohort.Proofs.Service.Isolation
import Cohort.Proofs.Service.Limits
import Cohort.Proofs.Service.Narrowing
import Cohort.Proofs.Service.Readings
import Cohort.Proofs.Service.Request
import Cohort.Proofs.Service.Stored
import Cohort.Proofs.Store
import Cohort.Proofs.Store.Log
import Cohort.Proofs.Subject.Conjunction
import Cohort.Proofs.Subject.Deletion
import Cohort.Proofs.Subject.Evaluations
import Cohort.Proofs.Subject.Limits
import Cohort.Proofs.Subject.Meaning
import Cohort.Proofs.Subject.Narrowing
import Cohort.Proofs.Subject.Resolver
import Cohort.Proofs.Subject.Session
import Cohort.Proofs.Text.Lowercase
import Cohort.Proofs.Timeframe.Aging
import Cohort.Proofs.Timeframe.Start
import Cohort.Proofs.Uuid
import Cohort.Proofs.Wire.Definition
import Cohort.Proofs.Wire.Record
import Cohort.Proofs.Wire.RoundTrip
import Cohort.Registry.Basic
import Cohort.Registry.Snapshot
import Cohort.Report.Basic
import Cohort.Report.Csv
import Cohort.Report.Export
import Cohort.Report.Format
import Cohort.Report.Table
import Cohort.Segment.Basic
import Cohort.Segment.Draft
import Cohort.Service.Basic
import Cohort.Service.Report
import Cohort.Service.Sweep
import Cohort.Settings
import Cohort.Store
import Cohort.Subject
import Cohort.Text.Blank
import Cohort.Text.CaseTable
import Cohort.Text.Lowercase
import Cohort.Text.Search
import Cohort.Timeframe
import Cohort.Uuid
import Cohort.Wire.Accepted
import Cohort.Wire.Answer
import Cohort.Wire.Data
import Cohort.Wire.Definition
import Cohort.Wire.Record
import Cohort.Wire.Report
import Cohort.Wire.Settings
