import Templating.Command
import Templating.Decimal.Integer
import Templating.Decimal.Real
import Templating.Decimal.Shortest
import Templating.Engine
import Templating.Expr.Basic
import Templating.Expr.Condition
import Templating.Expr.Evaluation
import Templating.Json.Basic
import Templating.Json.Fault
import Templating.Json.Number
import Templating.Json.Reader
import Templating.Json.Skip
import Templating.Main
import Templating.Options
import Templating.Proofs.Task.Agreement
import Templating.Proofs.Task.Endings
import Templating.Proofs.Task.Laws
import Templating.Proofs.Task.Locality
import Templating.Source.Cursor
import Templating.Source.LexError
import Templating.Source.Markup
import Templating.Source.Span
import Templating.State.Basic
import Templating.State.Budget
import Templating.State.Registers
import Templating.State.Sink
import Templating.Task.Basic
import Templating.Task.EvalError
import Templating.Task.Schedule
import Templating.Template.Header
import Templating.Template.Node
import Templating.Template.ParseError
import Templating.Template.Parsing
import Templating.Template.Rendering
import Templating.Template.Selection
import Templating.Template.Survey
import Templating.Template.TagSet
import Templating.Text.Blank
import Templating.Text.Numbered
import Templating.Text.Quoted
import Templating.Value.Basic
import Templating.Value.Equality
import Templating.Value.Object
import Templating.Value.Property
import Templating.Value.Reading
import Templating.Value.Store
import Templating.Value.Text
import Templating.Proofs.Expr.Locality
import Templating.Proofs.Template.Closure
import Templating.Proofs.State.Registers
import Templating.Proofs.Template.Opening
import Templating.Proofs.Template.Frame
import Templating.Proofs.Template.Deadlines
import Templating.Proofs.Template.Confinement
import Templating.Proofs.Template.Signals
import Templating.Proofs.Template.Parallel
import Templating.Proofs.Task.Waiting
import Templating.Proofs.Template.Drivers
import Templating.Proofs.Template.FreeNames
import Templating.Proofs.Template.Observation
import Templating.Proofs.Template.Reporting
import Templating.Proofs.Template.Strictness
import Templating.Proofs.Template.Surveys
import Templating.Proofs.Template.Twins
import Templating.Proofs.Value.Inheritance
import Templating.Proofs.Value.Wrapping
import Templating.Proofs.Template.Transparency
import Templating.Proofs.Template.Footprint
import Templating.Proofs.Template.Grammar
import Templating.Proofs.Template.Blocks
import Templating.Proofs.Template.Derivations
import Templating.Proofs.Template.Prefixes
import Templating.Proofs.Template.SourceOrder
import Templating.Proofs.Source.Layout
import Templating.Proofs.Source.Lossless
import Templating.Proofs.Source.Scanning
import Templating.Proofs.Source.Readers
import Templating.Proofs.Source.Interiors
import Templating.Proofs.Source.Written
import Templating.Proofs.Source.Lexemes
import Templating.Proofs.Source.RoundTrip
import Templating.Proofs.Template.Positions
import Templating.Proofs.Task.Ledger
import Templating.Proofs.Template.Bookkeeping
import Templating.Proofs.Template.Memory
import Templating.Proofs.Template.Resuming
import Templating.Proofs.Template.Continuation
import Templating.Proofs.Expr.Ownership
import Templating.Proofs.Template.Ownership
import Templating.Proofs.Template.Slices
import Templating.Proofs.Template.UndefinedModifiers
import Templating.Proofs.Template.Resumption
import Templating.Proofs.Template.Iteration
import Templating.Proofs.Expr.Closure
import Templating.Proofs.Template.Standing
import Templating.Proofs.Decimal.Nearest
import Templating.Proofs.Decimal.Conversion
import Templating.Proofs.Expr.Comparison
import Templating.Proofs.Value.Calls
import Templating.Proofs.Value.Addresses
import Templating.Proofs.Template.Lookalikes
import Templating.Proofs.State.Introspection
import Templating.Proofs.Task.Driving
import Templating.Proofs.Expr.StrictLookup
import Templating.Proofs.Expr.Chains
import Templating.Proofs.Template.Headers
import Templating.Proofs.Template.Conditions
import Templating.Proofs.Expr.RangeEvaluation
import Templating.Proofs.Source.Recognition
import Templating.Proofs.Source.NamedLists
import Templating.Proofs.Template.Refusals
import Templating.Proofs.Template.ErrorPlaces
import Templating.Proofs.Expr.Membership
import Templating.Proofs.Value.Equality
import Templating.Proofs.Value.Keys
import Templating.Proofs.State.Snapshots
import Templating.Proofs.Source.Bytes
import Templating.Proofs.Source.Offsets
import Templating.Proofs.Source.OffsetSteps
import Templating.Proofs.Source.Bounds
import Templating.Proofs.Template.Cuts
