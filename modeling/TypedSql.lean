import TypedSql.Text.Blank
import TypedSql.Text.AsciiCase
import TypedSql.Text.Quoted
import TypedSql.Numeral.Digits
import TypedSql.Numeral.Scaled
import TypedSql.Numeral.Shortest
import TypedSql.Text.Inspected
import TypedSql.Calendar.Iso
import TypedSql.Uuid
import TypedSql.Json.Reader
import TypedSql.HostType.Basic
import TypedSql.HostType.Record
import TypedSql.HostType.Describe
import TypedSql.Settings
import TypedSql.StoreType.Written
import TypedSql.Catalog.Resolve
import TypedSql.Geography
import TypedSql.Wire.Parameters
import TypedSql.Expr.Traverse
import TypedSql.Expr.Construct
import TypedSql.Operation.Expression
import TypedSql.Sql.Emission
import TypedSql.Proofs.Sql.Grammar
import TypedSql.Proofs.Expr.Subterm
import TypedSql.Proofs.Sql.Lexing
import TypedSql.Proofs.Sql.Regroup
import TypedSql.Proofs.Sql.Emission
import TypedSql.Proofs.Sql.Reading
import TypedSql.Proofs.Sql.Layout
import TypedSql.Proofs.Sql.Binding
import TypedSql.Proofs.Sql.FreeInterpretation
import TypedSql.Proofs.Sql.WrittenMeaning
import TypedSql.Proofs.Mapping.Parts
import TypedSql.Proofs.Wire.Naming
import TypedSql.Proofs.Wire.Agreement
import TypedSql.Proofs.Catalog.Resolution
import TypedSql.Proofs.HostType.Conformance
import TypedSql.Proofs.Catalog.Coverage
import TypedSql.Proofs.Text.Trimmed
import TypedSql.Proofs.StoreType.Scanning
import TypedSql.Proofs.StoreType.Balance
import TypedSql.Proofs.StoreType.Cutting
import TypedSql.Proofs.StoreType.TypeText
import TypedSql.Proofs.StoreType.Rereading
import TypedSql.Proofs.StoreType.FacetText
import TypedSql.Proofs.Catalog.Lookup
import TypedSql.Proofs.Catalog.Synthesis
import TypedSql.Proofs.Wire.Conformance
import TypedSql.Proofs.Catalog.Simulation
import TypedSql.Catalog.Request
import TypedSql.Proofs.Catalog.Consulted
import TypedSql.Proofs.Catalog.Memory
import TypedSql.Proofs.StoreType.TableName
import TypedSql.Proofs.StoreType.Anonymous
import TypedSql.Proofs.StoreType.Unfaceted
import TypedSql.Proofs.StoreType.Parts
import TypedSql.Proofs.Catalog.Alone
import TypedSql.Proofs.Literal.Scalars
import TypedSql.Proofs.Literal.Closed
import TypedSql.Proofs.Mapping.Documents
import TypedSql.Proofs.Mapping.Matching
import TypedSql.Proofs.Mapping.ReadBack
import TypedSql.Proofs.Wire.Tracking
import TypedSql.Proofs.Catalog.Tracking
import TypedSql.Proofs.Json.Rendering
import TypedSql.Proofs.Value.Hashing
import TypedSql.Proofs.Expr.Positions
import TypedSql.Proofs.Expr.Traversal
import TypedSql.Proofs.Expr.Retyping
import TypedSql.Proofs.Expr.Conversion
import TypedSql.Proofs.Expr.Termination
import TypedSql.Proofs.Literal.Rerendering
import TypedSql.Proofs.Catalog.WellFormed
import TypedSql.Proofs.Catalog.Optional
import TypedSql.Proofs.Literal.Faults
import TypedSql.Proofs.Expr.Arithmetic
import TypedSql.Proofs.Sql.Faults
import TypedSql.Proofs.StoreType.Acceptance
import TypedSql.Proofs.StoreType.Stripping
import TypedSql.Proofs.Catalog.FixedPoint
import TypedSql.Proofs.Catalog.Nesting
import TypedSql.Proofs.Catalog.Termination
import TypedSql.Proofs.Text.Quotation
import TypedSql.Proofs.Calendar.Days
import TypedSql.Proofs.Text.Fields
import TypedSql.Proofs.Literal.Temporal
import TypedSql.Proofs.Numeral.Rounding
import TypedSql.Proofs.Numeral.ShortestText
import TypedSql.Proofs.Numeral.DecimalText
import TypedSql.Proofs.Numeral.WidenedText
import TypedSql.Proofs.Literal.Floats
import TypedSql.Proofs.Sql.Elements
import TypedSql.Proofs.Catalog.Materialization
import TypedSql.Proofs.Wire.SentBack
import TypedSql.Proofs.Mapping.Numbers
import TypedSql.Proofs.Json.Equality
import TypedSql.Proofs.Catalog.Snapshot
import TypedSql.Proofs.Catalog.Rebuilding
import TypedSql.Proofs.Wire.Pushing
