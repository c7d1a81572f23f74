import SqlMapping.Config.Json
import SqlMapping.Criteria.Query
import SqlMapping.Dialect.BuiltIn
import SqlMapping.Dialect.Window
import SqlMapping.Expr.Build
import SqlMapping.Expr.Json
import SqlMapping.Plan.Mapper
import SqlMapping.Proofs.Criteria.Modes
import SqlMapping.Proofs.Plan.Reuse
import SqlMapping.Proofs.Row.RoundTrip
import SqlMapping.Row.Record
import SqlMapping.Statement.Data
import SqlMapping.Statement.Schema
import SqlMapping.Value.Json
import SqlMapping.Proofs.Plan.Calls
import SqlMapping.Proofs.Plan.Accounting
import SqlMapping.Proofs.Plan.Collection
import SqlMapping.Proofs.Plan.Instances
import SqlMapping.Proofs.Criteria.Meaning
import SqlMapping.Proofs.Criteria.Spelling
import SqlMapping.Proofs.Criteria.Tokens
import SqlMapping.Proofs.Criteria.Reading
import SqlMapping.Proofs.Criteria.Unambiguity
import SqlMapping.Proofs.Plan.Failures
import SqlMapping.Proofs.Plan.Binders
import SqlMapping.Proofs.Row.Conformance
import SqlMapping.Proofs.Criteria.Independence
import SqlMapping.Proofs.Dialect.Quoting
import SqlMapping.Proofs.Statement.Binding
import SqlMapping.Proofs.Row.QuotedNames
import SqlMapping.Proofs.Criteria.References
import SqlMapping.Catalog.Builder
import SqlMapping.Proofs.Catalog.Acceptance
import SqlMapping.Proofs.Statement.Definitions
import SqlMapping.Proofs.Criteria.Literals
import SqlMapping.Proofs.Criteria.Windows
import SqlMapping.Proofs.Criteria.Inlined
import SqlMapping.Proofs.Statement.LiteralPlaces
import SqlMapping.Proofs.Statement.ColumnNames
import SqlMapping.Proofs.Statement.PrimaryKey
import SqlMapping.Proofs.Row.Constructors
import SqlMapping.Proofs.Criteria.Counts
import SqlMapping.Proofs.Criteria.NameCase
import SqlMapping.Proofs.Plan.Queries
import SqlMapping.Proofs.Expr.Exchange
import SqlMapping.Proofs.Row.Narrowing
import SqlMapping.Proofs.Dialect.TextLiterals
import SqlMapping.Proofs.Dialect.Lengths
import SqlMapping.Proofs.Statement.KeyedRows
import SqlMapping.Proofs.Row.Bindings
import SqlMapping.Proofs.Row.Assignments
import SqlMapping.Proofs.Calendar.Texts
import SqlMapping.Proofs.Text.Hex
import SqlMapping.Proofs.Row.TextForms
import SqlMapping.Proofs.Row.Finite
import SqlMapping.Proofs.Row.DecimalTexts
import SqlMapping.Proofs.Text.Pattern
import SqlMapping.Proofs.Criteria.IgnoredCase
import SqlMapping.Proofs.Criteria.FailedRenders
import SqlMapping.Proofs.Criteria.LiteralCounts
import SqlMapping.Proofs.Text.Bytes
import SqlMapping.Proofs.Row.Placeholders
import SqlMapping.Proofs.Row.HonestRows
import SqlMapping.Proofs.Row.DynamicRows
import SqlMapping.Proofs.Catalog.Registrations
import SqlMapping.Proofs.Dialect.Templates
import SqlMapping.Proofs.Dialect.SizedNames
import SqlMapping.Proofs.Criteria.ParameterNames
