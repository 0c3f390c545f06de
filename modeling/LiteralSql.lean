import LiteralSql.Main
import LiteralSql.Sql.Named
import LiteralSql.Proofs.DollarQuote
import LiteralSql.Proofs.Identifier
import LiteralSql.Proofs.Layout
import LiteralSql.Proofs.Flattening
import LiteralSql.Proofs.Placement
import LiteralSql.Proofs.Materialize
import LiteralSql.Proofs.Alignment
import LiteralSql.Proofs.Literal
import LiteralSql.Proofs.Definitions
import LiteralSql.Proofs.Separators
import LiteralSql.Proofs.Splicing
import LiteralSql.Proofs.Parameters
import LiteralSql.Proofs.Json.Frames
import LiteralSql.Proofs.Rows.Capture
import LiteralSql.Proofs.Rows.Span
import LiteralSql.Proofs.Rows.Grammar
import LiteralSql.Proofs.Rows.Acceptance
import LiteralSql.Proofs.Rows.Prefixes
import LiteralSql.Proofs.Rows.Cutting
import LiteralSql.Proofs.Rows.Unfolding
import LiteralSql.Proofs.Load.Capacity
import LiteralSql.Proofs.Client.Calls
import LiteralSql.Proofs.Fitting
import LiteralSql.Proofs.Predicate.Words
import LiteralSql.Proofs.Predicate.Reader
import LiteralSql.Proofs.Predicate.Rendered
import LiteralSql.Proofs.Predicate.Filters
import LiteralSql.Proofs.Template
import LiteralSql.Proofs.Bound
import LiteralSql.Proofs.Rereading
import LiteralSql.Proofs.Timestamps
import LiteralSql.Proofs.Double.Rounding
import LiteralSql.Proofs.Double.Shortest
import LiteralSql.Proofs.Json.Numerals
import LiteralSql.Proofs.Json.Printing
import LiteralSql.Proofs.Json.Reading
import LiteralSql.Proofs.Json.Quotes
import LiteralSql.Proofs.Json.Escaping
import LiteralSql.Proofs.Json.Texts
import LiteralSql.Proofs.Documents
import LiteralSql.Proofs.Json.Grafting
import LiteralSql.Proofs.Rows.Strictness
import LiteralSql.Proofs.Recognition
import LiteralSql.Proofs.Keys
import LiteralSql.Proofs.Defaults
import LiteralSql.Proofs.Double.Integral
import LiteralSql.Proofs.Inference
import LiteralSql.Proofs.Columns
import LiteralSql.Proofs.Scan.Comment
import LiteralSql.Proofs.Scan.Region
import LiteralSql.Proofs.Scan.Bytes
import LiteralSql.Proofs.Scan.Segments
import LiteralSql.Proofs.Negotiation
import LiteralSql.Proofs.Insertion
import LiteralSql.Proofs.Quoting
import LiteralSql.Proofs.Zones
import LiteralSql.Proofs.Alteration.Moves
import LiteralSql.Proofs.Alteration.Regrouping
import LiteralSql.Proofs.Alteration.Statements
import LiteralSql.Proofs.Reference.Mentions
import LiteralSql.Proofs.Reference.Queries
import LiteralSql.Proofs.Reference.Operations
import LiteralSql.Proofs.Encoding
import LiteralSql.Proofs.Naming
