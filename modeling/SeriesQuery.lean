import SeriesQuery.Config.FileTree
import SeriesQuery.Main
import SeriesQuery.Proofs.Compile.Statement
import SeriesQuery.Proofs.Compile.PartOrder
import SeriesQuery.Proofs.Compile.Agreement
import SeriesQuery.Proofs.Compile.Texts
import SeriesQuery.Proofs.Compile.Items
import SeriesQuery.Proofs.Text.Lines
import SeriesQuery.Proofs.Json.Building
import SeriesQuery.Proofs.Json.Records
import SeriesQuery.Proofs.Json.RoundTrip
import SeriesQuery.Proofs.Query.RowCount
import SeriesQuery.Proofs.Query.TaggedPart
import SeriesQuery.Proofs.Query.RoundTrip
import SeriesQuery.Proofs.Cache.Key
import SeriesQuery.Proofs.Cache.Run
import SeriesQuery.Proofs.Cache.Recency
import SeriesQuery.Proofs.Compile.Placeholders
import SeriesQuery.Proofs.Json.Nodes
import SeriesQuery.Proofs.Json.ReadsAlike
import SeriesQuery.Proofs.Query.ReadsAlike
import SeriesQuery.Proofs.CommandLine.Targets
import SeriesQuery.Proofs.Json.Blanks
import SeriesQuery.Proofs.CommandLine.SingleTarget
import SeriesQuery.Proofs.CommandLine.Compiling
import SeriesQuery.Proofs.CommandLine.Validating
import SeriesQuery.Proofs.Compile.Roles
import SeriesQuery.Proofs.Compile.Formula
import SeriesQuery.Proofs.Text.Nesting
import SeriesQuery.Proofs.Compile.Parentheses
import SeriesQuery.Proofs.Cache.Counters
import SeriesQuery.Proofs.Config.Joining
import SeriesQuery.Proofs.Compile.Clauses
import SeriesQuery.Proofs.Query.PartFormat
import SeriesQuery.Proofs.Sql.Literal
import SeriesQuery.Proofs.Compile.Events
import SeriesQuery.Proofs.Cache.Events
import SeriesQuery.Proofs.Json.GivenFields
import SeriesQuery.Proofs.Query.Normalization
import SeriesQuery.Proofs.Compile.WindowSize
import SeriesQuery.Proofs.Double.Rounding
import SeriesQuery.Proofs.Double.Shortest
import SeriesQuery.Proofs.Double.Layout
import SeriesQuery.Proofs.Compile.LiteralParams
