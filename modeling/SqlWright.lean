import SqlWright.Clause.Conditions
import SqlWright.Clause.Joins
import SqlWright.Decimal.Reader
import SqlWright.Delimited.Reader
import SqlWright.Event
import SqlWright.Proofs.Bodies.Chain
import SqlWright.Proofs.Bodies.Outline
import SqlWright.Proofs.Bodies.Silent
import SqlWright.Proofs.Clauses.Atomic
import SqlWright.Proofs.Closed.Chain
import SqlWright.Proofs.Closed.Changes
import SqlWright.Proofs.Closed.Clauses
import SqlWright.Proofs.Closed.Merge
import SqlWright.Proofs.Closed.Query
import SqlWright.Proofs.Commute.Calls
import SqlWright.Proofs.Commute.Clauses
import SqlWright.Proofs.Delete.Items
import SqlWright.Proofs.Delimited.Acceptance
import SqlWright.Proofs.Delimited.Calls
import SqlWright.Proofs.Delimited.Counting
import SqlWright.Proofs.Delimited.Lines
import SqlWright.Proofs.Delimited.Split
import SqlWright.Proofs.Delimited.RoundTrip
import SqlWright.Proofs.Expr.Comments
import SqlWright.Proofs.Expr.Contents
import SqlWright.Proofs.Expr.Fallback
import SqlWright.Proofs.Expr.Noninterference
import SqlWright.Proofs.Expr.Pass
import SqlWright.Proofs.Expr.Paths
import SqlWright.Proofs.Expr.Places
import SqlWright.Proofs.Expr.Reading
import SqlWright.Proofs.Expr.Unlinked
import SqlWright.Proofs.Expr.Unread
import SqlWright.Proofs.Failure.Chain
import SqlWright.Proofs.Filter.Chain
import SqlWright.Proofs.Filter.Raw
import SqlWright.Proofs.Filter.Requests
import SqlWright.Proofs.Filter.Split
import SqlWright.Proofs.Identifier.Grammar
import SqlWright.Proofs.Identifier.Qualified
import SqlWright.Proofs.Identifier.RoundTrip
import SqlWright.Proofs.Insert.Alignment
import SqlWright.Proofs.Insert.Sources
import SqlWright.Proofs.Merge.Items
import SqlWright.Proofs.Registry
import SqlWright.Proofs.Registry.Mentions
import SqlWright.Proofs.Scope.Chain
import SqlWright.Proofs.Scope.Reading
import SqlWright.Proofs.Scope.Sources
import SqlWright.Proofs.Select.Columns
import SqlWright.Proofs.Stable.Calls
import SqlWright.Proofs.Stable.Compile
import SqlWright.Proofs.Text.Closed
import SqlWright.Proofs.Text.Comments
import SqlWright.Proofs.Text.Reader
import SqlWright.Proofs.Text.Scan
import SqlWright.Proofs.Text.Surface
import SqlWright.Proofs.Text.Trim
import SqlWright.Proofs.Text.Words
import SqlWright.Proofs.Trace.Chain
import SqlWright.Proofs.Trace.Shortened
import SqlWright.Proofs.Update.Assigned
import SqlWright.Proofs.Update.KeyCondition
import SqlWright.Proofs.Update.Keyed
import SqlWright.Proofs.Update.Latest
import SqlWright.Proofs.Update.Rows
import SqlWright.Proofs.Update.Sets
import SqlWright.Proofs.Value.Closed
import SqlWright.Proofs.Value.Reader
import SqlWright.Proofs.Value.Reading
import SqlWright.Proofs.Value.Sealed
import SqlWright.Proofs.Value.Trimmed
import SqlWright.Proofs.Variants
import SqlWright.Statement.Delete
import SqlWright.Statement.Insert
import SqlWright.Statement.Merge
import SqlWright.Statement.Select
import SqlWright.Statement.Update
import SqlWright.Table
