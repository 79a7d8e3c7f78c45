import EntityQuery.Dialect
import EntityQuery.Dictionary
import EntityQuery.Digest.Sha256
import EntityQuery.Executor.Basic
import EntityQuery.Executor.Scripted
import EntityQuery.Expr.Basic
import EntityQuery.Expr.Json
import EntityQuery.Expr.Operator
import EntityQuery.Expr.Tuple
import EntityQuery.Expr.Type
import EntityQuery.Expr.Walk
import EntityQuery.Grammar.Lexeme
import EntityQuery.Json.Basic
import EntityQuery.Json.Bits
import EntityQuery.Json.Number
import EntityQuery.Json.Reader
import EntityQuery.Json.Record
import EntityQuery.Lambda.Evaluation
import EntityQuery.Lambda.Recording
import EntityQuery.Lambda.Trace
import EntityQuery.Libraries.Basic
import EntityQuery.Libraries.Plain
import EntityQuery.Metamodel
import EntityQuery.Number.Binary64
import EntityQuery.Number.Bits
import EntityQuery.Number.Layout
import EntityQuery.Number.Shortest
import EntityQuery.Pipeline.Assembly
import EntityQuery.Pipeline.Basic
import EntityQuery.Pipeline.Cursor
import EntityQuery.Pipeline.EntityLoader
import EntityQuery.Pipeline.Error
import EntityQuery.Pipeline.Feed
import EntityQuery.Pipeline.Run
import EntityQuery.Pipeline.Session
import EntityQuery.Pipeline.Step
import EntityQuery.Proofs.Dictionary
import EntityQuery.Proofs.Executor.Accounting
import EntityQuery.Proofs.Executor.HandleLog
import EntityQuery.Proofs.Executor.Replies
import EntityQuery.Proofs.Executor.Requests
import EntityQuery.Proofs.Expr.Components
import EntityQuery.Proofs.Expr.Formed
import EntityQuery.Proofs.Expr.Redaction
import EntityQuery.Proofs.Expr.Tuple
import EntityQuery.Proofs.Expr.Typing
import EntityQuery.Proofs.Expr.Value
import EntityQuery.Proofs.Failure
import EntityQuery.Proofs.Grammar.Lexing
import EntityQuery.Proofs.Json.Compact
import EntityQuery.Proofs.Lambda.Demand
import EntityQuery.Proofs.Lambda.Foreign
import EntityQuery.Proofs.Lambda.Invocations
import EntityQuery.Proofs.Lambda.Matching
import EntityQuery.Proofs.Lambda.Observation
import EntityQuery.Proofs.Lambda.Recording
import EntityQuery.Proofs.Lambda.Redaction
import EntityQuery.Proofs.Lambda.Scoping
import EntityQuery.Proofs.Lambda.Search
import EntityQuery.Proofs.Lambda.Settling
import EntityQuery.Proofs.Lambda.WellScoped
import EntityQuery.Proofs.Lambda.Yields
import EntityQuery.Proofs.Libraries.Numerals
import EntityQuery.Proofs.Libraries.Plain
import EntityQuery.Proofs.Number.Binary64
import EntityQuery.Proofs.Number.Comparison
import EntityQuery.Proofs.Number.Numeral
import EntityQuery.Proofs.Number.Reading
import EntityQuery.Proofs.Number.Rounding
import EntityQuery.Proofs.Number.Widening
import EntityQuery.Proofs.Pipeline.Accounts
import EntityQuery.Proofs.Pipeline.Aggregation
import EntityQuery.Proofs.Pipeline.Arity
import EntityQuery.Proofs.Pipeline.Determination
import EntityQuery.Proofs.Pipeline.Determinism
import EntityQuery.Proofs.Pipeline.Distinct
import EntityQuery.Proofs.Pipeline.Draining
import EntityQuery.Proofs.Pipeline.Exchanges
import EntityQuery.Proofs.Pipeline.Extents
import EntityQuery.Proofs.Pipeline.FetchCount
import EntityQuery.Proofs.Pipeline.Fetching
import EntityQuery.Proofs.Pipeline.Fingerprint
import EntityQuery.Proofs.Pipeline.Handles
import EntityQuery.Proofs.Pipeline.Items
import EntityQuery.Proofs.Pipeline.Lexing
import EntityQuery.Proofs.Pipeline.Lifecycle
import EntityQuery.Proofs.Pipeline.Loading
import EntityQuery.Proofs.Pipeline.Merging
import EntityQuery.Proofs.Pipeline.Models
import EntityQuery.Proofs.Pipeline.Navigation
import EntityQuery.Proofs.Pipeline.Nodes
import EntityQuery.Proofs.Pipeline.Paging
import EntityQuery.Proofs.Pipeline.Projection
import EntityQuery.Proofs.Pipeline.Pulling
import EntityQuery.Proofs.Pipeline.Redaction
import EntityQuery.Proofs.Pipeline.Refinement
import EntityQuery.Proofs.Pipeline.Requests
import EntityQuery.Proofs.Pipeline.Serving
import EntityQuery.Proofs.Pipeline.Sorting
import EntityQuery.Proofs.Pipeline.StableSort
import EntityQuery.Proofs.Pipeline.Width
import EntityQuery.Proofs.Pipeline.Windows
import EntityQuery.Proofs.Query.Aggregation
import EntityQuery.Proofs.Query.Alias
import EntityQuery.Proofs.Query.Binding
import EntityQuery.Proofs.Query.Brackets
import EntityQuery.Proofs.Query.FromClause
import EntityQuery.Proofs.Query.Grammar
import EntityQuery.Proofs.Query.Lexing
import EntityQuery.Proofs.Query.Merging
import EntityQuery.Proofs.Query.Parameters
import EntityQuery.Proofs.Query.Parenthesization
import EntityQuery.Proofs.Query.PredicateForm
import EntityQuery.Proofs.Query.Redaction
import EntityQuery.Proofs.Query.Rows
import EntityQuery.Proofs.Query.Spacing
import EntityQuery.Proofs.Query.Spelling
import EntityQuery.Proofs.Query.ThreeValued
import EntityQuery.Proofs.Query.Tokens
import EntityQuery.Proofs.Query.Trees
import EntityQuery.Proofs.Query.Validity
import EntityQuery.Proofs.Query.WhereClause
import EntityQuery.Proofs.Query.Window
import EntityQuery.Proofs.QueryForm.Agreement
import EntityQuery.Proofs.QueryForm.Arms
import EntityQuery.Proofs.QueryForm.Columns
import EntityQuery.Proofs.QueryForm.Formed
import EntityQuery.Proofs.QueryForm.Growth
import EntityQuery.Proofs.QueryForm.Making
import EntityQuery.Proofs.QueryForm.Meanings
import EntityQuery.Proofs.QueryForm.Nesting
import EntityQuery.Proofs.QueryForm.Nodes
import EntityQuery.Proofs.QueryForm.Operations
import EntityQuery.Proofs.QueryForm.Redaction
import EntityQuery.Proofs.QueryForm.Rooting
import EntityQuery.Proofs.QueryForm.Support
import EntityQuery.Proofs.QueryForm.Typing
import EntityQuery.Proofs.Settings.Environment
import EntityQuery.Proofs.Value.Aggregation
import EntityQuery.Proofs.Value.Comparison
import EntityQuery.Proofs.Value.Equality
import EntityQuery.Proofs.Value.Key
import EntityQuery.Proofs.Value.Order
import EntityQuery.Proofs.Value.Signs
import EntityQuery.Query.Alias
import EntityQuery.Query.Clause
import EntityQuery.Query.Compiled
import EntityQuery.Query.Emission
import EntityQuery.Query.Hints
import EntityQuery.Query.Merge
import EntityQuery.Query.Model
import EntityQuery.Query.Token
import EntityQuery.Query.Window
import EntityQuery.QueryForm
import EntityQuery.Settings.Basic
import EntityQuery.Settings.Environment
import EntityQuery.Settings.Location
import EntityQuery.Text.Blank
import EntityQuery.Text.Case
import EntityQuery.Text.CaseTable
import EntityQuery.Text.Quoted
import EntityQuery.Text.Ranges
import EntityQuery.Text.Unprintable
import EntityQuery.Toml.Document
import EntityQuery.Toml.Number
import EntityQuery.Toml.Table
import EntityQuery.Toml.Text
import EntityQuery.Value.Aggregation
import EntityQuery.Value.Basic
import EntityQuery.Value.Exchange
import EntityQuery.Value.Json
import EntityQuery.Value.Operation
import EntityQuery.Value.Order
import EntityQuery.Value.Reading
import EntityQuery.Value.Text
