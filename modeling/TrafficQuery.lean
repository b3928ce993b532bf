import TrafficQuery.Command.Interactive
import TrafficQuery.Command.Output
import TrafficQuery.Command.Report
import TrafficQuery.Command.Run
import TrafficQuery.Compile.Filter
import TrafficQuery.Compile.Query
import TrafficQuery.Compile.Test
import TrafficQuery.Condition.Basic
import TrafficQuery.Condition.Field
import TrafficQuery.Condition.Method
import TrafficQuery.Json.Double
import TrafficQuery.Json.Failure
import TrafficQuery.Json.Number
import TrafficQuery.Json.Skip
import TrafficQuery.Json.Text
import TrafficQuery.Json.Value
import TrafficQuery.Like
import TrafficQuery.Main
import TrafficQuery.ParseError
import TrafficQuery.Proofs.Command.Dialogue
import TrafficQuery.Proofs.Command.Output
import TrafficQuery.Proofs.Compile.Balance
import TrafficQuery.Proofs.Compile.Composition
import TrafficQuery.Proofs.Compile.Failure
import TrafficQuery.Proofs.Compile.Joins
import TrafficQuery.Proofs.Compile.Meaning
import TrafficQuery.Proofs.Compile.Patterns
import TrafficQuery.Proofs.Compile.Regrouping
import TrafficQuery.Proofs.Compile.Scoping
import TrafficQuery.Proofs.Compile.Selection
import TrafficQuery.Proofs.Compile.Tables
import TrafficQuery.Proofs.Compile.Text
import TrafficQuery.Proofs.Compile.Truth
import TrafficQuery.Proofs.Compile.UserText
import TrafficQuery.Proofs.Compile.Values
import TrafficQuery.Proofs.Json.Grammar
import TrafficQuery.Proofs.Json.Members
import TrafficQuery.Proofs.Json.Reading
import TrafficQuery.Proofs.Json.Skipping
import TrafficQuery.Proofs.Json.Unambiguous
import TrafficQuery.Proofs.Json.Writing
import TrafficQuery.Proofs.Outcome
import TrafficQuery.Proofs.Query.Acceptance
import TrafficQuery.Proofs.Query.Case
import TrafficQuery.Proofs.Query.Clause
import TrafficQuery.Proofs.Query.Completion
import TrafficQuery.Proofs.Query.Depth
import TrafficQuery.Proofs.Query.Descent
import TrafficQuery.Proofs.Query.Expressible
import TrafficQuery.Proofs.Query.Grammar
import TrafficQuery.Proofs.Query.Kinds
import TrafficQuery.Proofs.Query.Layout
import TrafficQuery.Proofs.Query.Marks
import TrafficQuery.Proofs.Query.Parentheses
import TrafficQuery.Proofs.Query.Paths
import TrafficQuery.Proofs.Query.Reading
import TrafficQuery.Proofs.Query.Viability
import TrafficQuery.Proofs.Settings.Document
import TrafficQuery.Proofs.Sql.Database
import TrafficQuery.Proofs.Sql.Grammar
import TrafficQuery.Proofs.Sql.Layout
import TrafficQuery.Proofs.Sql.Lexing
import TrafficQuery.Proofs.Sql.Names
import TrafficQuery.Proofs.Sql.Placeholders
import TrafficQuery.Proofs.Sql.Retrieval
import TrafficQuery.Proofs.Sql.Truth
import TrafficQuery.Proofs.Sql.WhereClause
import TrafficQuery.Proofs.Token.Calls
import TrafficQuery.Proofs.Token.Lossless
import TrafficQuery.Proofs.Token.Scan
import TrafficQuery.Proofs.Token.Words
import TrafficQuery.Proofs.Token.Classes
import TrafficQuery.Query.Clause
import TrafficQuery.Query.Reader
import TrafficQuery.Query.Reading
import TrafficQuery.Settings.Basic
import TrafficQuery.Settings.Document
import TrafficQuery.Settings.File
import TrafficQuery.Sql.Expr
import TrafficQuery.Sql.Layout
import TrafficQuery.Sql.Piece
import TrafficQuery.Sql.Statement
import TrafficQuery.Sql.Value
import TrafficQuery.Text.Blank
import TrafficQuery.Text.Break
import TrafficQuery.Text.Caret
import TrafficQuery.Text.Cluster
import TrafficQuery.Text.Cursor
import TrafficQuery.Text.Hidden
import TrafficQuery.Text.Letter
import TrafficQuery.Text.Mark
import TrafficQuery.Text.Range
import TrafficQuery.Text.Visible
import TrafficQuery.Token.Basic
import TrafficQuery.Token.Lexeme
import TrafficQuery.Token.Scan
import TrafficQuery.Token.Session
import TrafficQuery.Token.Word
import TrafficQuery.Proofs.Token.Faults
import TrafficQuery.Proofs.Query.Caret
import TrafficQuery.Proofs.Compile.Nesting
import TrafficQuery.Proofs.Token.Numbers
import TrafficQuery.Proofs.Compile.Numbers
