import DialectSql.Calendar
import DialectSql.Change
import DialectSql.Change.Assignment
import DialectSql.CommandLine
import DialectSql.Config
import DialectSql.Context
import DialectSql.Decimal.Power
import DialectSql.Decimal.Rounding
import DialectSql.Decimal.Shortest
import DialectSql.Decimal.Style
import DialectSql.Dialect
import DialectSql.Dialect.RowLimiting
import DialectSql.Document.Codec
import DialectSql.Document.Expression
import DialectSql.Document.Json
import DialectSql.Document.Number
import DialectSql.Document.Printer
import DialectSql.Document.Query
import DialectSql.Document.Reader
import DialectSql.Document.Statement
import DialectSql.Document.Token
import DialectSql.Document.Value
import DialectSql.Draft
import DialectSql.Draft.Change
import DialectSql.Draft.Expression
import DialectSql.Draft.Query
import DialectSql.Draft.Reading
import DialectSql.Error
import DialectSql.Expression
import DialectSql.Expression.Build
import DialectSql.Expression.Operator
import DialectSql.Field
import DialectSql.Guid
import DialectSql.Literal
import DialectSql.Main
import DialectSql.Named
import DialectSql.Parameter
import DialectSql.Proofs.Assignment
import DialectSql.Proofs.Assignment.Insert
import DialectSql.Proofs.Call
import DialectSql.Proofs.Combination
import DialectSql.Proofs.Composed
import DialectSql.Proofs.Composed.Statement
import DialectSql.Proofs.Document.Depth
import DialectSql.Proofs.Document.Expression
import DialectSql.Proofs.Document.Load
import DialectSql.Proofs.Document.Number
import DialectSql.Proofs.Document.Query
import DialectSql.Proofs.Document.Reader
import DialectSql.Proofs.Document.Reading
import DialectSql.Proofs.Document.Statement
import DialectSql.Proofs.Document.Text
import DialectSql.Proofs.Document.Token
import DialectSql.Proofs.Document.Value
import DialectSql.Proofs.Fragment
import DialectSql.Proofs.Forms
import DialectSql.Proofs.Frame
import DialectSql.Proofs.Grouping
import DialectSql.Proofs.Ingredient
import DialectSql.Proofs.Ingredient.Passes
import DialectSql.Proofs.Mention
import DialectSql.Proofs.Mention.Aggregate
import DialectSql.Proofs.Mention.Expression
import DialectSql.Proofs.Mention.Window
import DialectSql.Proofs.Mode
import DialectSql.Proofs.Names
import DialectSql.Proofs.NaturalOrder
import DialectSql.Proofs.NaturalOrder.Column
import DialectSql.Proofs.NaturalOrder.Exposure
import DialectSql.Proofs.NaturalOrder.Interruption
import DialectSql.Proofs.NaturalOrder.Lift
import DialectSql.Proofs.NaturalOrder.Outward
import DialectSql.Proofs.NaturalOrder.Prediction
import DialectSql.Proofs.NaturalOrder.Recursion
import DialectSql.Proofs.NaturalOrder.Shape
import DialectSql.Proofs.Nesting
import DialectSql.Proofs.Nesting.Pieces
import DialectSql.Proofs.OpenEnd
import DialectSql.Proofs.OpenEnd.Mark
import DialectSql.Proofs.Outline
import DialectSql.Proofs.Pattern
import DialectSql.Proofs.Phrase
import DialectSql.Proofs.Phrase.Change
import DialectSql.Proofs.Phrase.Expression
import DialectSql.Proofs.Phrase.Query
import DialectSql.Proofs.Placeholder
import DialectSql.Proofs.Precedence
import DialectSql.Proofs.Precedence.Expression
import DialectSql.Proofs.Precedence.Literal
import DialectSql.Proofs.Precedence.Membership
import DialectSql.Proofs.Precedence.Reading
import DialectSql.Proofs.Precedence.Scan
import DialectSql.Proofs.Precedence.Sketch
import DialectSql.Proofs.Precedence.Spelling
import DialectSql.Proofs.Quoted
import DialectSql.Proofs.Quoted.Identifier
import DialectSql.Proofs.Recoding
import DialectSql.Proofs.Recoding.Order
import DialectSql.Proofs.Recoding.Skeleton
import DialectSql.Proofs.Refusal
import DialectSql.Proofs.Related
import DialectSql.Proofs.Requalification
import DialectSql.Proofs.RowBounds
import DialectSql.Proofs.RowBounds.Reading
import DialectSql.Proofs.RowBounds.Select
import DialectSql.Proofs.RowBounds.Wrapper
import DialectSql.Proofs.RowNumber
import DialectSql.Proofs.RowNumber.Column
import DialectSql.Proofs.RowNumber.Walk
import DialectSql.Proofs.Run
import DialectSql.Proofs.Session
import DialectSql.Proofs.Session.Tree
import DialectSql.Proofs.Surface
import DialectSql.Proofs.Surface.Literal
import DialectSql.Proofs.TimeSpan
import DialectSql.Proofs.Width
import DialectSql.Proofs.Width.Glyph
import DialectSql.Proofs.Width.Item
import DialectSql.Proofs.Word
import DialectSql.Proofs.Written
import DialectSql.Query.Build
import DialectSql.Query.Clause
import DialectSql.Query.Criteria
import DialectSql.Query.ImpliedOrder
import DialectSql.Query.NaturalOrder
import DialectSql.Query.Scope
import DialectSql.Query.Source
import DialectSql.Query.Tree
import DialectSql.Query.Visit
import DialectSql.Rendering
import DialectSql.Statement
import DialectSql.Text.Blank
import DialectSql.Text.Digits
import DialectSql.Text.Doubling
import DialectSql.Text.Escaped
import DialectSql.Text.Unprintable
import DialectSql.TimeSpan
import DialectSql.Value
