import DialectSql.Expression.Build

/-!
# Clauses

The clauses of a query that consist of expressions alone: orderings, projected expressions and
aggregates.

## Main definitions

* `Order` — an expression to order by, with a direction
* `Order.parse` — an order from a short text such as `-u.CreatedAt`
* `Projection` — a projected expression with an optional output name
* `Aggregation` — an aggregate that replaces the projection
-/

namespace DialectSql

/-! ## Orders -/

/-- The direction of an order. -/
inductive Direction
  | asc | desc
  deriving DecidableEq, Repr

namespace Direction

instance : Inhabited Direction := ⟨asc⟩

/-- The SQL keyword. -/
def symbol : Direction → String
  | asc => "ASC"
  | desc => "DESC"

instance : Named Direction where
  all := [asc, desc]
  name
    | asc => "Asc"
    | desc => "Desc"

end Direction

/-- An expression to order by. -/
structure Order where
  /-- What decides the order. -/
  expression : Expression
  /-- The direction. -/
  direction : Direction

namespace Order

/-- Structural equality. -/
protected def beq (a b : Order) : Bool :=
  a.expression == b.expression && a.direction == b.direction

instance : BEq Order := ⟨Order.beq⟩

/-- A text in front of and behind the first `c`, if there is one. -/
def splitAtFirst (c : Char) (chars : List Char) : Option (List Char × List Char) :=
  match chars.dropWhile (· != c) with
  | [] => none
  | _ :: rest => some (chars.takeWhile (· != c), rest)

/-- An order by a column: a minus sign for descending order, a source and a point for a qualified
column, and the column. -/
def parse (text : String) : Except Error Order := do
  let (direction, column) := match text.toList with
    | '-' :: rest => (Direction.desc, rest)
    | chars => (Direction.asc, chars)
  let field ← match splitAtFirst '.' column with
    | some (source, name) => Field.qualified (String.ofList source) (String.ofList name)
    | none => Field.unqualified (String.ofList column)
  return ⟨.ofField field, direction⟩

end Order

/-! ## Projection -/

/-- A projected expression. -/
structure Projection where
  /-- What is projected. -/
  expression : Expression
  /-- The name of the output column. -/
  alias? : Option String

namespace Projection

/-- Structural equality. -/
protected def beq (a b : Projection) : Bool :=
  a.expression == b.expression && a.alias? == b.alias?

instance : BEq Projection := ⟨Projection.beq⟩

/-- The name of the output column: the alias, or the name of a projected column without one. -/
def outputName? (p : Projection) : Option String :=
  p.alias?.or (p.expression.field?.map (·.name))

end Projection

/-! ## Aggregation -/

/-- The functions to which a query can collapse its rows. -/
inductive Aggregate
  | count | sum | avg | max | min
  deriving DecidableEq, Repr

namespace Aggregate

/-- The function that an aggregate calls. -/
def function : Aggregate → Builtin
  | count => .count
  | sum => .sum
  | avg => .avg
  | max => .max
  | min => .min

instance : Named Aggregate where
  all := [count, sum, avg, max, min]
  name a := Named.name a.function

end Aggregate

/-- An aggregate that replaces the projection of a query. -/
structure Aggregation where
  /-- The aggregate. -/
  function : Aggregate
  /-- What is aggregated; every row if nothing is given. -/
  argument : Option Expression

namespace Aggregation

/-- Structural equality. -/
protected def beq (a b : Aggregation) : Bool :=
  a.function == b.function && a.argument == b.argument

instance : BEq Aggregation := ⟨Aggregation.beq⟩

/-- The number of rows. -/
def count : Aggregation := ⟨.count, none⟩

/-- An aggregate as a function call. -/
def toExpression (a : Aggregation) : Expression :=
  .apply a.function.function [a.argument.getD .allColumns]

end Aggregation

end DialectSql
