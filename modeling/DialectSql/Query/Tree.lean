import DialectSql.Query.Clause

/-!
# Statement trees

Queries, the sources they read, the criteria that filter them and the set operations that combine
them. The types refer to each other, so they are declared together.

## Main definitions

* `Criteria` — a condition
* `Relation` — a single source: a table, a subquery or a set operation
* `Source` — a relation or a join
* `Query`, `SetOperand`, `QuerySet` — a SELECT, and the combination of several
* `Query.beq` and its companions — structural equality, with floats compared as numbers
-/

namespace DialectSql

/-- The kinds of joins. -/
inductive JoinKind
  | inner | left | right
  deriving DecidableEq, Repr

namespace JoinKind

/-- The SQL keyword. -/
def symbol : JoinKind → String
  | inner => "INNER JOIN"
  | left => "LEFT JOIN"
  | right => "RIGHT JOIN"

instance : Named JoinKind where
  all := [inner, left, right]
  name
    | inner => "Inner"
    | left => "Left"
    | right => "Right"

end JoinKind

/-- The operators that combine the rows of two queries. -/
inductive SetOperator
  | union | unionAll | intersect | except
  deriving DecidableEq, Repr

namespace SetOperator

/-- The keyword of the SQL standard. -/
def symbol : SetOperator → String
  | union => "UNION"
  | unionAll => "UNION ALL"
  | intersect => "INTERSECT"
  | except => "EXCEPT"

instance : Named SetOperator where
  all := [union, unionAll, intersect, except]
  name
    | union => "Union"
    | unionAll => "UnionAll"
    | intersect => "Intersect"
    | except => "Except"

end SetOperator

/-- A table or view. -/
structure Table where
  /-- The name. -/
  name : String
  /-- The alias. -/
  alias? : Option String
  /-- The order in which the rows are stored, by columns without a source. -/
  storingOrder : List Order

/-- Structural equality. -/
def Table.beq (a b : Table) : Bool :=
  a.name == b.name && a.alias? == b.alias? && a.storingOrder == b.storingOrder

instance : BEq Table := ⟨Table.beq⟩

mutual

/-- A condition. -/
inductive Criteria
  /-- A boolean expression. -/
  | expression (expression : Expression)
  /-- Conditions under a connective. -/
  | compound (op : Connective) (children : List Criteria)
  /-- Membership of an expression in the rows of a subquery. -/
  | inSelect (subject : Expression) (query : Query) (op : Membership)

/-- A single source, which can have an alias. -/
inductive Relation
  /-- A table. -/
  | table (table : Table)
  /-- A subquery. -/
  | select (query : Query) (alias? : Option String)
  /-- A set operation. -/
  | set (set : QuerySet) (alias? : Option String)

/-- What a statement reads. -/
inductive Source
  /-- A single source. -/
  | single (relation : Relation)
  /-- Two sources joined on a condition. -/
  | joined (kind : JoinKind) (left right : Source) (on : Criteria)

/-- A SELECT statement. -/
structure Query where
  /-- What the query reads. -/
  source : Source
  /-- The condition on the rows that are read. -/
  criteria : Option Criteria
  /-- What is projected; every column if the list is empty. -/
  selection : List Projection
  /-- Whether equal rows are returned once. -/
  distinct : Bool
  /-- The order of the rows. -/
  orders : List Order
  /-- The number of rows that are skipped. -/
  skip : Option UInt64
  /-- The number of rows that are returned at most. -/
  take : Option UInt64
  /-- An aggregate that replaces the projection. -/
  aggregation : Option Aggregation
  /-- What rows are grouped by. -/
  groupBy : List Expression
  /-- The condition on groups. -/
  having : Option Criteria

/-- One side of a set operation. -/
inductive SetOperand
  | query (query : Query)
  | set (set : QuerySet)

/-- The rows of two operands combined. -/
structure QuerySet where
  /-- The operator. -/
  operator : SetOperator
  /-- The left operand. -/
  left : SetOperand
  /-- The right operand. -/
  right : SetOperand
  /-- The order of the combined rows, by output columns. -/
  orders : List Order

end

/-! ## Equality -/

mutual

/-- Structural equality. -/
def Criteria.beq : Criteria → Criteria → Bool
  | .expression a, .expression b => a == b
  | .compound p as, .compound q bs => p == q && Criteria.listBeq as bs
  | .inSelect a q p, .inSelect b r s => a == b && Query.beq q r && p == s
  | _, _ => false

/-- Structural equality of lists of criteria. -/
def Criteria.listBeq : List Criteria → List Criteria → Bool
  | [], [] => true
  | a :: as, b :: bs => Criteria.beq a b && Criteria.listBeq as bs
  | _, _ => false

/-- Structural equality of optional criteria. -/
def Criteria.optionBeq : Option Criteria → Option Criteria → Bool
  | none, none => true
  | some a, some b => Criteria.beq a b
  | _, _ => false

/-- Structural equality. -/
def Relation.beq : Relation → Relation → Bool
  | .table a, .table b => a == b
  | .select q a, .select r b => Query.beq q r && a == b
  | .set s a, .set t b => QuerySet.beq s t && a == b
  | _, _ => false

/-- Structural equality. -/
def Source.beq : Source → Source → Bool
  | .single a, .single b => Relation.beq a b
  | .joined k a b c, .joined l d e f =>
    k == l && Source.beq a d && Source.beq b e && Criteria.beq c f
  | _, _ => false

/-- Structural equality. -/
def Query.beq : Query → Query → Bool
  | ⟨source, criteria, selection, distinct, orders, skip, take, aggregation, groupBy, having⟩,
    ⟨source', criteria', selection', distinct', orders', skip', take', aggregation', groupBy',
      having'⟩ =>
    Source.beq source source' && Criteria.optionBeq criteria criteria' &&
      selection == selection' && distinct == distinct' && orders == orders' && skip == skip' &&
      take == take' && aggregation == aggregation' && groupBy == groupBy' &&
      Criteria.optionBeq having having'

/-- Structural equality. -/
def SetOperand.beq : SetOperand → SetOperand → Bool
  | .query q, .query r => Query.beq q r
  | .set s, .set t => QuerySet.beq s t
  | _, _ => false

/-- Structural equality. -/
def QuerySet.beq : QuerySet → QuerySet → Bool
  | ⟨operator, left, right, orders⟩, ⟨operator', left', right', orders'⟩ =>
    operator == operator' && SetOperand.beq left left' && SetOperand.beq right right' &&
      orders == orders'

end

instance : BEq Criteria := ⟨Criteria.beq⟩
instance : BEq Relation := ⟨Relation.beq⟩
instance : BEq Source := ⟨Source.beq⟩
instance : BEq Query := ⟨Query.beq⟩
instance : BEq SetOperand := ⟨SetOperand.beq⟩
instance : BEq QuerySet := ⟨QuerySet.beq⟩

end DialectSql
