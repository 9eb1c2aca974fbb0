import DialectSql.Query.Source

/-!
# Building queries

The steps in which applications put queries and set operations together.

## Main definitions

* `Query.ofSource`, `Query.ofTable` — every column of a source
* `Query.filter`, `Query.project`, `Query.orderBy`, … — one clause more
* `Query.isSetWrapper` — whether a query adds nothing to the set operation it reads
* `Query.isPaged` — whether rows are skipped or limited
* `QuerySet.combine` — two operands under an operator
-/

namespace DialectSql

namespace Query

/-- Every column of a source. -/
def ofSource (source : Source) : Query where
  source := source
  criteria := none
  selection := []
  distinct := false
  orders := []
  skip := none
  take := none
  aggregation := none
  groupBy := []
  having := none

/-- Every column of a table. -/
def ofTable (name : String) : Query := ofSource (.ofTable name)

/-- One condition more on the rows that are read. -/
def filter (q : Query) (c : Criteria) : Query :=
  { q with criteria := some (Criteria.conjoin q.criteria c) }

/-- Another projection. -/
def select (q : Query) (items : List Projection) : Query :=
  { q with selection := items }

/-- One projected expression more. -/
def project (q : Query) (e : Expression) (alias? : Option String) : Query :=
  { q with selection := q.selection ++ [⟨e, alias?⟩] }

/-- Equal rows once. -/
def withDistinct (q : Query) : Query := { q with distinct := true }

/-- One order more, behind those that are there. -/
def orderBy (q : Query) (order : Order) : Query :=
  { q with orders := q.orders ++ [order] }

/-- Another number of skipped rows. -/
def withSkip (q : Query) (count : UInt64) : Query := { q with skip := some count }

/-- Another limit of rows. -/
def withTake (q : Query) (count : UInt64) : Query := { q with take := some count }

/-- An aggregate in place of the projection. -/
def aggregate (q : Query) (aggregation : Aggregation) : Query :=
  { q with aggregation := some aggregation }

/-- One grouping expression more. -/
def grouped (q : Query) (e : Expression) : Query := { q with groupBy := q.groupBy ++ [e] }

/-- One condition more on the groups. -/
def withHaving (q : Query) (c : Criteria) : Query :=
  { q with having := some (Criteria.conjoin q.having c) }

/-- Whether rows are skipped or limited. -/
def isPaged (q : Query) : Bool := q.skip.isSome || q.take.isSome

/-- Whether a query has no clause but its source. -/
def isBare (q : Query) : Bool :=
  q.selection.isEmpty && q.criteria.isNone && q.groupBy.isEmpty && q.having.isNone &&
    q.orders.isEmpty && q.skip.isNone && q.take.isNone && q.aggregation.isNone && !q.distinct

/-- Whether a query adds nothing to the set operation that it reads. -/
def isSetWrapper (q : Query) : Bool :=
  match q.source with
  | .single (.set _ _) => q.isBare
  | _ => false

end Query

namespace QuerySet

/-- Two operands under an operator, in no order. -/
def combine (operator : SetOperator) (left right : SetOperand) : QuerySet :=
  ⟨operator, left, right, []⟩

/-- One order more, behind those that are there. -/
def orderBy (s : QuerySet) (order : Order) : QuerySet :=
  { s with orders := s.orders ++ [order] }

end QuerySet

end DialectSql
