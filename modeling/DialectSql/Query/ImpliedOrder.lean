import DialectSql.Query.NaturalOrder

/-!
# Implied orders

Where rows are skipped by their number, the numbers need an order. A query that skips rows and asks
for no order then implies the natural order of its source. This module makes the implied orders
explicit throughout a statement, the innermost queries first, and leaves a query alone whose source
guarantees no order.

## Main definitions

* `Query.implyOrder` — one query with its implied order
* `Query.implyOrders`, `Source.implyOrders`, … — a statement with all implied orders
-/

namespace DialectSql

/-- A query that skips rows and asks for no order with the natural order of its source, if that has
one; every other query as it is. -/
def Query.implyOrder (q : Query) : Query :=
  if q.skip.isSome && q.orders.isEmpty then
    -- A failure is no error here: the rows are then numbered in any order.
    let bubbled := q.bubbleSourceOrder
    if bubbled.failure.isNone then bubbled.node else q
  else q

mutual

/-- A condition with the implied orders of its subqueries. -/
def Criteria.implyOrders : Criteria → Criteria
  | .expression e => .expression e
  | .compound op children => .compound op (Criteria.implyOrdersList children)
  | .inSelect subject query op => .inSelect subject query.implyOrders op

/-- Conditions with the implied orders of their subqueries. -/
def Criteria.implyOrdersList : List Criteria → List Criteria
  | [] => []
  | c :: cs => c.implyOrders :: Criteria.implyOrdersList cs

/-- An optional condition with the implied orders of its subqueries. -/
def Criteria.implyOrdersOption : Option Criteria → Option Criteria
  | none => none
  | some c => some c.implyOrders

/-- A relation with its implied orders. -/
def Relation.implyOrders : Relation → Relation
  | .table t => .table t
  | .select query alias? => .select query.implyOrders alias?
  | .set s alias? => .set s.implyOrders alias?

/-- A source with its implied orders. -/
def Source.implyOrders : Source → Source
  | .single r => .single r.implyOrders
  | .joined kind left right on =>
    .joined kind left.implyOrders right.implyOrders on.implyOrders

/-- A query with its implied orders. -/
def Query.implyOrders : Query → Query
  | ⟨source, criteria, selection, distinct, orders, skip, take, aggregation, groupBy, having⟩ =>
    -- The clauses come first, because an implied order of the source can be bubbled further.
    Query.implyOrder
      ⟨source.implyOrders, Criteria.implyOrdersOption criteria, selection, distinct, orders, skip,
        take, aggregation, groupBy, Criteria.implyOrdersOption having⟩

/-- An operand of a set operation with its implied orders. -/
def SetOperand.implyOrders : SetOperand → SetOperand
  | .query q => .query q.implyOrders
  | .set s => .set s.implyOrders

/-- A set operation with its implied orders. -/
def QuerySet.implyOrders : QuerySet → QuerySet
  | ⟨operator, left, right, orders⟩ =>
    ⟨operator, left.implyOrders, right.implyOrders, orders⟩

end

end DialectSql
