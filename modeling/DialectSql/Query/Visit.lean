import DialectSql.Query.Scope

/-!
# Visits

The nodes of a scope in the order in which a walk over the statement meets them, each before its
children: what `Query.requalify` reaches, and the operators above.

## Main definitions

* `Visit` — a node as the walk records it
* `Visit.text` — a record as text
* `Expression.visits`, `Criteria.visits`, `Source.visits`, `Query.visits` — the walks
-/

namespace DialectSql

/-- A node met on a walk. -/
inductive Visit
  | expression (kind : ExpressionKind)
  | field (field : Field)
  | wildcard (source : Option String)
  | criteria (criteria : Criteria)
  | source (source : Source)
  | order (direction : Direction)

/-- The kind of a condition. -/
def Criteria.label : Criteria → String
  | .expression _ => "Expression"
  | .compound op _ => op.symbol
  | .inSelect _ _ _ => "InSelect"

/-- A record as text; a dash stands for a missing qualifier. -/
def Visit.text : Visit → String
  | expression kind => "expression " ++ Named.name kind
  | field f => "field " ++ f.source.getD "-" ++ "/" ++ f.name
  | wildcard qualifier => "wildcard " ++ qualifier.getD "-"
  | criteria c => "criteria " ++ c.label
  | source s => "source " ++ s.description
  | order direction => "order " ++ direction.symbol

namespace Expression

mutual

/-- The walk over an expression. -/
def visits (e : Expression) : List Visit :=
  .expression e.kind :: match e with
    | constant _ => []
    | field f _ => [.field f]
    | arithmetic _ left right => left.visits ++ right.visits
    | comparison _ left right => left.visits ++ right.visits
    | logic _ left right => left.visits ++ right.visits
    | bitwise _ left right => left.visits ++ right.visits
    | unary _ operand => operand.visits
    | like subject pattern _ => subject.visits ++ pattern.visits
    | membership _ subject _ => subject.visits
    | call _ args _ => visitsList args
    | wildcard source => [.wildcard source]

/-- The walk over a list of expressions. -/
def visitsList : List Expression → List Visit
  | [] => []
  | e :: es => e.visits ++ visitsList es

end

end Expression

mutual

/-- The walk over a condition; subqueries are not entered. -/
def Criteria.visits (c : Criteria) : List Visit :=
  .criteria c :: match c with
    | .expression e => e.visits
    | .compound _ children => Criteria.visitsList children
    | .inSelect subject _ _ => subject.visits

/-- The walk over a list of conditions. -/
def Criteria.visitsList : List Criteria → List Visit
  | [] => []
  | c :: cs => c.visits ++ Criteria.visitsList cs

end

/-- The walk over a source; subqueries are not entered. -/
def Source.visits (s : Source) : List Visit :=
  .source s :: match s with
    | .single _ => []
    | .joined _ left right on => left.visits ++ right.visits ++ on.visits

/-- The walk over an order. -/
def Order.visits (o : Order) : List Visit :=
  .order o.direction :: o.expression.visits

/-- The walk over the clauses of a query, in the order in which they are written. -/
def Query.visits (q : Query) : List Visit :=
  q.selection.flatMap (·.expression.visits) ++
    (q.aggregation.bind (·.argument)).elim [] Expression.visits ++
    q.source.visits ++
    q.criteria.elim [] Criteria.visits ++
    q.groupBy.flatMap Expression.visits ++
    q.having.elim [] Criteria.visits ++
    q.orders.flatMap Order.visits

end DialectSql
