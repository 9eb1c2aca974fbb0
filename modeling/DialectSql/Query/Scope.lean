import DialectSql.Query.Build

/-!
# Scopes

The references of a statement to its own sources: the fields and wildcards outside its subqueries,
which have a scope of their own. Requalifying a scope changes the qualifiers of its references, and
the aliases of the sources if they are meant too.

## Main definitions

* `Requalification` — what becomes of each qualifier and of each source
* `Expression.requalify`, `Query.requalify`, … — a requalification at work
* `Requalification.onto` — every field moved onto one source
* `Requalification.prefixing` — every qualifier and alias prefixed
* `Query.prefixAliases` — a query whose aliases cannot clash with others
-/

namespace DialectSql

/-- What becomes of the references of a scope. -/
structure Requalification where
  /-- The new qualifier of a field. -/
  fieldSource : Option String → Option String
  /-- The new qualifier of a wildcard. -/
  wildcardSource : Option String → Option String
  /-- What becomes of a source of the scope. -/
  relation : Relation → Relation

namespace Requalification

/-- Every field onto one source, or onto none; wildcards and sources stay. -/
def onto (target : Option String) : Requalification where
  fieldSource _ := target
  wildcardSource source := source
  relation r := r

/-- A text in front of every qualifier and every symbol; what has no qualifier stays. -/
def prefixing (text : String) : Requalification where
  fieldSource source := source.map (text ++ ·)
  wildcardSource source := source.map (text ++ ·)
  relation r := r.prefixAlias text

end Requalification

/-- A column reference requalified. -/
def Field.requalify (r : Requalification) (f : Field) : Field :=
  f.withSource (r.fieldSource f.source)

namespace Expression

mutual

/-- An expression with its references requalified. -/
def requalify (r : Requalification) : Expression → Expression
  | constant value => constant value
  | field f type => field (f.requalify r) type
  | arithmetic op left right => arithmetic op (left.requalify r) (right.requalify r)
  | comparison op left right => comparison op (left.requalify r) (right.requalify r)
  | logic op left right => logic op (left.requalify r) (right.requalify r)
  | bitwise op left right => bitwise op (left.requalify r) (right.requalify r)
  | unary op operand => unary op (operand.requalify r)
  | like subject pattern mode => like (subject.requalify r) (pattern.requalify r) mode
  | membership op subject values => membership op (subject.requalify r) values
  | call function args distinct => call function (requalifyList r args) distinct
  | wildcard source => wildcard (r.wildcardSource source)

/-- Expressions with their references requalified. -/
def requalifyList (r : Requalification) : List Expression → List Expression
  | [] => []
  | e :: es => e.requalify r :: requalifyList r es

end

/-- An expression with every field moved onto the source `target`. -/
def relocate (target : String) (e : Expression) : Expression :=
  e.requalify (.onto (some target))

end Expression

/-- An order with its references requalified. -/
def Order.requalify (r : Requalification) (o : Order) : Order :=
  { o with expression := o.expression.requalify r }

/-- A projected expression with its references requalified; its output name stays. -/
def Projection.requalify (r : Requalification) (p : Projection) : Projection :=
  { p with expression := p.expression.requalify r }

/-- An aggregate with the references of its argument requalified. -/
def Aggregation.requalify (r : Requalification) (a : Aggregation) : Aggregation :=
  { a with argument := a.argument.map (·.requalify r) }

mutual

/-- A condition with its references requalified; subqueries are not entered. -/
def Criteria.requalify (r : Requalification) : Criteria → Criteria
  | .expression e => .expression (e.requalify r)
  | .compound op children => .compound op (Criteria.requalifyList r children)
  | .inSelect subject query op => .inSelect (subject.requalify r) query op

/-- Conditions with their references requalified. -/
def Criteria.requalifyList (r : Requalification) : List Criteria → List Criteria
  | [] => []
  | c :: cs => c.requalify r :: Criteria.requalifyList r cs

end

/-- A source with its relations and join conditions requalified; subqueries are not entered. -/
def Source.requalify (r : Requalification) : Source → Source
  | .single relation => .single (r.relation relation)
  | .joined kind left right on =>
    .joined kind (left.requalify r) (right.requalify r) (on.requalify r)

/-- A query with the references of all its clauses requalified. -/
def Query.requalify (r : Requalification) (q : Query) : Query :=
  { q with
    source := q.source.requalify r
    criteria := q.criteria.map (·.requalify r)
    selection := q.selection.map (·.requalify r)
    orders := q.orders.map (·.requalify r)
    aggregation := q.aggregation.map (·.requalify r)
    groupBy := q.groupBy.map (·.requalify r)
    having := q.having.map (·.requalify r) }

/-- A query with a text in front of each of its aliases, and its references to match. -/
def Query.prefixAliases (text : String) (q : Query) : Query :=
  q.requalify (.prefixing text)

end DialectSql
