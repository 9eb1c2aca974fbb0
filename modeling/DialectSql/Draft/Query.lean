import DialectSql.Draft.Expression
import DialectSql.Query.Scope

/-!
# Drafts of queries

Queries, sources, criteria and set operations in the spelling of a dialect. Where a dialect has no
clause that limits rows, the query is wrapped in others that number them.

## Main definitions

* `Clauses` — the clauses of a query that hold statements, ready to be written anywhere
* `Query.unpagedDraft`, `Query.pagedDraft` — a query without and with its limits
* `Query.aggregateDraft` — a query collapsed to one row
* `Query.draft`, `Source.draft`, `Criteria.draft`, `QuerySet.draft` — whole statements
-/

namespace DialectSql

/-- The symbol of the rows below an aggregate. -/
def aggregateSymbol : String := "agg_t"

/-- The symbol of the rows that are numbered by a wrapper. -/
def pagingSymbol : String := "paging_t"

/-- The symbol of the different rows that are numbered by a wrapper. -/
def distinctSymbol : String := "distinct_t"

/-- The symbol of an operand that is wrapped for a set operation. -/
def operandSymbol : String := "set_t"

/-- The clauses of a query that can hold subqueries, as functions of the setting in which they are
written. -/
structure Clauses where
  /-- What the query reads. -/
  source : Setting → Draft
  /-- The condition on the rows that are read. -/
  filter : Option (Setting → Draft)
  /-- The condition on groups. -/
  having : Option (Setting → Draft)

/-- A WHERE clause from a condition and a limit on row numbers. -/
def whereDraft (filter limit : Option Draft) : Draft :=
  match filter, limit with
  | some filter, some limit => .text " WHERE " ++ filter.parens ++ .text " AND " ++ limit
  | some filter, none => .text " WHERE " ++ filter
  | none, some limit => .text " WHERE " ++ limit
  | none, none => .empty

/-- An ORDER BY clause, unless there is nothing to order by. -/
def orderDraft (s : Setting) (orders : List Order) : Draft :=
  if orders.isEmpty then .empty
  else .text " ORDER BY " ++ .list (orders.map (·.draft s))

/-- The name of a column of row numbers. Below the outermost statement it carries the depth, so that
a `*` further out does not meet the same name twice. -/
def rowNumberName (base : String) (s : Setting) : String :=
  if s.depth = 0 then base else base ++ "_" ++ Text.natural s.depth

/-- An order of a query of different rows, for the query around them: by the output column of the
expression where it is projected, otherwise by the expression on the symbol of the rows. -/
def Order.ontoDistinct (selection : List Projection) (o : Order) : Order :=
  let column := (selection.find? (·.expression == o.expression)).bind Projection.outputName?
  match column.bind fun name => (Field.qualified distinctSymbol name).toOption with
  -- Outside of the subquery only its output columns have names.
  | some field => ⟨.ofField field, o.direction⟩
  | none => o.requalify (.onto (some distinctSymbol))

namespace Query

/-- The start of a SELECT, with a limit that stands in front of the projection. -/
def headDraft (q : Query) (top : Option UInt64) : Draft :=
  .text "SELECT " ++ (if q.distinct then .text "DISTINCT " else .empty) ++
    (match top with
      | some count => .text ("TOP " ++ Text.natural count.toNat ++ " ")
      | none => .empty)

/-- The projection; a star for every column. -/
def projectionDraft (q : Query) (s : Setting) : Draft :=
  if q.selection.isEmpty then .text "*" else .list (q.selection.map (·.draft s))

/-- FROM, WHERE, GROUP BY and HAVING. -/
def bodyDraft (q : Query) (c : Clauses) (limit : Option Draft) (s : Setting) : Draft :=
  .text " FROM " ++ c.source s ++ whereDraft (c.filter.map (· s)) limit ++
    (if q.groupBy.isEmpty then .empty
      else .text " GROUP BY " ++ .list (q.groupBy.map (·.draft s))) ++
    (match c.having with
      | some having => .text " HAVING " ++ having s
      | none => .empty)

/-- A query without limits other than those that fit into its clauses. -/
def unpagedDraft (q : Query) (c : Clauses) (top : Option UInt64) (limit : Option Draft)
    (s : Setting) : Draft :=
  q.headDraft top ++ q.projectionDraft s ++ q.bodyDraft c limit s ++ orderDraft s q.orders

/-- The orders by which rows are numbered; any order if none is given. -/
def overDraft (s : Setting) (orders : List Order) : Draft :=
  if orders.isEmpty then (Draft.text "SELECT NULL").parens
  else .list (orders.map (·.draft s))

/-- The projected row number under the name `column`. -/
def rowNumberDraft (column : String) (orders : Draft) : Draft :=
  .text ", ROW_NUMBER" ++ Draft.empty.parens ++ .text " OVER " ++
    (.text "ORDER BY " ++ orders : Draft).parens ++ .text (" AS " ++ column)

/-- The rows of a query with their numbers. Equal rows are dropped further in, because numbers would
tell them apart. -/
def numberedDraft (q : Query) (c : Clauses) (column : String) (s : Setting) : Draft :=
  if q.distinct then
    .text "SELECT *" ++
      rowNumberDraft column (overDraft s (q.orders.map (·.ontoDistinct q.selection))) ++
      .text " FROM " ++
      (q.headDraft none ++ q.projectionDraft s.nested ++ q.bodyDraft c none s.nested).parens ++
      .text (" " ++ distinctSymbol)
  else
    q.headDraft none ++ q.projectionDraft s ++ rowNumberDraft column (overDraft s q.orders) ++
      q.bodyDraft c none s

/-- Limits by `TOP` alone, or by a wrapper around numbered rows if some are skipped. The wrapper has
an order of its own where a subquery may have one. -/
def numberingDraft (q : Query) (c : Clauses) (s : Setting) : Draft :=
  match q.skip with
  | none => q.unpagedDraft c q.take none s
  | some skip =>
    let column := rowNumberName "rownum" s
    let top := match q.take with
      | some take => .text ("TOP " ++ Text.natural take.toNat ++ " ")
      | none => .empty
    -- An order without TOP is refused in a subquery.
    let order :=
      if 0 < s.depth && q.take.isNone then .empty else .text (" ORDER BY " ++ column)
    .text "SELECT " ++ top ++ .text "* FROM " ++ (q.numberedDraft c column s).parens ++
      .text (" " ++ pagingSymbol ++ " WHERE " ++ column ++ " > " ++ Text.natural skip.toNat) ++
      order

/-- The limit of the row pseudo-column. -/
def rowNumCap (cap : Nat) : Draft :=
  .text ("ROWNUM <= " ++ Text.natural cap)

/-- Limits by the row pseudo-column, which numbers rows before they are ordered. A limit alone
stands in the query itself between literals and in a wrapper between placeholders. -/
def pseudoColumnDraft (q : Query) (c : Clauses) (s : Setting) : Draft :=
  match q.skip, q.take with
  | none, none => q.unpagedDraft c none none s
  | some skip, take =>
    let column := rowNumberName "paging_rownumber" s
    let cap := match take with
      | some take => .text " WHERE " ++ rowNumCap (rowCap skip take)
      | none => .empty
    .text "SELECT * FROM " ++
      (.text ("SELECT " ++ pagingSymbol ++ ".*, ROWNUM " ++ column ++ " FROM ") ++
        (q.unpagedDraft c none none s).parens ++ .text (" " ++ pagingSymbol) ++
          cap : Draft).parens ++
      .text (" WHERE " ++ column ++ " > " ++ Text.natural skip.toNat)
  | none, some take =>
    match s.mode with
    | .bound =>
      .text "SELECT * FROM " ++ (q.unpagedDraft c none none s).parens ++ .text " WHERE " ++
        rowNumCap take.toNat
    | .inline => q.unpagedDraft c none (some (rowNumCap take.toNat)) s

/-- A closing clause, with the space before it. -/
def limitDraft : LimitClause → Draft
  | .absent => .empty
  | clause => .text clause.text

/-- A query with its limits and without its aggregate. -/
def pagedDraft (q : Query) (c : Clauses) (s : Setting) : Draft :=
  match s.dialect.rowLimiting with
  | .numbering => q.numberingDraft c s
  | .pseudoColumn => q.pseudoColumnDraft c s
  | strategy =>
    q.unpagedDraft c none none s ++
      (strategy.limitClause? q.skip q.take).elim .empty limitDraft

/-- A query collapsed to one row. Different or limited rows come from a subquery, all rows directly
from the source. -/
def aggregateDraft (q : Query) (c : Clauses) (a : Aggregation) (s : Setting) : Draft :=
  if q.distinct || q.isPaged then
    .text "SELECT " ++ (a.toExpression.relocate aggregateSymbol).draft s ++ .text " FROM " ++
      (q.pagedDraft c s.nested).parens ++ .text (" " ++ aggregateSymbol)
  else
    .text "SELECT " ++ a.toExpression.draft s ++ .text " FROM " ++ c.source s ++
      whereDraft (c.filter.map (· s)) none

/-- A query from its clauses. -/
def clausesDraft (q : Query) (c : Clauses) (s : Setting) : Draft :=
  match q.aggregation with
  | some a => q.aggregateDraft c a s
  | none => q.pagedDraft c s

end Query

/-- The keyword of a set operator. -/
def SetOperator.keyword (op : SetOperator) (d : Dialect) : Except Error String :=
  match op with
  | .intersect =>
    if d.supportsIntersectExcept then .ok op.symbol else .error (.unsupported d .intersect)
  | .except =>
    if d.supportsIntersectExcept then .ok (if d = .oracle then "MINUS" else op.symbol)
    else .error (.unsupported d .except)
  | .union | .unionAll => .ok op.symbol

/-- An operand that cannot stand beside a set operator, as the rows of a subquery. -/
def wrappedOperand (inner : Draft) : Draft :=
  .text "SELECT * FROM " ++ inner.parens ++ .text (" " ++ operandSymbol)

/-- A set operation from its operands. -/
def QuerySet.operandsDraft (s : Setting) (operator : SetOperator) (orders : List Order)
    (left right : Draft) : Draft :=
  .ofExcept (operator.keyword s.dialect) fun keyword =>
    left ++ .text (" " ++ keyword ++ " ") ++ right ++ orderDraft s orders

/-- A table with its alias. -/
def Table.draft (t : Table) : Draft :=
  match t.alias? with
  | some name => .quoted t.name ++ .text " " ++ .quoted name
  | none => .quoted t.name

/-- A subquery as a source, with its symbol. -/
def derivedDraft (inner : Draft) (symbol : String) : Draft :=
  inner.parens ++ .text " " ++ .quoted symbol

/-- Conditions under a connective, each in parentheses. -/
def Criteria.compoundDraft (op : Connective) (children : List Draft) : Draft :=
  let children := children.map Draft.parens
  match op with
  | .not => .text "NOT " ++ .joinWith "" children
  | op => .joinWith (" " ++ op.symbol ++ " ") children

mutual

/-- A condition in a setting. -/
def Criteria.draft : Criteria → Setting → Draft
  | .expression e, s => e.draft s
  | .compound op children, s => Criteria.compoundDraft op (Criteria.draftList children s)
  | .inSelect subject query op, s =>
    subject.draft s ++ .text (" " ++ op.symbol ++ " ") ++ (query.draft s.nested).parens

/-- Conditions in a setting. -/
def Criteria.draftList : List Criteria → Setting → List Draft
  | [], _ => []
  | c :: cs, s => c.draft s :: Criteria.draftList cs s

/-- An optional condition, to be written in any setting. -/
def Criteria.draftOption : Option Criteria → Option (Setting → Draft)
  | none => none
  | some c => some fun s => c.draft s

/-- A relation in a setting. -/
def Relation.draft : Relation → Setting → Draft
  | .table t, _ => t.draft
  | .select query alias?, s => derivedDraft (query.draft s.nested) (alias?.getD subqueryAlias)
  | .set set alias?, s => derivedDraft (set.draft s.nested) (alias?.getD subqueryAlias)

/-- A source in a setting. A join on the right of another is kept together by parentheses. -/
def Source.draft : Source → Setting → Draft
  | .single r, s => r.draft s
  | .joined kind left right on, s =>
    let rightDraft := right.draft s
    left.draft s ++ .text (" " ++ kind.symbol ++ " ") ++
      (if right.isJoined then rightDraft.parens else rightDraft) ++ .text " ON " ++ on.draft s

/-- A query in a setting. A query that adds nothing to a set operation is that set operation. -/
def Query.draft : Query → Setting → Draft
  | ⟨source, criteria, selection, distinct, orders, skip, take, aggregation, groupBy, having⟩, s =>
    -- The fields have names of their own, so that the recursion on the source is seen to end.
    let query : Query :=
      ⟨source, criteria, selection, distinct, orders, skip, take, aggregation, groupBy, having⟩
    let clauses : Clauses :=
      { source := fun s => source.draft s
        filter := Criteria.draftOption criteria
        having := Criteria.draftOption having }
    match source with
    | .single (.set set _) =>
      if query.isBare then set.draft s else query.clausesDraft clauses s
    | _ => query.clausesDraft clauses s

/-- An operand of a set operation. Ordered or limited queries and set operations are wrapped. -/
def SetOperand.draft : SetOperand → Setting → Draft
  | .query q, s =>
    -- Beside an operator an ORDER BY or a limit would be read as that of the whole.
    if q.orders.isEmpty && !q.isPaged then q.draft s else wrappedOperand (q.draft s.nested)
  | .set set, s => wrappedOperand (set.draft s.nested)

/-- A set operation in a setting. -/
def QuerySet.draft : QuerySet → Setting → Draft
  | ⟨operator, left, right, orders⟩, s =>
    QuerySet.operandsDraft s operator orders (left.draft s) (right.draft s)

end

end DialectSql
