import DialectSql.Proofs.NaturalOrder
import DialectSql.Statement

/-!
# The shape of what is bubbled

Bubbling works its way through subqueries that read subqueries, and ends at a table, a set operation
or a join. Whether it succeeds or breaks off, it changes the orders and the projections on this way
and nothing else, so that no query is nested more deeply than before.

## Main definitions

* `Query.stripped`, `Relation.stripped` — a tree without what bubbling may change
* `Query.depth`, `Statement.depth`, … — how many queries are nested in each other

## Main results

* `Query.stripped_bubbleSourceOrder` — bubbling keeps everything else
* `Query.depth_bubbleSourceOrder` — bubbling keeps the nesting
-/

namespace DialectSql

/-! ## What bubbling keeps -/

mutual

/-- A relation without the orders and projections that bubbling may change: those of the subqueries
on its way, and the orders of the set operation at the end of it. -/
def Relation.stripped : Relation → Relation
  | .table t => .table t
  | .select query alias? => .select { query.stripped with selection := [] } alias?
  | .set ⟨operator, left, right, _⟩ alias? => .set ⟨operator, left, right, []⟩ alias?

/-- A source without them; the way ends at a join. -/
def Source.stripped : Source → Source
  | .single r => .single r.stripped
  | .joined kind left right on => .joined kind left right on

/-- A query without them and without its own orders. -/
def Query.stripped : Query → Query
  | ⟨source, criteria, selection, distinct, _, skip, take, aggregation, groupBy, having⟩ =>
    ⟨source.stripped, criteria, selection, distinct, [], skip, take, aggregation, groupBy, having⟩

end

/-- A query whose orders are lifted keeps all clauses but its orders and its projection. -/
theorem Query.stripped_liftOrders (q : Query) (symbol : String) :
    { (q.liftOrders symbol).node.stripped with selection := [] } =
      { q.stripped with selection := [] } := by
  cases q
  rfl

mutual

/-- Whatever lifting its order does to a relation, it keeps all but orders and projections. -/
theorem Relation.stripped_lifted : ∀ r : Relation, r.lifted.node.stripped = r.stripped
  | .table _ => rfl
  | .select q alias? => by
    have hsource := Query.stripped_bubbleSourceOrder q
    -- The subquery may have been bubbled before its orders are lifted.
    have hkept : { (q.bubbleThrough (alias?.getD subqueryAlias)
        q.bubbleSourceOrder).node.stripped with selection := [] } =
        { q.stripped with selection := [] } := Query.bubbleThrough_induction
      (P := fun b => ({ b.node.stripped with selection := [] } : Query) =
        { q.stripped with selection := [] })
      (fun _ => congrArg (fun q : Query => { q with selection := [] }) hsource)
      ((Query.stripped_liftOrders _ _).trans
        (congrArg (fun q : Query => { q with selection := [] }) hsource))
      (q.stripped_liftOrders _)
    exact congrArg (Relation.select · alias?) hkept
  | .set ⟨operator, left, right, closing⟩ alias? => by
    rw [Relation.lifted]
    unfold QuerySet.liftOrders
    split <;> rfl

/-- Whatever bubbling does to a query, it keeps all but orders and projections. -/
theorem Query.stripped_bubbleSourceOrder :
    ∀ q : Query, q.bubbleSourceOrder.node.stripped = q.stripped
  | ⟨.single r, criteria, selection, distinct, orders, skip, take, aggregation, groupBy,
      having⟩ => by
    have hsource : (r.bubbleOrder orders).node.stripped = r.stripped :=
      Relation.bubbleOrder_induction (P := fun b => b.node.stripped = r.stripped) (fun _ => rfl)
        (fun _ => rfl) (Relation.stripped_lifted r)
    simp only [Query.bubbleSourceOrder, Source.bubbleOrder, Bubbled.map, Query.stripped,
      Source.stripped, hsource]
  | ⟨.joined _ _ _ _, _, _, _, _, _, _, _, _, _⟩ => rfl

end

/-! ## Nesting -/

mutual

/-- How many queries are nested in each other in a condition. -/
def Criteria.depth : Criteria → Nat
  | .expression _ => 0
  | .compound _ children => Criteria.depthList children
  | .inSelect _ query _ => query.depth

/-- How many queries are nested in each other in one of some conditions. -/
def Criteria.depthList : List Criteria → Nat
  | [] => 0
  | c :: cs => max c.depth (Criteria.depthList cs)

/-- How many queries are nested in each other in an optional condition. -/
def Criteria.depthOption : Option Criteria → Nat
  | none => 0
  | some c => c.depth

/-- How many queries are nested in each other in a relation. -/
def Relation.depth : Relation → Nat
  | .table _ => 0
  | .select query _ => query.depth
  | .set set _ => set.depth

/-- How many queries are nested in each other in a source. -/
def Source.depth : Source → Nat
  | .single r => r.depth
  | .joined _ left right on => max left.depth (max right.depth on.depth)

/-- How many queries are nested in each other, from a query inwards. -/
def Query.depth : Query → Nat
  | ⟨source, criteria, _, _, _, _, _, _, _, having⟩ =>
    max source.depth (max (Criteria.depthOption criteria) (Criteria.depthOption having)) + 1

/-- How many queries are nested in each other in an operand. -/
def SetOperand.depth : SetOperand → Nat
  | .query q => q.depth
  | .set s => s.depth

/-- How many queries are nested in each other in a set operation, whose operands are side by
side. -/
def QuerySet.depth : QuerySet → Nat
  | ⟨_, left, right, _⟩ => max left.depth right.depth

end

/-- How many queries are nested in each other in a change. -/
def Change.depth (c : Change) : Nat := max c.source.depth (Criteria.depthOption c.criteria)

/-- How many queries are nested in each other in a statement. -/
def Statement.depth : Statement → Nat
  | query q => q.depth
  | set s => s.depth
  | change c => c.depth

/-- From a query inwards there is one level more than in its clauses. -/
theorem Query.depth_eq (q : Query) :
    q.depth = max q.source.depth
      (max (Criteria.depthOption q.criteria) (Criteria.depthOption q.having)) + 1 := by
  cases q
  rfl

/-- A projection nests nothing. -/
theorem Query.depth_withSelection (q : Query) (selection : List Projection) :
    { q with selection := selection }.depth = q.depth := by
  rw [depth_eq, depth_eq]

mutual

/-- Orders and projections nest nothing. -/
theorem Relation.depth_stripped : ∀ r : Relation, r.stripped.depth = r.depth
  | .table _ => rfl
  | .select q _ => (q.stripped.depth_withSelection []).trans (Query.depth_stripped q)
  | .set ⟨_, _, _, _⟩ _ => rfl

/-- Orders and projections nest nothing. -/
theorem Query.depth_stripped : ∀ q : Query, q.stripped.depth = q.depth
  | ⟨.single r, _, _, _, _, _, _, _, _, _⟩ => by
    simp only [Query.stripped, Source.stripped, Query.depth, Source.depth, r.depth_stripped]
  | ⟨.joined _ _ _ _, _, _, _, _, _, _, _, _, _⟩ => rfl

end

/-- Whether bubbling succeeds or breaks off, queries are nested neither more deeply nor less. -/
theorem Query.depth_bubbleSourceOrder (q : Query) : q.bubbleSourceOrder.node.depth = q.depth := by
  rw [← depth_stripped, stripped_bubbleSourceOrder, depth_stripped]

/-- A query that takes over an implied order is nested as before. -/
theorem Query.depth_implyOrder (q : Query) : q.implyOrder.depth = q.depth := by
  rcases q.implyOrder_eq with heq | ⟨-, heq⟩
  · rw [heq]
  · rw [heq, depth_bubbleSourceOrder]

end DialectSql
