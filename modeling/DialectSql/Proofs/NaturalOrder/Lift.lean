import DialectSql.Proofs.NaturalOrder.Exposure
import DialectSql.Proofs.Requalification

/-!
# Lifted orders

A query that takes over the order of its source lifts it one level up. A table lends its storing
order, with every field moved onto its symbol. A subquery or a set operation gives an order by a
plain column for each order that it has itself, and a subquery without orders takes over those of
its own source first. So orders are lifted from level to level, none is lost, and no two change
places.

What this leaves of each level is said by a relation that follows the sources inwards. A subquery
keeps its orders only if it needs them to cut off rows, and its projection grows at most.

## Main definitions

* `Order.MovedOnto` — an order with every field of it moved onto a symbol
* `Relation.Lifts` — a relation in front of a lift and behind it, and the orders that were lifted
* `Query.Orders` — a query in front of its natural order and with it

## Main results

* `Query.lifts_bubbleSourceOrder` — what a query and its source are like behind a lift, and that
  there is no second one
-/

namespace DialectSql

open Requalification (erasing)

/-! ## Orders on a symbol -/

/-- The same column of the source `symbol`; a wildcard stays. -/
def Reference.movedOnto (symbol : String) : Reference → Reference
  | field f => field (f.withSource (some symbol))
  | wildcard source => wildcard source

/-- An order with every field of its expression moved onto `symbol`, and nothing else changed. -/
structure Order.MovedOnto (symbol : String) (o outer : Order) : Prop where
  /-- The direction is the same. -/
  direction : outer.direction = o.direction
  /-- Without qualifiers the expression is the same. -/
  outline : outer.expression.requalify erasing = o.expression.requalify erasing
  /-- The references are those of the expression, in the same places. -/
  references : outer.expression.references = o.expression.references.map (·.movedOnto symbol)

theorem Order.movedOnto_requalify (symbol : String) (o : Order) :
    o.MovedOnto symbol (o.requalify (.onto (some symbol))) where
  direction := rfl
  outline := o.expression.requalify_requalify (.onto (some symbol)) erasing
  references := by
    refine (o.expression.references_requalify _).trans (List.map_congr_left fun reference _ => ?_)
    cases reference <;> rfl

/-! ## Levels -/

mutual

/-- What becomes of a relation whose natural order is lifted, and the orders that it gives. -/
inductive Relation.Lifts : Relation → List Order → Relation → Prop
  /-- A table lends its storing order and stays as it is. -/
  | table {t : Table} {orders : List Order}
      (horders : List.Forall₂ (Order.MovedOnto t.symbol) t.storingOrder orders) :
      Relation.Lifts (.table t) orders (.table t)
  /-- A subquery with its natural order gives a column for each of these, and keeps them only if
  they decide which rows are cut off. -/
  | select {q ordered : Query} {alias? : Option String} {orders : List Order}
      {selection : List Projection} (hordered : Query.Orders q ordered)
      (horders : List.Forall₂ (Order.ByColumn (Relation.select q alias?).symbol) ordered.orders
        orders) (hselection : Projection.Grows ordered.selection selection) :
      Relation.Lifts (.select q alias?) orders
        (.select
          { ordered with
            selection := selection
            orders := if ordered.isPaged then ordered.orders else [] } alias?)
  /-- A set operation gives a column for each of its orders and keeps none. -/
  | set {s : QuerySet} {alias? : Option String} {orders : List Order}
      (horders : List.Forall₂ (Order.ByColumn (Relation.set s alias?).symbol) s.orders orders) :
      Relation.Lifts (.set s alias?) orders (.set { s with orders := [] } alias?)

/-- What becomes of a query that is brought into its natural order. -/
inductive Query.Orders : Query → Query → Prop
  /-- The orders of the query itself. -/
  | own {q : Query} (h : q.orders ≠ []) : Query.Orders q q
  /-- The orders of its source, if it has none. -/
  | taken {q : Query} {r r' : Relation} {orders : List Order} (hnone : q.orders = [])
      (hsource : q.source = .single r) (hlifts : Relation.Lifts r orders r')
      (hsome : orders ≠ []) : Query.Orders q { q with source := .single r', orders := orders }

end

/-- A query in its natural order is ordered. -/
theorem Query.Orders.orders_ne_nil {q ordered : Query} (h : q.Orders ordered) :
    ordered.orders ≠ [] := by
  cases h with
  | own h => exact h
  | taken _ _ _ hsome => exact hsome

/-- Where orders are lifted to columns, there is one outside if there is one inside. -/
theorem ne_nil_of_byColumn {symbol : String} {orders outer : List Order}
    (h : List.Forall₂ (Order.ByColumn symbol) orders outer) (hne : orders ≠ []) : outer ≠ [] := by
  rintro rfl
  exact hne (List.forall₂_nil_right_iff.mp h)

mutual

/-- If the order of a relation is lifted, then it has one, and nothing else happens to it. -/
theorem Relation.lifts_bubbleOrder :
    ∀ r : Relation, (r.bubbleOrder []).failure = none →
      (r.bubbleOrder []).orders ≠ [] ∧ r.Lifts (r.bubbleOrder []).orders (r.bubbleOrder []).node
  | .table t, h => by
    rw [Relation.bubbleOrder, if_neg (by simp)] at h ⊢
    split at h
    · cases h
    · next hstored =>
      rw [if_neg hstored]
      -- Each storing order is moved onto the symbol of the table.
      refine ⟨by simpa using hstored, .table ?_⟩
      rw [List.forall₂_map_right_iff, List.forall₂_same]
      exact fun o _ => o.movedOnto_requalify t.symbol
  | .select q alias?, h => by
    obtain ⟨hsource, hlift, heq⟩ := Relation.bubbleOrder_select_success h
    -- The natural order is the own one, or what the source gives where there is none.
    have hordered : q.Orders q.ordered := by
      unfold Query.ordered
      split
      · next hempty =>
        have hnone : q.orders = [] := List.isEmpty_iff.mp hempty
        exact Query.orders_bubbleSourceOrder q hnone (hsource hnone)
      · next hempty => exact .own (by simpa using hempty)
    have horders := byColumn_exposeOrders hlift
    rw [heq]
    exact ⟨ne_nil_of_byColumn horders hordered.orders_ne_nil,
      .select hordered horders (Projection.grows_exposeOrders _ _ 0 _)⟩
  | .set s alias?, h => by
    obtain ⟨operator, left, right, closing⟩ := s
    rw [Relation.bubbleOrder, if_neg (by simp)] at h ⊢
    split at h
    · cases h
    · next hclosing =>
      rw [if_neg hclosing]
      unfold QuerySet.liftOrders at h ⊢
      split at h
      · next lifted hlifted =>
        -- The orders are by columns, which keep their names outside of the set operation.
        have horders := byColumn_liftSetOrders hlifted
        exact ⟨ne_nil_of_byColumn horders (by simpa using hclosing), .set horders⟩
      · cases h

/-- If the order of its source is lifted to a query, then it is brought into its natural order. -/
theorem Query.orders_bubbleSourceOrder :
    ∀ q : Query, q.orders = [] → q.bubbleSourceOrder.failure = none →
      q.Orders q.bubbleSourceOrder.node
  | ⟨.single r, criteria, selection, distinct, [], skip, take, aggregation, groupBy, having⟩,
    _, h => by
    obtain ⟨hsome, hlifts⟩ := Relation.lifts_bubbleOrder r h
    exact .taken rfl rfl hlifts hsome
  | ⟨.joined _ _ _ _, _, _, _, _, _, _, _, _, _⟩, _, h => by cases h

end

/-- Where there is an order already, none is lifted and nothing happens. -/
theorem Relation.bubbleOrder_of_ordered (r : Relation) {orders : List Order} (h : orders ≠ []) :
    r.bubbleOrder orders = ⟨r, orders, some .orderAlreadyDefined⟩ := by
  have hempty : (!orders.isEmpty) = true := by simpa using h
  cases r <;> rw [Relation.bubbleOrder, if_pos hempty]

/-- If a query takes over the order of its source, then that is a single relation, whose natural
order is lifted. The query is ordered, and has no other clause changed. A second time it is refused
because there is an order, and nothing happens. -/
theorem Query.lifts_bubbleSourceOrder {q : Query} (h : q.bubbleSourceOrder.failure = none) :
    (q.orders = [] ∧ ∃ r r' orders, q.source = .single r ∧ r.Lifts orders r' ∧ orders ≠ [] ∧
      q.bubbleSourceOrder.node = { q with source := .single r', orders := orders }) ∧
    q.bubbleSourceOrder.node.bubbleSourceOrder.failure = some .orderAlreadyDefined ∧
    q.bubbleSourceOrder.node.bubbleSourceOrder.node = q.bubbleSourceOrder.node := by
  obtain ⟨source, criteria, selection, distinct, orders, skip, take, aggregation, groupBy,
    having⟩ := q
  have hnone : orders = [] := Source.eq_nil_of_bubbleOrder_success h
  subst hnone
  cases source with
  | joined kind left right on => cases h
  | single r =>
    obtain ⟨hsome, hlifts⟩ := Relation.lifts_bubbleOrder r h
    -- The orders are those of the query now, and these are looked at before its source.
    have hagain := Relation.bubbleOrder_of_ordered (r.bubbleOrder []).node hsome
    refine ⟨⟨rfl, r, _, _, rfl, hlifts, hsome, rfl⟩, ?_, ?_⟩ <;>
      simp only [Query.bubbleSourceOrder, Source.bubbleOrder, Bubbled.map, hagain]

/-- The first rows of a stored table, by one column that is projected and one that is not. -/
def Query.storedRows : Query :=
  let table : Table :=
    ⟨"T", none, [⟨.ofField ⟨"A", none⟩, .asc⟩, ⟨.ofField ⟨"B", none⟩, .desc⟩]⟩
  let stored := Query.ofSource (.single (.table table))
  let rows := stored.project (.ofField ⟨"A", some "T"⟩) (some "a")
  .ofSource (.ofQuery (rows.withTake 3) "s")

theorem Query.lifts_bubbleSourceOrder_storedRows :
    storedRows.bubbleSourceOrder.failure = none ∧
      storedRows.bubbleSourceOrder.node.orders =
        [⟨.ofField ⟨"a", some "s"⟩, .asc⟩, ⟨.ofField ⟨"order_1", some "s"⟩, .desc⟩] ∧
      storedRows.bubbleSourceOrder.node.bubbleSourceOrder.failure = some .orderAlreadyDefined :=
  ⟨rfl, rfl, (lifts_bubbleSourceOrder rfl).2.1⟩

end DialectSql
