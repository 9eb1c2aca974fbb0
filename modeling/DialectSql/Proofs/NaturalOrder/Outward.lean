import DialectSql.Proofs.NaturalOrder.Lift
import DialectSql.Proofs.NaturalOrder.Prediction
import DialectSql.Query.ImpliedOrder

/-!
# Implied orders from the outside in

A pass over a statement gives its innermost queries their implied orders first, so that an order can
go further outwards. The outermost can come first as well: the order of its source does not depend
on whether the queries inside have their implied orders or would only imply them. Both ways lift the
same orders, and where one fails the other does.

## Main definitions

* `Query.implyClauses` — a query with the implied orders of its clauses, but not its own
* `Bubbled.Agrees` — two lifts with the same outcome, or which both fail

## Main results

* `Query.agrees_bubbleSourceOrder` — a lift does not depend on implied orders further in
* `Query.implyOrders_eq_implyClauses` — the order of a query can come first
-/

namespace DialectSql

/-! ## Orders of the clauses -/

/-- A query whose clauses have their implied orders. -/
def Query.implyClauses (q : Query) : Query :=
  { q with
    source := q.source.implyOrders
    criteria := Criteria.implyOrdersOption q.criteria
    having := Criteria.implyOrdersOption q.having }

/-- From the inside out the order of the query itself comes last. -/
theorem Query.implyOrders_eq_implyOrder (q : Query) :
    q.implyOrders = q.implyClauses.implyOrder := by
  cases q
  rfl

/-- A query implies no order if it has one or skips no rows. -/
theorem Query.implyOrder_of_settled {q : Query} (h : q.skip = none ∨ q.orders ≠ []) :
    q.implyOrder = q := by
  unfold implyOrder
  rcases h with h | h <;> simp [h]

/-- A query implies no order if its source has none. -/
theorem Query.implyOrder_of_failure {q : Query} (h : q.bubbleSourceOrder.failure.isSome = true) :
    q.implyOrder = q := by
  obtain ⟨e, he⟩ := Option.isSome_iff_exists.mp h
  unfold implyOrder
  simp [he]

/-- A query that skips rows and asks for no order implies that of its source. -/
theorem Query.implyOrder_of_success {q : Query} {n : UInt64} (hskip : q.skip = some n)
    (hnone : q.orders = []) (h : q.bubbleSourceOrder.failure = none) :
    q.implyOrder = q.bubbleSourceOrder.node := by
  simp [implyOrder, hskip, hnone, h]

/-- Orders are lifted out of a query whatever its clauses are. -/
theorem Query.liftOrders_implyClauses (q : Query) (symbol : String) :
    q.implyClauses.liftOrders symbol = (q.liftOrders symbol).map implyClauses := rfl

/-- An ordered query implies no order, and it still does not when its orders are lifted: it keeps
them if it skips rows. -/
theorem Query.implyOrder_liftOrders {q : Query} (h : q.orders ≠ []) (symbol : String) :
    (q.liftOrders symbol).node.implyClauses.implyOrder =
      (q.liftOrders symbol).node.implyClauses := by
  refine implyOrder_of_settled ?_
  cases hskip : q.skip with
  | none => exact .inl hskip
  | some n =>
    have hpaged : q.isPaged = true := by simp [isPaged, hskip]
    refine .inr ?_
    change (if q.isPaged then q.orders else []) ≠ []
    rwa [if_pos hpaged]

/-! ## Lifts with the same outcome -/

/-- Two lifts that agree in everything, or which both fail. -/
def Bubbled.Agrees {α : Type} (b b' : Bubbled α) : Prop :=
  b = b' ∨ b.failure.isSome = true ∧ b'.failure.isSome = true

namespace Bubbled.Agrees

variable {α β : Type} {a b c : Bubbled α}

theorem refl (b : Bubbled α) : b.Agrees b := .inl rfl

theorem symm (h : a.Agrees b) : b.Agrees a :=
  h.imp Eq.symm And.symm

theorem trans (hab : a.Agrees b) (hbc : b.Agrees c) : a.Agrees c := by
  rcases hab with rfl | ⟨ha, hb⟩
  · exact hbc
  · rcases hbc with rfl | ⟨-, hc⟩
    · exact .inr ⟨ha, hb⟩
    · exact .inr ⟨ha, hc⟩

theorem map (h : a.Agrees b) (f : α → β) : (a.map f).Agrees (b.map f) :=
  h.imp (congrArg (Bubbled.map f)) id

theorem success_or_failure (h : a.Agrees b) :
    (a.failure = none ∧ a = b) ∨ (a.failure.isSome = true ∧ b.failure.isSome = true) := by
  rcases h with rfl | hfailure
  · cases hcase : a.failure with
    | none => exact .inl ⟨rfl, rfl⟩
    | some e => exact .inr ⟨rfl, rfl⟩
  · exact .inr hfailure

end Bubbled.Agrees

/-- Where a subquery has no order at all, the lift of its order fails anyway, and so does the lift
through it. -/
theorem Relation.agrees_bubbleOrder_select (q : Query) (alias? : Option String) :
    ((Relation.select q alias?).bubbleOrder []).Agrees
      ((q.bubbleThrough (alias?.getD subqueryAlias) q.bubbleSourceOrder).map
        (.select · alias?)) := by
  rw [Relation.bubbleOrder, if_neg (by simp)]
  split
  · next hcannot =>
    refine .inr ⟨rfl, ?_⟩
    obtain ⟨source, criteria, selection, distinct, orders, skip, take, aggregation, groupBy,
      having⟩ := q
    simp only [Query.canBubbleOrder, Bool.not_or, Bool.not_not, Bool.and_eq_true,
      Bool.not_eq_true', List.isEmpty_iff] at hcannot
    obtain ⟨rfl, hsource⟩ := hcannot
    simp [Query.bubbleThrough, Query.bubbleSourceOrder, Bubbled.map,
      source.failure_bubbleOrder_of_not_can hsource]
  · exact .refl _

/-- A set operation has its own orders and implies none. -/
theorem QuerySet.orders_implyOrders (s : QuerySet) : s.implyOrders.orders = s.orders := by
  cases s
  rfl

/-- A set operation with orders gives these. -/
theorem Relation.bubbleOrder_set {s : QuerySet} (h : s.orders ≠ []) (alias? : Option String) :
    (Relation.set s alias?).bubbleOrder [] =
      (s.liftOrders (alias?.getD subqueryAlias) (Relation.set s alias?).description).map
        (.set · alias?) := by
  rw [bubbleOrder, if_neg (by simp), if_neg (by simpa using h)]

/-- A set operation without orders gives none. -/
theorem Relation.failure_bubbleOrder_set {s : QuerySet} (h : s.orders = [])
    (alias? : Option String) : ((Relation.set s alias?).bubbleOrder []).failure.isSome = true := by
  rw [bubbleOrder, if_neg (by simp), if_pos (by simp [h])]
  rfl

/-- How a set operation is described matters only where its orders are not lifted. -/
theorem liftSetOrders_eq_ok_of_eq_ok {symbol description : String} (description' : String) :
    ∀ {orders lifted : List Order}, liftSetOrders symbol description orders = .ok lifted →
      liftSetOrders symbol description' orders = .ok lifted
  | [], _, h => h
  | order :: orders, _, h => by
    obtain ⟨field, outer, rest, hfield, houter, hrest, rfl⟩ := liftSetOrders_cons_ok h
    simp only [liftSetOrders, hfield, houter, liftSetOrders_eq_ok_of_eq_ok description' hrest]
    rfl

/-- A set operation gives the same orders whatever its operands are and however it is described. -/
theorem QuerySet.agrees_liftOrders (s : QuerySet) (symbol description description' : String) :
    ((s.liftOrders symbol description).map implyOrders).Agrees
      (s.implyOrders.liftOrders symbol description') := by
  obtain ⟨operator, left, right, orders⟩ := s
  unfold implyOrders liftOrders
  cases hlifted : liftSetOrders symbol description orders with
  | ok lifted =>
    rw [liftSetOrders_eq_ok_of_eq_ok description' hlifted]
    exact .inl rfl
  | error e =>
    cases hlifted' : liftSetOrders symbol description' orders with
    | ok lifted =>
      have hok := liftSetOrders_eq_ok_of_eq_ok description hlifted'
      cases hlifted.symm.trans hok
    | error e' => exact .inr ⟨rfl, rfl⟩

/-! ## Orders of the clauses, before a lift or behind it -/

/-- An ordered query gives its own order. -/
theorem Query.bubbleThrough_of_ordered {q : Query} (h : q.orders ≠ []) (symbol : String)
    (bubbled : Bubbled Query) : q.bubbleThrough symbol bubbled = q.liftOrders symbol :=
  if_neg (by simpa using h)

/-- A query without orders gives those of its source. -/
theorem Query.bubbleThrough_of_success {q : Query} (h : q.orders = []) (symbol : String)
    {bubbled : Bubbled Query} (hbubbled : bubbled.failure = none) :
    q.bubbleThrough symbol bubbled = bubbled.node.liftOrders symbol := by
  simp [bubbleThrough, h, hbubbled]

/-- A query without orders gives none if its source gives none. -/
theorem Query.failure_bubbleThrough {q : Query} (h : q.orders = []) (symbol : String)
    {bubbled : Bubbled Query} (hbubbled : bubbled.failure.isSome = true) :
    (q.bubbleThrough symbol bubbled).failure.isSome = true := by
  obtain ⟨e, he⟩ := Option.isSome_iff_exists.mp hbubbled
  simp [bubbleThrough, h, he]

/-- Behind the lift of its order a query has the implied orders that it has in front of it. -/
theorem Query.map_implyOrders_liftOrders {q : Query} (h : q.orders ≠ []) (symbol : String) :
    (q.liftOrders symbol).map implyOrders = q.implyClauses.liftOrders symbol := by
  rw [liftOrders_implyClauses]
  unfold Bubbled.map
  rw [implyOrders_eq_implyOrder, implyOrder_liftOrders h]

/-- Where the lift from its source does not depend on its clauses, a query implies the same order
before they have their implied orders and then. -/
theorem Query.implyOrder_implyClauses {q : Query}
    (h : q.orders = [] →
      (q.bubbleSourceOrder.map implyClauses).Agrees q.implyClauses.bubbleSourceOrder) :
    q.implyClauses.implyOrder = q.implyOrder.implyClauses := by
  by_cases hsettled : q.skip = none ∨ q.orders ≠ []
  · have hsettled' : q.implyClauses.skip = none ∨ q.implyClauses.orders ≠ [] := hsettled
    rw [implyOrder_of_settled hsettled, implyOrder_of_settled hsettled']
  · -- The query asks its source for an order, which is the case that the lift decides.
    obtain ⟨hskip, hnone⟩ := not_or.mp hsettled
    obtain ⟨n, hskip⟩ := Option.ne_none_iff_exists'.mp hskip
    have hnone : q.orders = [] := not_not.mp hnone
    rcases (h hnone).success_or_failure with ⟨hsuccess, heq⟩ | ⟨hfailure, hfailure'⟩
    · have hskip' : q.implyClauses.skip = some n := hskip
      have hsuccess' : q.implyClauses.bubbleSourceOrder.failure = none := by rwa [← heq]
      rw [implyOrder_of_success hskip hnone hsuccess, implyOrder_of_success hskip' hnone hsuccess',
        ← heq]
      rfl
    · rw [implyOrder_of_failure hfailure, implyOrder_of_failure hfailure']

/-- Then the order of a subquery is lifted through it alike as well. -/
theorem Query.agrees_bubbleThrough {q : Query} (symbol : String)
    (h : q.orders = [] →
      (q.bubbleSourceOrder.map implyClauses).Agrees q.implyClauses.bubbleSourceOrder) :
    ((q.bubbleThrough symbol q.bubbleSourceOrder).map implyOrders).Agrees
      (q.implyOrders.bubbleThrough symbol q.implyOrders.bubbleSourceOrder) := by
  rw [q.implyOrders_eq_implyOrder, implyOrder_implyClauses h]
  by_cases hnone : q.orders = []
  · have hnone' : q.implyClauses.orders = [] := hnone
    rcases (h hnone).success_or_failure with ⟨hsuccess, heq⟩ | ⟨hfailure, hfailure'⟩
    · have hsuccess : q.bubbleSourceOrder.failure = none := hsuccess
      have hordered := (q.orders_bubbleSourceOrder hnone hsuccess).orders_ne_nil
      refine .inl ?_
      rw [bubbleThrough_of_success hnone symbol hsuccess, map_implyOrders_liftOrders hordered]
      cases hskip : q.skip with
      | none =>
        -- The query takes the order over only while it is lifted.
        have hsuccess' : q.implyClauses.bubbleSourceOrder.failure = none := by rwa [← heq]
        rw [implyOrder_of_settled (.inl hskip), bubbleThrough_of_success hnone' symbol hsuccess',
          ← heq]
        rfl
      | some n =>
        -- The query implies the order and has it already.
        have hordered' : q.bubbleSourceOrder.node.implyClauses.orders ≠ [] := hordered
        rw [implyOrder_of_success hskip hnone hsuccess, bubbleThrough_of_ordered hordered']
    · rw [implyOrder_of_failure hfailure]
      exact .inr ⟨failure_bubbleThrough hnone symbol hfailure,
        failure_bubbleThrough hnone' symbol hfailure'⟩
  · have hsome' : q.implyClauses.orders ≠ [] := hnone
    rw [implyOrder_of_settled (.inr hnone), bubbleThrough_of_ordered hnone,
      bubbleThrough_of_ordered hsome', map_implyOrders_liftOrders hnone]
    exact .refl _

-- The induction goes from a query to its source and from a subquery to the query in it. What is in
-- the conditions and in the operands is on no such way, and its implied orders do not matter.
mutual

/-- The order of a relation is lifted alike, whether it has its implied orders or not. -/
theorem Relation.agrees_bubbleOrder :
    ∀ r : Relation,
      ((r.bubbleOrder []).map Relation.implyOrders).Agrees (r.implyOrders.bubbleOrder [])
  | .table t => by
    rw [Relation.implyOrders, Relation.bubbleOrder, if_neg (by simp)]
    split
    · exact .inl rfl
    · exact .inl rfl
  | .select q alias? => by
    -- Without the question whether there is an order, both sides are the lift through a query.
    have hthrough := Query.agrees_bubbleThrough (alias?.getD subqueryAlias)
      (Query.agrees_bubbleSourceOrder q)
    refine ((Relation.agrees_bubbleOrder_select q alias?).map Relation.implyOrders).trans ?_
    exact (hthrough.map (Relation.select · alias?)).trans
      (Relation.agrees_bubbleOrder_select q.implyOrders alias?).symm
  | .set s alias? => by
    by_cases hnone : s.orders = []
    · have hnone' : s.implyOrders.orders = [] := s.orders_implyOrders.trans hnone
      exact .inr ⟨Relation.failure_bubbleOrder_set hnone alias?,
        Relation.failure_bubbleOrder_set hnone' alias?⟩
    · have hsome' : s.implyOrders.orders ≠ [] := s.orders_implyOrders.trans_ne hnone
      rw [Relation.implyOrders, Relation.bubbleOrder_set hnone, Relation.bubbleOrder_set hsome']
      exact (s.agrees_liftOrders _ _ _).map (Relation.set · alias?)

/-- The order of its source is lifted to a query alike, whether its clauses have their implied
orders or not. -/
theorem Query.agrees_bubbleSourceOrder :
    ∀ q : Query, q.orders = [] →
      (q.bubbleSourceOrder.map Query.implyClauses).Agrees q.implyClauses.bubbleSourceOrder
  | ⟨.single r, _, _, _, [], _, _, _, _, _⟩, _ => by
    rcases Relation.agrees_bubbleOrder r with heq | hfail
    · refine .inl ?_
      simp only [Query.bubbleSourceOrder, Query.implyClauses, Source.implyOrders,
        Source.bubbleOrder, Bubbled.map, ← heq]
    · exact .inr hfail
  | ⟨.joined _ _ _ _, _, _, _, _, _, _, _, _, _⟩, _ => .inr ⟨rfl, rfl⟩

end

/-- A query can get its implied order first, and then those of the clauses that this leaves. -/
theorem Query.implyOrders_eq_implyClauses (q : Query) :
    q.implyOrders = q.implyOrder.implyClauses := by
  rw [implyOrders_eq_implyOrder, implyOrder_implyClauses (agrees_bubbleSourceOrder q)]

end DialectSql
