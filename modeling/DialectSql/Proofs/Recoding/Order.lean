import DialectSql.Proofs.NaturalOrder
import DialectSql.Proofs.Recoding

/-!
# Orders of recoded statements

Natural and implied orders depend on constants only through equality of expressions. So a statement
can be recoded before or after its orders are made explicit.

## Main definitions

* `Bubbled.recode` — the outcome of bubbling with other constants

## Main results

* `Query.bubbleSourceOrder_recode`, `Source.bubbleOrder_recode` — bubbling
* `Query.implyOrders_recode`, `Statement.implyOrders_recode`, … — implied orders
-/

namespace DialectSql

variable {config : Config} (f : Recoding config)

/-! ## Output columns -/

@[simp] theorem Projection.outputName?_recode (p : Projection) :
    (p.recode f).outputName? = p.outputName? := by
  simp [recode, outputName?]

/-- The output column of a recoded expression. -/
theorem exposeIn_recode (generated : String) (e : Expression) (items : List Projection) :
    exposeIn generated (e.recode f) (items.map (·.recode f)) =
      ((exposeIn generated e items).1, (exposeIn generated e items).2.map (·.recode f)) := by
  induction items with
  | nil => rfl
  | cons item items ih =>
    -- This is the one place where constants decide: which item is the order expression.
    have hbeq : ((item.recode f).expression == e.recode f) = (item.expression == e) :=
      Expression.beq_recode f item.expression e
    rw [List.map_cons, exposeIn, exposeIn, hbeq, Projection.outputName?_recode]
    split
    · split <;> rfl
    · rw [ih]
      rfl

/-- The output column of a recoded order expression. -/
theorem expose_recode (selection : List Projection) (e : Expression) (index : Nat) :
    expose (selection.map (·.recode f)) (e.recode f) index =
      ((expose selection e index).1, (expose selection e index).2.map (·.recode f)) := by
  cases selection with
  | nil =>
    -- A projection of every column is either left alone or written out as a star.
    have hstar := exposeIn_recode f (generatedAlias index) e [⟨.allColumns, none⟩]
    unfold expose
    rw [Expression.field?_recode]
    cases e.field? with
    | some g => rfl
    | none => exact hstar
  | cons item items => exact exposeIn_recode f (generatedAlias index) e (item :: items)

/-! ## Bubbling -/

/-- The outcome of bubbling with other constants in the node and in the orders. -/
def Bubbled.recode {α : Type} (g : α → α) (b : Bubbled α) : Bubbled α :=
  ⟨g b.node, b.orders.map (·.recode f), b.failure⟩

/-- Recoded orders are exposed as the orders are. -/
theorem exposeOrders_recode (symbol : String) (orders : List Order) :
    ∀ (index : Nat) (selection : List Projection),
      exposeOrders symbol index (orders.map (·.recode f)) (selection.map (·.recode f)) =
        (exposeOrders symbol index orders selection).recode f (·.map (·.recode f)) := by
  induction orders with
  | nil => exact fun _ _ => rfl
  | cons order orders ih =>
    intro index selection
    have hexpose : expose (selection.map (·.recode f)) (order.recode f).expression index =
        ((expose selection order.expression index).1,
          (expose selection order.expression index).2.map (·.recode f)) :=
      expose_recode f selection order.expression index
    rw [List.map_cons, exposeOrders_cons, exposeOrders_cons, hexpose]
    dsimp only
    -- The same column name is refused before and after.
    cases Field.qualified symbol (expose selection order.expression index).1 with
    | error e => rfl
    | ok field =>
      dsimp only
      rw [ih]
      rfl

/-- Recoded orders of a set operation are lifted as the orders are. -/
theorem liftSetOrders_recode (symbol description : String) (orders : List Order) :
    liftSetOrders symbol description (orders.map (·.recode f)) =
      (liftSetOrders symbol description orders).map (·.map (·.recode f)) := by
  induction orders with
  | nil => rfl
  | cons order orders ih =>
    have hfield : (order.recode f).expression.field? = order.expression.field? :=
      Expression.field?_recode f order.expression
    rw [List.map_cons, liftSetOrders, liftSetOrders, hfield, ih]
    -- Whether an order is lifted depends on its column, which has no constants.
    cases order.expression.field? with
    | none => rfl
    | some g =>
      cases hqualified : Field.qualified symbol g.name with
      | error e => simp [hqualified, bind, Except.bind, Except.map]
      | ok outer =>
        cases liftSetOrders symbol description orders with
        | error e => simp [hqualified, bind, Except.bind, Except.map]
        | ok rest =>
          simp [hqualified, bind, Except.bind, Except.map, pure, Except.pure, Order.recode,
            Expression.ofField, Expression.recode]

mutual

/-- Messages show nothing of the constants of a relation. -/
theorem Relation.description_recode : ∀ r : Relation, (r.recode f).description = r.description
  | .table _ => rfl
  | .select query alias? => by
    rw [Relation.recode, Relation.description, Relation.description, Query.description_recode query]
  | .set set alias? => by
    rw [Relation.recode, Relation.description, Relation.description,
      QuerySet.description_recode set]

/-- Messages show nothing of the constants of a source. -/
theorem Source.description_recode : ∀ r : Source, (r.recode f).description = r.description
  | .single r => Relation.description_recode r
  | .joined kind left right on => by
    rw [Source.recode, Source.description, Source.description, Source.description_recode left,
      Source.description_recode right]

/-- Messages show nothing of the constants of a query. -/
theorem Query.description_recode : ∀ q : Query, (q.recode f).description = q.description
  | ⟨source, _, _, _, _, _, _, _, _, _⟩ => by
    rw [Query.recode, Query.description, Query.description, Source.description_recode source]

/-- Messages show nothing of the constants of an operand. -/
theorem SetOperand.description_recode :
    ∀ o : SetOperand, (o.recode f).description = o.description
  | .query q => Query.description_recode q
  | .set s => by
    rw [SetOperand.recode, SetOperand.description, SetOperand.description,
      QuerySet.description_recode s]

/-- Messages show nothing of the constants of a set operation. -/
theorem QuerySet.description_recode : ∀ s : QuerySet, (s.recode f).description = s.description
  | ⟨operator, left, right, _⟩ => by
    rw [QuerySet.recode, QuerySet.description, QuerySet.description,
      SetOperand.description_recode left, SetOperand.description_recode right]

end

mutual

/-- Whether a relation has an order of its own does not depend on constants. -/
theorem Relation.canBubbleOrder_recode :
    ∀ r : Relation, (r.recode f).canBubbleOrder = r.canBubbleOrder
  | .table t => by simp [Relation.recode, Relation.canBubbleOrder, Table.recode]
  | .select query _ => Query.canBubbleOrder_recode query
  | .set ⟨_, _, _, orders⟩ _ => by
    simp [Relation.recode, QuerySet.recode, Relation.canBubbleOrder]

/-- Whether a source has an order of its own does not depend on constants. -/
theorem Source.canBubbleOrder_recode :
    ∀ r : Source, (r.recode f).canBubbleOrder = r.canBubbleOrder
  | .single r => Relation.canBubbleOrder_recode r
  | .joined _ _ _ _ => rfl

/-- Whether a query has an order of its own does not depend on constants. -/
theorem Query.canBubbleOrder_recode :
    ∀ q : Query, (q.recode f).canBubbleOrder = q.canBubbleOrder
  | ⟨source, _, _, _, orders, _, _, _, _, _⟩ => by
    simp [Query.recode, Query.canBubbleOrder, Source.canBubbleOrder_recode source]

end

/-- Orders can be requalified before or after. -/
theorem Order.requalify_recode (r : Requalification) (o : Order) :
    (o.recode f).requalify r = (o.requalify r).recode f := by
  rw [Order.recode, Order.requalify, Expression.requalify_recode]
  rfl

/-- The order of a recoded query is lifted as that of the query is. -/
theorem Query.liftOrders_recode (symbol : String) (q : Query) :
    (q.recode f).liftOrders symbol = (q.liftOrders symbol).recode f (·.recode f) := by
  obtain ⟨source, criteria, selection, distinct, orders, skip, take, aggregation, groupBy,
    having⟩ := q
  simp only [Query.recode, liftOrders, exposeOrders_recode, Bubbled.map, Bubbled.recode, isPaged]
  cases skip <;> cases take <;> rfl

/-- The order of a recoded set operation is lifted as that of the set operation is. -/
theorem QuerySet.liftOrders_recode (symbol description : String) (s : QuerySet) :
    (s.recode f).liftOrders symbol description =
      (s.liftOrders symbol description).recode f (·.recode f) := by
  obtain ⟨operator, left, right, orders⟩ := s
  rw [QuerySet.recode, liftOrders, liftOrders, liftSetOrders_recode]
  cases liftSetOrders symbol description orders <;> rfl

/-- Bubbling through a recoded query is bubbling through the query. -/
theorem Query.bubbleThrough_recode (symbol : String) (q : Query) (bubbled : Bubbled Query) :
    (q.recode f).bubbleThrough symbol (bubbled.recode f (·.recode f)) =
      (q.bubbleThrough symbol bubbled).recode f (·.recode f) := by
  obtain ⟨node, orders, failure⟩ := bubbled
  unfold bubbleThrough
  rw [Query.orders_recode, List.isEmpty_map, Query.liftOrders_recode]
  split
  · cases failure with
    | some e => rfl
    | none => exact Query.liftOrders_recode f symbol node
  · rfl

mutual

/-- The order of a recoded relation is lifted as that of the relation is. -/
theorem Relation.lifted_recode :
    ∀ r : Relation, (r.recode f).lifted = r.lifted.recode f (·.recode f)
  | .table t => by
    -- The storing order moves onto the symbol, which has no constants.
    have hmoved : (t.recode f).storingOrder.map (·.requalify (.onto (some (t.recode f).symbol))) =
        (t.storingOrder.map (·.requalify (.onto (some t.symbol)))).map (·.recode f) := by
      rw [Table.recode, List.map_map, List.map_map]
      exact List.map_congr_left fun o _ => Order.requalify_recode f _ o
    rw [Relation.recode, Relation.lifted, hmoved]
    rfl
  | .select query alias? => by
    rw [Relation.recode, Relation.lifted, Relation.lifted, Query.bubbleSourceOrder_recode query,
      Query.bubbleThrough_recode]
    rfl
  | .set set alias? => by
    have hdescription := Relation.description_recode f (.set set alias?)
    rw [Relation.recode] at hdescription
    rw [Relation.recode, Relation.lifted, Relation.lifted, hdescription, QuerySet.liftOrders_recode]
    rfl

/-- The order of a recoded source bubbles as that of the source does. -/
theorem Source.bubbleOrder_recode :
    ∀ (r : Source) (orders : List Order),
      (r.recode f).bubbleOrder (orders.map (·.recode f)) =
        (r.bubbleOrder orders).recode f (·.recode f)
  | .single r, orders => by
    rw [Source.recode, Source.bubbleOrder, Source.bubbleOrder, Relation.bubbleOrder_eq,
      Relation.bubbleOrder_eq, List.isEmpty_map, Relation.canBubbleOrder_recode,
      Relation.description_recode, Relation.lifted_recode r]
    split
    · split <;> rfl
    · rfl
  | .joined kind left right on, orders => by
    have hdescription := Source.description_recode f (.joined kind left right on)
    rw [Source.recode] at hdescription
    rw [Source.recode, Source.bubbleOrder, Source.bubbleOrder, hdescription]
    rfl

/-- The order of the source of a recoded query bubbles as that of the query's source does. -/
theorem Query.bubbleSourceOrder_recode :
    ∀ q : Query, (q.recode f).bubbleSourceOrder = (q.bubbleSourceOrder).recode f (·.recode f)
  | ⟨source, criteria, selection, distinct, orders, skip, take, aggregation, groupBy, having⟩ => by
    simp only [Query.recode, Query.bubbleSourceOrder, Source.bubbleOrder_recode source,
      Bubbled.recode]

end

/-! ## Implied orders -/

/-- The order that a recoded query implies is that of the query. -/
theorem Query.implyOrder_recode (q : Query) : (q.recode f).implyOrder = q.implyOrder.recode f := by
  have hbubbled := Query.bubbleSourceOrder_recode f q
  unfold implyOrder
  rw [Query.skip_recode, Query.orders_recode, List.isEmpty_map, hbubbled]
  dsimp only [Bubbled.recode]
  split
  · split <;> rfl
  · rfl

mutual

/-- The orders that a recoded condition implies are those of the condition. -/
theorem Criteria.implyOrders_recode :
    ∀ c : Criteria, (c.recode f).implyOrders = c.implyOrders.recode f
  | .expression _ => rfl
  | .compound op children => by
    rw [Criteria.recode, Criteria.implyOrders, Criteria.implyOrders, Criteria.recode,
      Criteria.implyOrdersList_recodeList children]
  | .inSelect subject query op => by
    rw [Criteria.recode, Criteria.implyOrders, Criteria.implyOrders, Criteria.recode,
      Query.implyOrders_recode query]

/-- The orders that recoded conditions imply are those of the conditions. -/
theorem Criteria.implyOrdersList_recodeList : ∀ cs : List Criteria,
    Criteria.implyOrdersList (Criteria.recodeList f cs) =
      Criteria.recodeList f (Criteria.implyOrdersList cs)
  | [] => rfl
  | c :: cs => by
    rw [Criteria.recodeList, Criteria.implyOrdersList, Criteria.implyOrdersList,
      Criteria.recodeList, Criteria.implyOrders_recode c, Criteria.implyOrdersList_recodeList cs]

/-- The orders that an optional recoded condition implies are those of the condition. -/
theorem Criteria.implyOrdersOption_recodeOption : ∀ c? : Option Criteria,
    Criteria.implyOrdersOption (Criteria.recodeOption f c?) =
      Criteria.recodeOption f (Criteria.implyOrdersOption c?)
  | none => rfl
  | some c => congrArg some (Criteria.implyOrders_recode c)

/-- The orders that a recoded relation implies are those of the relation. -/
theorem Relation.implyOrders_recode :
    ∀ r : Relation, (r.recode f).implyOrders = r.implyOrders.recode f
  | .table _ => rfl
  | .select query alias? => by
    rw [Relation.recode, Relation.implyOrders, Relation.implyOrders, Relation.recode,
      Query.implyOrders_recode query]
  | .set set alias? => by
    rw [Relation.recode, Relation.implyOrders, Relation.implyOrders, Relation.recode,
      QuerySet.implyOrders_recode set]

/-- The orders that a recoded source implies are those of the source. -/
theorem Source.implyOrders_recode :
    ∀ r : Source, (r.recode f).implyOrders = r.implyOrders.recode f
  | .single r => congrArg Source.single (Relation.implyOrders_recode r)
  | .joined kind left right on => by
    rw [Source.recode, Source.implyOrders, Source.implyOrders, Source.recode,
      Source.implyOrders_recode left, Source.implyOrders_recode right,
      Criteria.implyOrders_recode on]

/-- The orders that a recoded query implies are those of the query. -/
theorem Query.implyOrders_recode : ∀ q : Query, (q.recode f).implyOrders = q.implyOrders.recode f
  | ⟨source, criteria, selection, distinct, orders, skip, take, aggregation, groupBy, having⟩ => by
    rw [Query.implyOrders, ← Query.implyOrder_recode, Query.recode, Query.implyOrders,
      Source.implyOrders_recode source, Criteria.implyOrdersOption_recodeOption criteria,
      Criteria.implyOrdersOption_recodeOption having, Query.recode]

/-- The orders that a recoded operand implies are those of the operand. -/
theorem SetOperand.implyOrders_recode :
    ∀ o : SetOperand, (o.recode f).implyOrders = o.implyOrders.recode f
  | .query q => congrArg SetOperand.query (Query.implyOrders_recode q)
  | .set s => congrArg SetOperand.set (QuerySet.implyOrders_recode s)

/-- The orders that a recoded set operation implies are those of the set operation. -/
theorem QuerySet.implyOrders_recode :
    ∀ s : QuerySet, (s.recode f).implyOrders = s.implyOrders.recode f
  | ⟨operator, left, right, orders⟩ => by
    rw [QuerySet.recode, QuerySet.implyOrders, QuerySet.implyOrders, QuerySet.recode,
      SetOperand.implyOrders_recode left, SetOperand.implyOrders_recode right]

end

/-- The orders that a recoded statement implies are those of the statement. -/
theorem Statement.implyOrders_recode (t : Statement) :
    (t.recode f).implyOrders = t.implyOrders.recode f := by
  cases t with
  | query q => exact congrArg Statement.query (Query.implyOrders_recode f q)
  | set s => exact congrArg Statement.set (QuerySet.implyOrders_recode f s)
  | change c =>
    rw [recode, implyOrders, implyOrders, recode, Change.implyOrders, Change.implyOrders,
      Change.recode, Change.recode, Source.implyOrders_recode,
      Criteria.implyOrdersOption_recodeOption]

end DialectSql
