import DialectSql.Query.ImpliedOrder

/-!
# Steps of bubbling

The equations of bubbling: what one order adds to the projection of a subquery, and what each kind
of source does. Every statement about bubbling is an induction whose steps are these.

## Main definitions

* `Query.ordered` — a query with its natural order
* `Relation.lifted` — a relation whose order is lifted

## Main results

* `exposeOrders_cons`, `liftSetOrders_cons_ok` — one order more
* `exposeOrders_cons_success` — one order more, if all are exposed
* `Query.bubbleSourceOrder_eq` — what bubbling does to a query around its source
* `Relation.bubbleOrder_eq`, `Relation.bubbleOrder_induction` — when a relation lifts its order
* `Relation.bubbleOrder_select_success` — what a subquery does whose order is lifted
* `Query.implyOrders_eq` — what implied orders leave of a query
-/

namespace DialectSql

/-! ## One order more -/

/-- The first order is exposed, and unless its output name is unusable the others follow. -/
theorem exposeOrders_cons (symbol : String) (index : Nat) (order : Order) (orders : List Order)
    (selection : List Projection) :
    exposeOrders symbol index (order :: orders) selection =
      match Field.qualified symbol (expose selection order.expression index).1 with
      | .error e => ⟨(expose selection order.expression index).2, [], some e⟩
      | .ok field =>
        let rest := exposeOrders symbol (index + 1) orders
          (expose selection order.expression index).2
        { rest with orders := ⟨.ofField field, order.direction⟩ :: rest.orders } := rfl

/-- If the orders of a set operation are lifted, then the first is a column with a usable name and
the others are lifted too. -/
theorem liftSetOrders_cons_ok {symbol description : String} {order : Order}
    {orders lifted : List Order}
    (h : liftSetOrders symbol description (order :: orders) = .ok lifted) :
    ∃ field outer rest, order.expression.field? = some field ∧
      Field.qualified symbol field.name = .ok outer ∧
      liftSetOrders symbol description orders = .ok rest ∧
      lifted = ⟨.ofField outer, order.direction⟩ :: rest := by
  rw [liftSetOrders] at h
  -- Each of three steps can fail, and then nothing is lifted.
  cases hcolumn : order.expression.field? with
  | none => simp [hcolumn, throw, throwThe, MonadExceptOf.throw] at h
  | some field =>
    cases hfield : Field.qualified symbol field.name with
    | error e => simp [hcolumn, hfield, bind, Except.bind] at h
    | ok outer =>
      cases hrest : liftSetOrders symbol description orders with
      | error e => simp [hcolumn, hfield, hrest, bind, Except.bind] at h
      | ok rest =>
        refine ⟨field, outer, rest, rfl, hfield, rfl, ?_⟩
        simpa [hcolumn, hfield, hrest, bind, Except.bind, pure, Except.pure] using h.symm

/-- A checked column of a symbol is that column. -/
theorem Field.eq_of_qualified {symbol name : String} {f : Field}
    (h : Field.qualified symbol name = .ok f) : f = ⟨name, some symbol⟩ := by
  unfold qualified unqualified at h
  split at h
  · cases h
    rfl
  · cases h

/-- If all orders are exposed, then the first is by a column of the symbol, and the others are
exposed in the projection that it leaves behind. -/
theorem exposeOrders_cons_success {symbol : String} {index : Nat} {order : Order}
    {orders : List Order} {selection : List Projection}
    (h : (exposeOrders symbol index (order :: orders) selection).failure = none) :
    let first := expose selection order.expression index
    let rest := exposeOrders symbol (index + 1) orders first.2
    rest.failure = none ∧ exposeOrders symbol index (order :: orders) selection =
      { rest with
        orders := ⟨.ofField ⟨first.1, some symbol⟩, order.direction⟩ :: rest.orders } := by
  rw [exposeOrders_cons] at h ⊢
  split at h
  · cases h
  · next field hfield =>
    cases Field.eq_of_qualified hfield
    exact ⟨h, rfl⟩

/-! ## Around a source -/

/-- A query with its natural order: its own, or else that of its source. -/
def Query.ordered (q : Query) : Query := if q.orders.isEmpty then q.bubbleSourceOrder.node else q

/-- Bubbling changes the source and the orders of a query and no other clause. -/
theorem Query.bubbleSourceOrder_eq (q : Query) :
    q.bubbleSourceOrder =
      ⟨{ q with
          source := (q.source.bubbleOrder q.orders).node
          orders := (q.source.bubbleOrder q.orders).orders },
        (q.source.bubbleOrder q.orders).orders, (q.source.bubbleOrder q.orders).failure⟩ := by
  cases q
  rfl

/-- A query with its natural order differs in its source and its orders at most. -/
theorem Query.ordered_eq (q : Query) :
    q.ordered = { q with source := q.ordered.source, orders := q.ordered.orders } := by
  unfold ordered
  split
  · rw [bubbleSourceOrder_eq]
  · cases q
    rfl

/-! ## Around a relation -/

/-- A relation with its order lifted out of it, whether or not it has one. -/
def Relation.lifted : Relation → Bubbled Relation
  | .table t => ⟨.table t, t.storingOrder.map (·.requalify (.onto (some t.symbol))), none⟩
  | .select query alias? =>
    (query.bubbleThrough (alias?.getD subqueryAlias) query.bubbleSourceOrder).map (.select · alias?)
  | .set s alias? =>
    (s.liftOrders (alias?.getD subqueryAlias) (Relation.set s alias?).description).map
      (.set · alias?)

/-- The order of a relation is lifted if there is none yet and the relation has one. -/
theorem Relation.bubbleOrder_eq (r : Relation) (orders : List Order) :
    r.bubbleOrder orders =
      if orders.isEmpty then
        if r.canBubbleOrder then r.lifted
        else ⟨r, [], some (.orderBubblingUnsupported r.description)⟩
      else ⟨r, orders, some .orderAlreadyDefined⟩ := by
  cases orders with
  | cons => cases r <;> rfl
  | nil =>
    cases r with
    | table t =>
      rw [bubbleOrder, canBubbleOrder]
      cases t.storingOrder.isEmpty <;> rfl
    | select query alias? =>
      rw [bubbleOrder, canBubbleOrder]
      cases query.canBubbleOrder <;> rfl
    | set s alias? =>
      obtain ⟨operator, left, right, closing⟩ := s
      rw [bubbleOrder, canBubbleOrder]
      cases closing <;> rfl

/-- What is true of a relation that keeps its order and of one whose order is lifted is true of what
bubbling leaves. -/
theorem Relation.bubbleOrder_induction {P : Bubbled Relation → Prop} {r : Relation}
    {orders : List Order} (hkept : ∀ e, P ⟨r, orders, some e⟩) (hnone : ∀ e, P ⟨r, [], some e⟩)
    (hlifted : P r.lifted) : P (r.bubbleOrder orders) := by
  rw [bubbleOrder_eq]
  split
  · split
    · exact hlifted
    · exact hnone _
  · exact hkept _

/-- A subquery lifts its own orders, or those of its source, unless these cannot be lifted. -/
theorem Query.bubbleThrough_induction {P : Bubbled Query → Prop} {q : Query} {symbol : String}
    {bubbled : Bubbled Query} (hfailed : ∀ e, P ⟨bubbled.node, [], some e⟩)
    (hsource : P (bubbled.node.liftOrders symbol)) (hown : P (q.liftOrders symbol)) :
    P (q.bubbleThrough symbol bubbled) := by
  unfold bubbleThrough
  split
  · split
    · exact hfailed _
    · exact hsource
  · exact hown

/-- If the order of a source is lifted, then there was none yet. -/
theorem Source.eq_nil_of_bubbleOrder_success {s : Source} {orders : List Order}
    (h : (s.bubbleOrder orders).failure = none) : orders = [] := by
  cases s with
  | joined kind left right on => cases h
  | single r =>
    cases orders with
    | nil => rfl
    | cons order orders => cases r <;> cases h

/-- If the order of a subquery is lifted, then it has a natural order, which is exposed. -/
theorem Relation.bubbleOrder_select_success {q : Query} {alias? : Option String}
    (h : ((Relation.select q alias?).bubbleOrder []).failure = none) :
    (q.orders = [] → q.bubbleSourceOrder.failure = none) ∧
      (q.ordered.liftOrders (alias?.getD subqueryAlias)).failure = none ∧
      (Relation.select q alias?).bubbleOrder [] =
        (q.ordered.liftOrders (alias?.getD subqueryAlias)).map (.select · alias?) := by
  rw [Relation.bubbleOrder, if_neg (by simp)] at h ⊢
  split at h
  · cases h
  · next hcan =>
    rw [if_neg hcan]
    unfold Query.bubbleThrough at h ⊢
    unfold Query.ordered
    -- A subquery without orders of its own takes over those of its source first.
    split at h
    · next horders =>
      rw [if_pos horders, if_pos horders]
      cases hfailure : q.bubbleSourceOrder.failure with
      | some e => simp [hfailure, Bubbled.map] at h
      | none =>
        rw [hfailure] at h
        exact ⟨fun _ => rfl, h, rfl⟩
    · next horders =>
      rw [if_neg horders, if_neg horders]
      exact ⟨fun hnil => absurd (by simp [hnil]) horders, h, rfl⟩

/-! ## Implied orders -/

/-- The order that a query implies is one that it takes over from its source. -/
theorem Query.implyOrder_eq (q : Query) :
    q.implyOrder = q ∨
      q.bubbleSourceOrder.failure = none ∧ q.implyOrder = q.bubbleSourceOrder.node := by
  unfold implyOrder
  split
  · dsimp only
    split
    · next h => exact .inr ⟨Option.isNone_iff_eq_none.mp h, rfl⟩
    · exact .inl rfl
  · exact .inl rfl

/-- A query with its implied orders has other sources, conditions and orders at most. -/
theorem Query.implyOrders_eq (q : Query) :
    ∃ source criteria orders having, q.implyOrders =
      { q with source := source, criteria := criteria, orders := orders, having := having } := by
  obtain ⟨source, criteria, selection, distinct, orders, skip, take, aggregation, groupBy,
    having⟩ := q
  rw [implyOrders]
  generalize source.implyOrders = source
  generalize Criteria.implyOrdersOption criteria = criteria
  generalize Criteria.implyOrdersOption having = having
  rcases implyOrder_eq ⟨source, criteria, selection, distinct, orders, skip, take, aggregation,
    groupBy, having⟩ with heq | ⟨-, heq⟩
  · exact ⟨source, criteria, orders, having, heq⟩
  · rw [heq, bubbleSourceOrder_eq]
    exact ⟨_, _, _, _, rfl⟩

end DialectSql
