import DialectSql.Query.Scope

/-!
# Natural order

Some sources return their rows in an order of their own: a table in its storing order, a subquery in
the order that it asks for or inherits, a set operation in its closing order. Bubbling lifts that
order to the statement that reads the source. The order of a subquery is expressed by its output
columns, which may add columns to its projection; it is taken away from the subquery unless that
needs it to cut off rows.

Bubbling works on a source and a list of orders. It can fail half-way, and then shows what it left
behind.

## Main definitions

* `Relation.canBubbleOrder`, `Source.canBubbleOrder` — whether a source has an order of its own
* `Bubbled` — a node after bubbling, the orders, and the failure if there was one
* `expose` — the output column of an expression in a projection
* `Source.bubbleOrder`, `Query.bubbleSourceOrder` — bubbling
-/

namespace DialectSql

/-! ## Which sources have an order -/

mutual

/-- Whether a relation has an order of its own. -/
def Relation.canBubbleOrder : Relation → Bool
  | .table t => !t.storingOrder.isEmpty
  | .select query _ => query.canBubbleOrder
  | .set ⟨_, _, _, orders⟩ _ => !orders.isEmpty

/-- Whether a source has an order of its own; joins have none. -/
def Source.canBubbleOrder : Source → Bool
  | .single r => r.canBubbleOrder
  | .joined _ _ _ _ => false

/-- Whether a query orders its rows or reads a source that does. -/
def Query.canBubbleOrder : Query → Bool
  | ⟨source, _, _, _, orders, _, _, _, _, _⟩ => !orders.isEmpty || source.canBubbleOrder

end

/-! ## Output columns -/

/-- The output name of an order expression that is projected for the sake of the order. -/
def generatedAlias (index : Nat) : String :=
  "order_" ++ Text.natural index

/-- The output column of `e` in a projection that is written out: that of the first equal item,
which gets the name `generated` if it has none, or else that of a new item. -/
def exposeIn (generated : String) (e : Expression) : List Projection → String × List Projection
  | [] => (generated, [⟨e, some generated⟩])
  | item :: items =>
    if item.expression == e then
      match item.outputName? with
      | some name => (name, item :: items)
      | none => (generated, { item with alias? := some generated } :: items)
    else
      let (name, items) := exposeIn generated e items
      (name, item :: items)

/-- The output column of the order expression number `index` in a projection. A projection of every
column has the columns of the source under their own names. -/
def expose (selection : List Projection) (e : Expression) (index : Nat) :
    String × List Projection :=
  match selection, e.field? with
  | [], some f => (f.name, [])
  | [], none => exposeIn (generatedAlias index) e [⟨.allColumns, none⟩]
  | selection, _ => exposeIn (generatedAlias index) e selection

/-! ## Bubbling -/

/-- A node after bubbling: what became of it, the orders, and the failure if there was one. -/
structure Bubbled (α : Type) where
  /-- The node, as far as bubbling got. -/
  node : α
  /-- The orders, as far as bubbling got. -/
  orders : List Order
  /-- Why bubbling stopped. -/
  failure : Option Error

/-- The same outcome for a node around the one that was worked on. -/
def Bubbled.map {α β : Type} (f : α → β) (b : Bubbled α) : Bubbled β :=
  ⟨f b.node, b.orders, b.failure⟩

/-- Outcome of exposing the orders of a subquery: its projection, the orders by its output columns,
and the failure at an output name that is no column name. -/
def exposeOrders (symbol : String) :
    (index : Nat) → List Order → List Projection → Bubbled (List Projection)
  | _, [], selection => ⟨selection, [], none⟩
  | index, order :: orders, selection =>
    let (column, selection) := expose selection order.expression index
    match Field.qualified symbol column with
    | .error e => ⟨selection, [], some e⟩
    | .ok field =>
      let rest := exposeOrders symbol (index + 1) orders selection
      { rest with orders := ⟨.ofField field, order.direction⟩ :: rest.orders }

/-- A query after its own order was lifted to the symbol `symbol`. The order stays in the query only
if it decides which rows are cut off. -/
def Query.liftOrders (symbol : String) (q : Query) : Bubbled Query :=
  (exposeOrders symbol 0 q.orders q.selection).map fun selection =>
    { q with selection, orders := if q.isPaged then q.orders else [] }

/-- The orders of a set operation by its symbol. They have to be plain columns. -/
def liftSetOrders (symbol description : String) : List Order → Except Error (List Order)
  | [] => .ok []
  | order :: orders => do
    let some field := order.expression.field?
      | throw (.orderBubblingUnsupported description)
    let outer ← Field.qualified symbol field.name
    let rest ← liftSetOrders symbol description orders
    return ⟨.ofField outer, order.direction⟩ :: rest

/-- A set operation after its order was lifted to the symbol `symbol`; it keeps no order. -/
def QuerySet.liftOrders (symbol description : String) (s : QuerySet) : Bubbled QuerySet :=
  match liftSetOrders symbol description s.orders with
  | .ok orders => ⟨{ s with orders := [] }, orders, none⟩
  | .error e => ⟨s, [], some e⟩

/-- Bubbling where a relation has an order and the statement has none yet; `bubbled` is the subquery
with its own source bubbled, for a subquery without an order. -/
def Query.bubbleThrough (symbol : String) (q : Query) (bubbled : Bubbled Query) : Bubbled Query :=
  if q.orders.isEmpty then
    match bubbled.failure with
    | some e => ⟨bubbled.node, [], some e⟩
    | none => bubbled.node.liftOrders symbol
  else q.liftOrders symbol

mutual

/-- The order of a relation appended to `orders`, which have to be empty. -/
def Relation.bubbleOrder : Relation → List Order → Bubbled Relation
  | .table t, orders =>
    if !orders.isEmpty then ⟨.table t, orders, some .orderAlreadyDefined⟩
    else if t.storingOrder.isEmpty then
      ⟨.table t, [], some (.orderBubblingUnsupported (Relation.table t).description)⟩
    else
      ⟨.table t, t.storingOrder.map (·.requalify (.onto (some t.symbol))), none⟩
  | .select query alias?, orders =>
    if !orders.isEmpty then ⟨.select query alias?, orders, some .orderAlreadyDefined⟩
    else if !query.canBubbleOrder then
      ⟨.select query alias?, [],
        some (.orderBubblingUnsupported (Relation.select query alias?).description)⟩
    else
      -- The subquery is bubbled first, and what it orders by then is lifted out of it.
      (query.bubbleThrough (alias?.getD subqueryAlias) query.bubbleSourceOrder).map
        (.select · alias?)
  | .set s alias?, orders =>
    if !orders.isEmpty then ⟨.set s alias?, orders, some .orderAlreadyDefined⟩
    else if s.orders.isEmpty then
      ⟨.set s alias?, [], some (.orderBubblingUnsupported (Relation.set s alias?).description)⟩
    else
      (s.liftOrders (alias?.getD subqueryAlias) (Relation.set s alias?).description).map
        (.set · alias?)

/-- The order of a source appended to `orders`, which have to be empty; joins have no order. -/
def Source.bubbleOrder : Source → List Order → Bubbled Source
  | .single r, orders => (r.bubbleOrder orders).map .single
  | .joined kind left right on, orders =>
    ⟨.joined kind left right on, orders,
      some (.orderBubblingUnsupported (Source.joined kind left right on).description)⟩

/-- A query after the order of its source was taken over as its own. -/
def Query.bubbleSourceOrder : Query → Bubbled Query
  | ⟨source, criteria, selection, distinct, orders, skip, take, aggregation, groupBy, having⟩ =>
    let bubbled := source.bubbleOrder orders
    -- After a failure the query still has the source and the orders that bubbling left behind.
    { node := ⟨bubbled.node, criteria, selection, distinct, bubbled.orders, skip, take, aggregation,
        groupBy, having⟩
      orders := bubbled.orders
      failure := bubbled.failure }

end

end DialectSql
