import DialectSql.Proofs.NaturalOrder
import DialectSql.Proofs.Word
import DialectSql.Rendering

/-!
# Names in statement trees

The identifiers that a statement tree brings along: the names and aliases of its sources, the names
of its columns, and the qualifiers of columns and wildcards. Writing a statement adds symbols of its
own, and bubbling adds the output names of order expressions; nothing else is ever quoted.

## Main definitions

* `Expression.names`, `Query.names`, `Statement.names`, … — the identifiers of a tree
* `AdmitsSymbols` — a class of identifiers that has every symbol which writing adds

## Main results

* `Query.names_bubbleSourceOrder` — bubbling adds symbols and nothing else
* `Query.names_implyOrders`, `Statement.names_implyOrders`, … — so do implied orders
-/

namespace DialectSql

/-! ## The identifiers of a tree -/

/-- The identifiers of a column reference. -/
def Field.names (f : Field) : List String := f.name :: f.source.toList

namespace Expression

mutual

/-- The identifiers of an expression. -/
def names : Expression → List String
  | constant _ => []
  | field f _ => f.names
  | arithmetic _ left right => left.names ++ right.names
  | comparison _ left right => left.names ++ right.names
  | logic _ left right => left.names ++ right.names
  | bitwise _ left right => left.names ++ right.names
  | unary _ operand => operand.names
  | like subject pattern _ => subject.names ++ pattern.names
  | membership _ subject _ => subject.names
  | call _ args _ => namesList args
  | wildcard source => source.toList

/-- The identifiers of a list of expressions. -/
def namesList : List Expression → List String
  | [] => []
  | e :: es => e.names ++ namesList es

end

end Expression

/-- The identifiers of an order. -/
def Order.names (o : Order) : List String := o.expression.names

/-- The identifiers of a projected expression, its output name included. -/
def Projection.names (p : Projection) : List String := p.expression.names ++ p.alias?.toList

/-- The identifiers of an aggregate. -/
def Aggregation.names (a : Aggregation) : List String := a.argument.elim [] Expression.names

/-- The identifiers of a table, those of its storing order included. -/
def Table.names (t : Table) : List String :=
  t.name :: t.alias?.toList ++ t.storingOrder.flatMap Order.names

mutual

/-- The identifiers of a condition. -/
def Criteria.names : Criteria → List String
  | .expression e => e.names
  | .compound _ children => Criteria.namesList children
  | .inSelect subject query _ => subject.names ++ query.names

/-- The identifiers of a list of conditions. -/
def Criteria.namesList : List Criteria → List String
  | [] => []
  | c :: cs => c.names ++ Criteria.namesList cs

/-- The identifiers of an optional condition. -/
def Criteria.namesOption : Option Criteria → List String
  | none => []
  | some c => c.names

/-- The identifiers of a relation. -/
def Relation.names : Relation → List String
  | .table t => t.names
  | .select query alias? => query.names ++ alias?.toList
  | .set set alias? => set.names ++ alias?.toList

/-- The identifiers of a source. -/
def Source.names : Source → List String
  | .single r => r.names
  | .joined _ left right on => left.names ++ right.names ++ on.names

/-- The identifiers of a query. -/
def Query.names : Query → List String
  | ⟨source, criteria, selection, _, orders, _, _, aggregation, groupBy, having⟩ =>
    source.names ++ Criteria.namesOption criteria ++ selection.flatMap Projection.names ++
      orders.flatMap Order.names ++ aggregation.elim [] Aggregation.names ++
      groupBy.flatMap Expression.names ++ Criteria.namesOption having

/-- The identifiers of an operand of a set operation. -/
def SetOperand.names : SetOperand → List String
  | .query q => q.names
  | .set s => s.names

/-- The identifiers of a set operation. -/
def QuerySet.names : QuerySet → List String
  | ⟨_, left, right, orders⟩ => left.names ++ right.names ++ orders.flatMap Order.names

end

/-- The identifiers of an assignment. The qualifier of the column is never written. -/
def Assignment.names (a : Assignment) : List String :=
  a.column.name :: match a.value with
    | .expression e => e.names
    | _ => []

/-- The identifiers of a change. -/
def Change.names (c : Change) : List String :=
  c.source.names ++ Criteria.namesOption c.criteria ++ c.assignments.flatMap Assignment.names

/-- The identifiers of a statement. -/
def Statement.names : Statement → List String
  | query q => q.names
  | set s => s.names
  | change c => c.names

/-! ## Symbols that writing adds -/

/-- A class of identifiers that has every symbol which is added to a statement while it is written:
the symbols of wrappers, and the output names of order expressions. -/
structure AdmitsSymbols (N : String → Prop) : Prop where
  /-- The symbol of a subquery without an alias. -/
  subquery : N subqueryAlias
  /-- The symbol of the rows below an aggregate. -/
  aggregate : N aggregateSymbol
  /-- The symbol of different rows that are numbered. -/
  distinct : N distinctSymbol
  /-- The output name of an order expression. -/
  order : ∀ index, N (generatedAlias index)

variable {N : String → Prop}

/-- A class that has every word has the symbols that writing adds. -/
theorem AdmitsSymbols.of_words (h : ∀ name : String, name.toList.all Config.isNameChar → N name) :
    AdmitsSymbols N where
  subquery := h _ (by decide)
  aggregate := h _ (by decide)
  distinct := h _ (by decide)
  order index := by
    refine h _ ?_
    rw [generatedAlias, String.toList_append, List.all_append, Bool.and_eq_true]
    exact ⟨by decide, Text.all_isNameChar_natural index⟩

/-- The symbols that writing adds are words, and so they have no separator in them. -/
theorem AdmitsSymbols.of_separator {c : Char} (hc : Config.isNameChar c = false) :
    AdmitsSymbols fun name => c ∉ name.toList := by
  refine .of_words fun name hword hmem => ?_
  rw [List.all_eq_true.mp hword c hmem] at hc
  cases hc

/-! ## Requalified references -/

section Requalify

variable {target : String}

mutual

/-- Moving fields onto a source adds its symbol. -/
theorem Expression.names_requalify_onto (ht : N target) :
    ∀ e : Expression, (∀ n ∈ e.names, N n) →
      ∀ n ∈ (e.requalify (.onto (some target))).names, N n
  | .constant _, h => h
  | .field f _, h => by
    simp only [names, Field.names, List.forall_mem_cons] at h
    simpa [requalify, Field.requalify, Requalification.onto, Field.withSource, names, Field.names]
      using ⟨h.1, ht⟩
  | .arithmetic _ a b, h | .comparison _ a b, h | .logic _ a b, h | .bitwise _ a b, h
  | .like a b _, h => by
    rw [names, List.forall_mem_append] at h
    rw [requalify, names, List.forall_mem_append]
    exact ⟨names_requalify_onto ht a h.1, names_requalify_onto ht b h.2⟩
  | .unary _ a, h | .membership _ a _, h => names_requalify_onto ht a h
  | .call _ args _, h => namesList_requalify_onto ht args h
  | .wildcard _, h => h

/-- Moving the fields of a list onto a source adds its symbol. -/
theorem Expression.namesList_requalify_onto (ht : N target) :
    ∀ es : List Expression, (∀ n ∈ namesList es, N n) →
      ∀ n ∈ namesList (requalifyList (.onto (some target)) es), N n
  | [], h => h
  | e :: es, h => by
    rw [namesList, List.forall_mem_append] at h
    rw [requalifyList, namesList, List.forall_mem_append]
    exact ⟨names_requalify_onto ht e h.1, namesList_requalify_onto ht es h.2⟩

end

end Requalify

/-! ## Bubbled orders -/

/-- A column reference has the name of its column. -/
theorem Expression.name_mem_names_of_field? {e : Expression} {f : Field} (h : e.field? = some f) :
    f.name ∈ e.names := by
  cases e with
  | field g type =>
    obtain rfl : g = f := by simpa [field?] using h
    simp [names, Field.names]
  | _ => simp [field?] at h

/-- An output name is an alias or the name of a column. -/
theorem Projection.mem_names_of_outputName? {p : Projection} {name : String}
    (h : p.outputName? = some name) : name ∈ p.names := by
  obtain ⟨e, alias?⟩ := p
  rw [names, List.mem_append]
  cases alias? with
  | some a =>
    obtain rfl : a = name := by simpa [outputName?] using h
    exact .inr (by simp)
  | none =>
    obtain ⟨f, hf, rfl⟩ : ∃ f, e.field? = some f ∧ f.name = name := by
      simpa [outputName?] using h
    exact .inl (Expression.name_mem_names_of_field? hf)

/-- Exposing an expression brings the identifiers of the expression and its output name. -/
theorem names_exposeIn {generated : String} (hg : N generated) {e : Expression}
    (he : ∀ n ∈ e.names, N n) :
    ∀ {items : List Projection}, (∀ n ∈ items.flatMap Projection.names, N n) →
      N (exposeIn generated e items).1 ∧
        ∀ n ∈ (exposeIn generated e items).2.flatMap Projection.names, N n
  | [], _ => by
    refine ⟨hg, ?_⟩
    simpa [exposeIn, Projection.names, or_imp, forall_and] using ⟨he, hg⟩
  | item :: items, h => by
    rw [List.flatMap_cons, List.forall_mem_append] at h
    obtain ⟨hitem, hitems⟩ := h
    obtain ⟨hname, hrest⟩ := names_exposeIn hg he hitems
    rw [exposeIn]
    split
    · split
      · next name hname? =>
        refine ⟨hitem _ (Projection.mem_names_of_outputName? hname?), ?_⟩
        rw [List.flatMap_cons, List.forall_mem_append]
        exact ⟨hitem, hitems⟩
      -- The item has the expression but no output name, so it gets the generated one.
      · refine ⟨hg, ?_⟩
        rw [Projection.names, List.forall_mem_append] at hitem
        rw [List.flatMap_cons, List.forall_mem_append, Projection.names, List.forall_mem_append]
        exact ⟨⟨hitem.1, by simpa using hg⟩, hitems⟩
    · refine ⟨hname, ?_⟩
      rw [List.flatMap_cons, List.forall_mem_append]
      exact ⟨hitem, hrest⟩

/-- Exposing an order expression brings its identifiers and its output name. -/
theorem names_expose (hN : AdmitsSymbols N) {e : Expression} (he : ∀ n ∈ e.names, N n)
    (index : Nat) {selection : List Projection}
    (hs : ∀ n ∈ selection.flatMap Projection.names, N n) :
    N (expose selection e index).1 ∧
      ∀ n ∈ (expose selection e index).2.flatMap Projection.names, N n := by
  unfold expose
  split
  · next f hf => exact ⟨he _ (Expression.name_mem_names_of_field? hf), by simp⟩
  · exact names_exposeIn (hN.order index) he (by
      simp [Projection.names, Expression.allColumns, Expression.names])
  · exact names_exposeIn (hN.order index) he hs

/-- A checked reference has the identifiers that it is made of. -/
theorem Field.names_qualified {symbol column : String} {f : Field}
    (h : Field.qualified symbol column = .ok f) : f.names = [column, symbol] := by
  unfold qualified unqualified at h
  split at h <;> cases h
  rfl

/-- Exposing orders brings their identifiers, the symbol, and output names. -/
theorem names_exposeOrders (hN : AdmitsSymbols N) {symbol : String} (hsymbol : N symbol) :
    ∀ (index : Nat) {orders : List Order} {selection : List Projection},
      (∀ n ∈ orders.flatMap Order.names, N n) →
      (∀ n ∈ selection.flatMap Projection.names, N n) →
      (∀ n ∈ (exposeOrders symbol index orders selection).node.flatMap Projection.names, N n) ∧
        ∀ n ∈ (exposeOrders symbol index orders selection).orders.flatMap Order.names, N n
  | _, [], _, _, hs => ⟨hs, by simp [exposeOrders]⟩
  | index, order :: orders, selection, ho, hs => by
    rw [List.flatMap_cons, List.forall_mem_append] at ho
    obtain ⟨hcolumn, hselection⟩ := names_expose hN ho.1 index hs
    obtain ⟨hnode, hrest⟩ := names_exposeOrders hN hsymbol (index + 1) ho.2 hselection
    rw [exposeOrders_cons]
    -- An output name that is no column name ends the pass, with its item exposed by then.
    split
    · exact ⟨hselection, by simp⟩
    · next field hfield =>
      refine ⟨hnode, ?_⟩
      rw [List.flatMap_cons, List.forall_mem_append]
      refine ⟨?_, hrest⟩
      rw [Order.names, Expression.ofField, Expression.names, Field.names_qualified hfield]
      simpa using ⟨hcolumn, hsymbol⟩

/-- The orders lifted from a set operation bring its identifiers and the symbol. -/
theorem names_liftSetOrders {symbol description : String} (hsymbol : N symbol) :
    ∀ {orders lifted : List Order}, (∀ n ∈ orders.flatMap Order.names, N n) →
      liftSetOrders symbol description orders = .ok lifted →
      ∀ n ∈ lifted.flatMap Order.names, N n
  | [], lifted, _, h => by
    obtain rfl : [] = lifted := by simpa [liftSetOrders] using h
    simp
  | order :: orders, lifted, ho, h => by
    rw [List.flatMap_cons, List.forall_mem_append] at ho
    -- The lifted order is a column of the set operation on the symbol.
    obtain ⟨f, outer, rest, hcolumn, hfield, hrest, rfl⟩ := liftSetOrders_cons_ok h
    rw [List.flatMap_cons, List.forall_mem_append]
    refine ⟨?_, names_liftSetOrders hsymbol ho.2 hrest⟩
    rw [Order.names, Expression.ofField, Expression.names, Field.names_qualified hfield]
    have hname : N f.name := ho.1 _ (Expression.name_mem_names_of_field? hcolumn)
    simpa using ⟨hname, hsymbol⟩

/-- The symbol of a subquery is its alias, or the common one. -/
theorem AdmitsSymbols.alias (hN : AdmitsSymbols N) {alias? : Option String}
    (h : ∀ n ∈ alias?.toList, N n) : N (alias?.getD subqueryAlias) := by
  cases alias? with
  | none => exact hN.subquery
  | some a => exact h a (by simp)

/-- The symbol of a table is its alias or its name. -/
theorem Table.names_symbol (t : Table) (h : ∀ n ∈ t.names, N n) : N t.symbol := by
  simp only [names, List.forall_mem_append, List.forall_mem_cons] at h
  obtain ⟨⟨hname, halias⟩, -⟩ := h
  unfold symbol
  cases ha : t.alias? with
  | none => exact hname
  | some a => exact halias a (by simp [ha])

/-- The symbol of a relation is among its identifiers, or one that writing adds. -/
theorem Relation.names_symbol (hN : AdmitsSymbols N) {r : Relation} (h : ∀ n ∈ r.names, N n) :
    N r.symbol := by
  cases r with
  | table t => exact t.names_symbol h
  | select query alias? =>
    rw [Relation.names, List.forall_mem_append] at h
    exact hN.alias h.2
  | set set alias? =>
    rw [Relation.names, List.forall_mem_append] at h
    exact hN.alias h.2

/-- The first relation of a source brings nothing that the source does not bring. -/
theorem Source.names_leftmost : ∀ r : Source, (∀ n ∈ r.names, N n) → ∀ n ∈ r.leftmost.names, N n
  | .single _, h => h
  | .joined _ left _ _, h => by
    simp only [Source.names, List.forall_mem_append] at h
    exact names_leftmost left h.1.1

/-- Lifting the orders of a query brings the symbol and output names. -/
theorem Query.names_liftOrders (hN : AdmitsSymbols N) {symbol : String} (hsymbol : N symbol)
    {q : Query} (h : ∀ n ∈ q.names, N n) :
    (∀ n ∈ (q.liftOrders symbol).node.names, N n) ∧
      ∀ n ∈ (q.liftOrders symbol).orders.flatMap Order.names, N n := by
  obtain ⟨source, criteria, selection, distinct, orders, skip, take, aggregation, groupBy,
    having⟩ := q
  simp only [names, List.forall_mem_append] at h
  obtain ⟨⟨⟨⟨⟨⟨hsource, hcriteria⟩, hselection⟩, horders⟩, haggregation⟩, hgroup⟩, hhaving⟩ := h
  obtain ⟨hnode, hlifted⟩ := names_exposeOrders hN hsymbol 0 horders hselection
  refine ⟨?_, hlifted⟩
  -- A limited query keeps its orders, since they decide which rows are left.
  have hkept : ∀ n ∈ (if (skip.isSome || take.isSome) = true then orders else []).flatMap
      Order.names, N n := by
    split
    · exact horders
    · simp
  simp only [liftOrders, Bubbled.map, names, isPaged, List.forall_mem_append]
  exact ⟨⟨⟨⟨⟨⟨hsource, hcriteria⟩, hnode⟩, hkept⟩, haggregation⟩, hgroup⟩, hhaving⟩

mutual

/-- Lifting the order of a relation adds symbols and nothing else. -/
theorem Relation.names_lifted (hN : AdmitsSymbols N) :
    ∀ r : Relation, (∀ n ∈ r.names, N n) →
      (∀ n ∈ r.lifted.node.names, N n) ∧ ∀ n ∈ r.lifted.orders.flatMap Order.names, N n
  | .table t, h => by
    refine ⟨h, ?_⟩
    have hsymbol : N t.symbol := t.names_symbol h
    simp only [Relation.names, Table.names, List.forall_mem_append] at h
    obtain ⟨-, hstoring⟩ := h
    rw [List.forall_mem_flatMap] at hstoring ⊢
    intro order hmem
    obtain ⟨stored, hstored, rfl⟩ := List.mem_map.mp hmem
    exact Expression.names_requalify_onto hsymbol stored.expression (hstoring stored hstored)
  | .select query alias?, h => by
    rw [Relation.names, List.forall_mem_append] at h
    obtain ⟨hquery, halias⟩ := h
    obtain ⟨hsource, -⟩ := Query.names_bubbleSourceOrder hN query hquery
    obtain ⟨hnode, horders⟩ := Query.bubbleThrough_induction
      (P := fun b => (∀ n ∈ b.node.names, N n) ∧ ∀ n ∈ b.orders.flatMap Order.names, N n)
      (fun _ => ⟨hsource, by simp⟩) (Query.names_liftOrders hN (hN.alias halias) hsource)
      (Query.names_liftOrders hN (hN.alias halias) hquery)
    refine ⟨?_, horders⟩
    simp only [Relation.lifted, Bubbled.map, Relation.names, List.forall_mem_append]
    exact ⟨hnode, halias⟩
  | .set ⟨operator, left, right, closing⟩ alias?, h => by
    have hall := h
    simp only [Relation.names, QuerySet.names, List.forall_mem_append] at h
    obtain ⟨⟨⟨hleft, hright⟩, hclosing⟩, halias⟩ := h
    rw [Relation.lifted]
    unfold QuerySet.liftOrders
    split
    · next lifted hlifted =>
      refine ⟨?_, names_liftSetOrders (hN.alias halias) hclosing hlifted⟩
      simp only [Bubbled.map, Relation.names, QuerySet.names, List.forall_mem_append]
      exact ⟨⟨⟨hleft, hright⟩, by simp⟩, halias⟩
    -- A failed lift leaves the set operation as it was.
    · exact ⟨hall, by simp [Bubbled.map]⟩

/-- Bubbling the order of a source adds symbols and nothing else. -/
theorem Source.names_bubbleOrder (hN : AdmitsSymbols N) :
    ∀ (s : Source) (orders : List Order), (∀ n ∈ s.names, N n) →
      (∀ n ∈ orders.flatMap Order.names, N n) →
      (∀ n ∈ (s.bubbleOrder orders).node.names, N n) ∧
        ∀ n ∈ (s.bubbleOrder orders).orders.flatMap Order.names, N n
  | .single r, orders, h, ho => by
    exact Relation.bubbleOrder_induction
      (P := fun b => (∀ n ∈ b.node.names, N n) ∧ ∀ n ∈ b.orders.flatMap Order.names, N n)
      (fun _ => ⟨h, ho⟩) (fun _ => ⟨h, by simp⟩) (Relation.names_lifted hN r h)
  | .joined _ _ _ _, _, h, ho => ⟨h, ho⟩

/-- Bubbling the order of a query's source adds symbols and nothing else. -/
theorem Query.names_bubbleSourceOrder (hN : AdmitsSymbols N) :
    ∀ q : Query, (∀ n ∈ q.names, N n) →
      (∀ n ∈ q.bubbleSourceOrder.node.names, N n) ∧
        ∀ n ∈ q.bubbleSourceOrder.orders.flatMap Order.names, N n
  | ⟨source, criteria, selection, distinct, orders, skip, take, aggregation, groupBy, having⟩,
    h => by
    simp only [Query.names, List.forall_mem_append] at h
    obtain ⟨⟨⟨⟨⟨⟨hsource, hcriteria⟩, hselection⟩, horders⟩, haggregation⟩, hgroup⟩, hhaving⟩ := h
    obtain ⟨hnode, hbubbled⟩ := Source.names_bubbleOrder hN source orders hsource horders
    simp only [Query.bubbleSourceOrder, Query.names, List.forall_mem_append]
    exact ⟨⟨⟨⟨⟨⟨⟨hnode, hcriteria⟩, hselection⟩, hbubbled⟩, haggregation⟩, hgroup⟩, hhaving⟩,
      hbubbled⟩

end

/-! ## Implied orders -/

/-- The order that a query implies adds symbols and nothing else. -/
theorem Query.names_implyOrder (hN : AdmitsSymbols N) {q : Query} (h : ∀ n ∈ q.names, N n) :
    ∀ n ∈ q.implyOrder.names, N n := by
  unfold implyOrder
  split
  · dsimp only
    split
    · exact (names_bubbleSourceOrder hN q h).1
    · exact h
  · exact h

mutual

/-- The implied orders of a condition add symbols and nothing else. -/
theorem Criteria.names_implyOrders (hN : AdmitsSymbols N) :
    ∀ c : Criteria, (∀ n ∈ c.names, N n) → ∀ n ∈ c.implyOrders.names, N n
  | .expression _, h => h
  | .compound _ children, h => Criteria.names_implyOrdersList hN children h
  | .inSelect subject query op, h => by
    rw [Criteria.names, List.forall_mem_append] at h
    rw [Criteria.implyOrders, Criteria.names, List.forall_mem_append]
    exact ⟨h.1, Query.names_implyOrders hN query h.2⟩

/-- The implied orders of a list of conditions add symbols and nothing else. -/
theorem Criteria.names_implyOrdersList (hN : AdmitsSymbols N) :
    ∀ cs : List Criteria, (∀ n ∈ Criteria.namesList cs, N n) →
      ∀ n ∈ Criteria.namesList (Criteria.implyOrdersList cs), N n
  | [], h => h
  | c :: cs, h => by
    rw [Criteria.namesList, List.forall_mem_append] at h
    rw [Criteria.implyOrdersList, Criteria.namesList, List.forall_mem_append]
    exact ⟨Criteria.names_implyOrders hN c h.1, Criteria.names_implyOrdersList hN cs h.2⟩

/-- The implied orders of an optional condition add symbols and nothing else. -/
theorem Criteria.names_implyOrdersOption (hN : AdmitsSymbols N) :
    ∀ c? : Option Criteria, (∀ n ∈ Criteria.namesOption c?, N n) →
      ∀ n ∈ Criteria.namesOption (Criteria.implyOrdersOption c?), N n
  | none, h => h
  | some c, h => Criteria.names_implyOrders hN c h

/-- The implied orders of a relation add symbols and nothing else. -/
theorem Relation.names_implyOrders (hN : AdmitsSymbols N) :
    ∀ r : Relation, (∀ n ∈ r.names, N n) → ∀ n ∈ r.implyOrders.names, N n
  | .table _, h => h
  | .select query alias?, h => by
    rw [Relation.names, List.forall_mem_append] at h
    rw [Relation.implyOrders, Relation.names, List.forall_mem_append]
    exact ⟨Query.names_implyOrders hN query h.1, h.2⟩
  | .set s alias?, h => by
    rw [Relation.names, List.forall_mem_append] at h
    rw [Relation.implyOrders, Relation.names, List.forall_mem_append]
    exact ⟨QuerySet.names_implyOrders hN s h.1, h.2⟩

/-- The implied orders of a source add symbols and nothing else. -/
theorem Source.names_implyOrders (hN : AdmitsSymbols N) :
    ∀ s : Source, (∀ n ∈ s.names, N n) → ∀ n ∈ s.implyOrders.names, N n
  | .single r, h => Relation.names_implyOrders hN r h
  | .joined kind left right on, h => by
    simp only [Source.names, List.forall_mem_append] at h
    obtain ⟨⟨hleft, hright⟩, hon⟩ := h
    simp only [Source.implyOrders, Source.names, List.forall_mem_append]
    exact ⟨⟨Source.names_implyOrders hN left hleft, Source.names_implyOrders hN right hright⟩,
      Criteria.names_implyOrders hN on hon⟩

/-- The implied orders of a query add symbols and nothing else. -/
theorem Query.names_implyOrders (hN : AdmitsSymbols N) :
    ∀ q : Query, (∀ n ∈ q.names, N n) → ∀ n ∈ q.implyOrders.names, N n
  | ⟨source, criteria, selection, distinct, orders, skip, take, aggregation, groupBy, having⟩,
    h => by
    simp only [Query.names, List.forall_mem_append] at h
    obtain ⟨⟨⟨⟨⟨⟨hsource, hcriteria⟩, hselection⟩, horders⟩, haggregation⟩, hgroup⟩, hhaving⟩ := h
    rw [Query.implyOrders]
    refine Query.names_implyOrder hN ?_
    simp only [Query.names, List.forall_mem_append]
    exact ⟨⟨⟨⟨⟨⟨Source.names_implyOrders hN source hsource,
      Criteria.names_implyOrdersOption hN criteria hcriteria⟩, hselection⟩, horders⟩,
      haggregation⟩, hgroup⟩, Criteria.names_implyOrdersOption hN having hhaving⟩

/-- The implied orders of an operand add symbols and nothing else. -/
theorem SetOperand.names_implyOrders (hN : AdmitsSymbols N) :
    ∀ o : SetOperand, (∀ n ∈ o.names, N n) → ∀ n ∈ o.implyOrders.names, N n
  | .query q, h => Query.names_implyOrders hN q h
  | .set s, h => QuerySet.names_implyOrders hN s h

/-- The implied orders of a set operation add symbols and nothing else. -/
theorem QuerySet.names_implyOrders (hN : AdmitsSymbols N) :
    ∀ s : QuerySet, (∀ n ∈ s.names, N n) → ∀ n ∈ s.implyOrders.names, N n
  | ⟨operator, left, right, orders⟩, h => by
    simp only [QuerySet.names, List.forall_mem_append] at h
    obtain ⟨⟨hleft, hright⟩, horders⟩ := h
    simp only [QuerySet.implyOrders, QuerySet.names, List.forall_mem_append]
    exact ⟨⟨SetOperand.names_implyOrders hN left hleft,
      SetOperand.names_implyOrders hN right hright⟩,
      horders⟩

end

/-- The implied orders of a change add symbols and nothing else. -/
theorem Change.names_implyOrders (hN : AdmitsSymbols N) {c : Change} (h : ∀ n ∈ c.names, N n) :
    ∀ n ∈ c.implyOrders.names, N n := by
  simp only [names, List.forall_mem_append] at h
  obtain ⟨⟨hsource, hcriteria⟩, hassigned⟩ := h
  simp only [implyOrders, names, List.forall_mem_append]
  exact ⟨⟨Source.names_implyOrders hN _ hsource, Criteria.names_implyOrdersOption hN _ hcriteria⟩,
    hassigned⟩

/-- The implied orders of a statement add symbols and nothing else. -/
theorem Statement.names_implyOrders (hN : AdmitsSymbols N) {t : Statement}
    (h : ∀ n ∈ t.names, N n) : ∀ n ∈ t.implyOrders.names, N n := by
  cases t with
  | query q => exact Query.names_implyOrders hN q h
  | set s => exact QuerySet.names_implyOrders hN s h
  | change c => exact Change.names_implyOrders hN h

end DialectSql
