import DialectSql.Proofs.NaturalOrder.Lift
import DialectSql.Proofs.NaturalOrder.Prediction

/-!
# Interrupted lifts

A lift can fail half-way. Where a source has no order that can be lifted, nothing has happened yet.
But the orders of a subquery are taken out of it before they are exposed one by one, and an output
name that is no column name stops this. Then the subquery has lost its orders, unless it needs them
to cut off rows, and the statement that reads it keeps those that were exposed by then. The
statements further out have not been changed.

## Main definitions

* `Query.spent` — a query in its natural order after that was taken out
* `Relation.BreaksOff`, `Query.BreaksOff` — what is left of a lift that stops at an output name

## Main results

* `exposeOrders_failure` — where the orders of a subquery stop
* `Query.ne_bubbleSourceOrder_iff` — when a lift that fails has changed something, and what
-/

namespace DialectSql

variable {generated symbol column : String} {expression : Expression} {e : Error} {index : Nat}
  {orders : List Order} {selection selection' : List Projection}

/-! ## Where orders stop -/

/-- An expression is exposed by a name that is there already, and then nothing changes, or by a name
that is made up. -/
theorem Exposes.unchanged_or_generated
    (h : Exposes generated expression selection column selection') :
    (selection' = selection ∧ column ∈ outputNames selection) ∨ column = generated := by
  cases h with
  | named hfront hitem hname => exact .inl ⟨rfl, by simp [outputNames, hname]⟩
  | unnamed => exact .inr rfl
  | absent => exact .inr rfl

/-- Where the output name of an expression is no column name, exposing it changes nothing. -/
theorem expose_of_not_isColumnName
    (h : ¬ Field.IsColumnName (expose selection expression index).1) :
    (expose selection expression index).2 = selection := by
  have hgenerated := isColumnName_generatedAlias index
  cases selection with
  | cons item items =>
    rcases (exposes_expose (List.cons_ne_nil item items) expression index).unchanged_or_generated
      with ⟨hsame, -⟩ | hname
    · exact hsame
    · exact absurd (hname.symm ▸ hgenerated) h
  | nil =>
    cases hcolumn : expression.field? with
    | some f => simp only [expose, hcolumn]
    | none =>
      -- The item for every column has no name that could be used.
      simp only [expose, hcolumn] at h ⊢
      rcases (exposes_exposeIn (generatedAlias index) expression
        [⟨.allColumns, none⟩]).unchanged_or_generated with ⟨-, hname⟩ | hname
      · cases hname
      · exact absurd (hname.symm ▸ hgenerated) h

/-- A column of a symbol is refused for its name, which is no column name. -/
theorem Field.qualified_eq_error {symbol name : String}
    (h : Field.qualified symbol name = .error e) :
    ¬ IsColumnName name ∧ e = .invalidField name := by
  unfold qualified unqualified at h
  split at h
  · cases h
  · next hname =>
    cases h
    exact ⟨hname, rfl⟩

/-- If not all orders of a subquery are exposed, then this stops at one whose output name is no
column name, and what is there by then are the orders in front of it. -/
theorem exposeOrders_failure :
    ∀ {index : Nat} {selection : List Projection},
      (exposeOrders symbol index orders selection).failure = some e →
      ∃ front order back, orders = front ++ order :: back ∧
        let exposed := exposeOrders symbol index front selection
        let column := (expose exposed.node order.expression (index + front.length)).1
        exposed.failure = none ∧ ¬ Field.IsColumnName column ∧ e = .invalidField column ∧
          exposeOrders symbol index orders selection =
            { exposed with failure := some (.invalidField column) } := by
  induction orders with
  | nil => exact fun h => by cases h
  | cons order orders ih =>
    intro index selection h
    rw [exposeOrders_cons] at h ⊢
    cases hfield : Field.qualified symbol (expose selection order.expression index).1 with
    | error e' =>
      simp only [hfield] at h
      cases h
      obtain ⟨hname, rfl⟩ := Field.qualified_eq_error hfield
      -- The pass stops here, with no order in front.
      refine ⟨[], order, orders, rfl, rfl, hname, rfl, ?_⟩
      rw [expose_of_not_isColumnName hname]
      rfl
    | ok field =>
      simp only [hfield] at h
      obtain ⟨front, stopped, back, rfl, hfront, hname, he, hall⟩ := ih h
      -- The pass stops further back, and this order is exposed by then.
      refine ⟨order :: front, stopped, back, rfl, ?_⟩
      have hnumber : index + (order :: front).length = index + 1 + front.length := by
        simp only [List.length_cons]
        omega
      simp only [exposeOrders_cons, hfield, hnumber]
      exact ⟨hfront, hname, he, by rw [hall]⟩

/-! ## What is left -/

/-- A query in its natural order after that was taken out of it. The orders stay only if they decide
which rows are cut off. -/
def Query.spent (ordered : Query) : Query :=
  { ordered with orders := if ordered.isPaged then ordered.orders else [] }

mutual

/-- What is left of a relation whose lift stops at the output name `column` after something has
changed, and the orders that it has given by then. -/
inductive Relation.BreaksOff : Relation → (column : String) → List Order → Relation → Prop
  /-- A subquery is in its natural order when the output name of one of its orders turns out to be
  no column name. The orders in front of that are exposed. -/
  | here {q ordered : Query} {alias? : Option String} {front back : List Order} {order : Order}
      {column : String} {exposed : Bubbled (List Projection)} (hordered : Query.Orders q ordered)
      (horders : ordered.orders = front ++ order :: back)
      (hexposed : exposed =
        exposeOrders (Relation.select q alias?).symbol 0 front ordered.selection)
      (hfront : exposed.failure = none)
      (hcolumn : (expose exposed.node order.expression front.length).1 = column)
      (hname : ¬ Field.IsColumnName column) (hchanged : front ≠ [] ∨ ordered.spent ≠ q) :
      Relation.BreaksOff (.select q alias?) column exposed.orders
        (.select { ordered.spent with selection := exposed.node } alias?)
  /-- A subquery without orders asks its source for some, and that breaks off. -/
  | inner {q q' : Query} {alias? : Option String} {column : String}
      (hsource : Query.BreaksOff q column q') :
      Relation.BreaksOff (.select q alias?) column [] (.select q' alias?)

/-- What is left of a query that asks its source for its order in vain, if something has changed. -/
inductive Query.BreaksOff : Query → (column : String) → Query → Prop
  /-- The source is as the lift has left it, and the orders are those that it has given. -/
  | source {q : Query} {r r' : Relation} {column : String} {orders : List Order}
      (hnone : q.orders = []) (hsource : q.source = .single r)
      (hlift : Relation.BreaksOff r column orders r') :
      Query.BreaksOff q column { q with source := .single r', orders := orders }

end

mutual

/-- A relation that gives no order has changed itself. -/
theorem Relation.BreaksOff.ne {r r' : Relation} {column : String} {orders : List Order} :
    r.BreaksOff column orders r' → orders = [] → r' ≠ r
  | @Relation.BreaksOff.here q ordered _ front _ _ _ _ _ _ hexposed hfront _ _ hchanged,
    hnone => by
    intro hsame
    subst hexposed
    -- There are as many orders as were exposed, so none was.
    have hbyColumn := byColumn_exposeOrders hfront
    rw [hnone] at hbyColumn
    obtain rfl : front = [] := List.forall₂_nil_right_iff.mp hbyColumn
    have hspent : ordered.spent ≠ q := hchanged.resolve_left (by simp)
    exact hspent (Relation.select.inj hsame).1
  | .inner hsource, _ => fun hsame => hsource.ne (Relation.select.inj hsame).1

/-- A query whose lift breaks off is not as it was. -/
theorem Query.BreaksOff.ne {q q' : Query} {column : String} : q.BreaksOff column q' → q' ≠ q
  | .source hnone hsource hlift => by
    intro hsame
    refine hlift.ne ((congrArg Query.orders hsame).trans hnone) ?_
    exact Source.single.inj ((congrArg Query.source hsame).trans hsource)

end

/-! ## Failed lifts -/

/-- If the orders of a subquery in its natural order stop, then it is as it was and has given none,
or its lift breaks off. -/
theorem Query.Orders.breaksOff_liftOrders {q ordered : Query} {alias? : Option String}
    (hordered : q.Orders ordered)
    (h : (ordered.liftOrders (Relation.select q alias?).symbol).failure = some e) :
    let lifted := ordered.liftOrders (Relation.select q alias?).symbol
    (Relation.select lifted.node alias? = .select q alias? ∧ lifted.orders = []) ∨
      ∃ column, e = .invalidField column ∧
        (Relation.select q alias?).BreaksOff column lifted.orders (.select lifted.node alias?) := by
  intro lifted
  obtain ⟨front, order, back, horders, hfront, hname, he, hall⟩ := exposeOrders_failure h
  rw [Nat.zero_add] at hname he hall
  have hlifted : lifted = (exposeOrders (Relation.select q alias?).symbol 0 ordered.orders
      ordered.selection).map fun selection => { ordered.spent with selection } := rfl
  rw [hall] at hlifted
  rw [hlifted]
  -- Nothing has changed if the first order stops the pass and none was taken out.
  by_cases hchanged : front ≠ [] ∨ ordered.spent ≠ q
  · exact .inr ⟨_, he, .here hordered horders rfl hfront rfl hname hchanged⟩
  · rw [not_or, not_not, not_not] at hchanged
    obtain ⟨rfl, hspent⟩ := hchanged
    exact .inl ⟨congrArg (Relation.select · alias?) hspent, rfl⟩

mutual

/-- If the order of a relation is not lifted, then it is as it was and has given none, or its lift
breaks off. -/
theorem Relation.breaksOff_bubbleOrder :
    ∀ r : Relation, (r.bubbleOrder []).failure = some e →
      ((r.bubbleOrder []).node = r ∧ (r.bubbleOrder []).orders = []) ∨
        ∃ column, e = .invalidField column ∧
          r.BreaksOff column (r.bubbleOrder []).orders (r.bubbleOrder []).node
  | .table t, h => by
    rw [Relation.bubbleOrder, if_neg (by simp)] at h ⊢
    split at h
    · next hnone => exact .inl (by rw [if_pos hnone]; exact ⟨rfl, rfl⟩)
    · cases h
  | .select q alias?, h => by
    rw [Relation.bubbleOrder, if_neg (by simp)] at h ⊢
    split at h
    · next hnone => exact .inl (by rw [if_pos hnone]; exact ⟨rfl, rfl⟩)
    · next hcan =>
      rw [if_neg hcan]
      unfold Query.bubbleThrough at h ⊢
      split at h
      · next hempty =>
        rw [if_pos hempty]
        have hnone : q.orders = [] := List.isEmpty_iff.mp hempty
        cases hfailure : q.bubbleSourceOrder.failure with
        | some e' =>
          -- The lift failed further in, and the subquery has not been asked for anything.
          rw [hfailure] at h
          cases h
          rcases Query.breaksOff_bubbleSourceOrder q hfailure with hsame | ⟨column, he, hbreaks⟩
          · exact .inl ⟨congrArg (Relation.select · alias?) hsame, rfl⟩
          · exact .inr ⟨column, he, .inner hbreaks⟩
        | none =>
          rw [hfailure] at h
          exact (Query.orders_bubbleSourceOrder q hnone hfailure).breaksOff_liftOrders h
      · next hempty =>
        rw [if_neg hempty]
        have hordered : q.Orders q := .own (by simpa using hempty)
        exact hordered.breaksOff_liftOrders h
  | .set s alias?, h => by
    obtain ⟨operator, left, right, closing⟩ := s
    rw [Relation.bubbleOrder, if_neg (by simp)] at h ⊢
    split at h
    · next hnone => exact .inl (by rw [if_pos hnone]; exact ⟨rfl, rfl⟩)
    · next hsome =>
      rw [if_neg hsome]
      -- All orders of a set operation are looked at before it gives any.
      unfold QuerySet.liftOrders at h ⊢
      split at h
      · cases h
      · exact .inl ⟨rfl, rfl⟩

/-- If a query asks its source for its order in vain, then it is as it was, or the lift breaks
off. -/
theorem Query.breaksOff_bubbleSourceOrder :
    ∀ q : Query, q.bubbleSourceOrder.failure = some e →
      q.bubbleSourceOrder.node = q ∨
        ∃ column, e = .invalidField column ∧ q.BreaksOff column q.bubbleSourceOrder.node
  | ⟨.single r, criteria, selection, distinct, [], skip, take, aggregation, groupBy, having⟩,
    h => by
    rcases Relation.breaksOff_bubbleOrder r h with ⟨hnode, hnone⟩ | ⟨column, he, hbreaks⟩
    · left
      simp only [Query.bubbleSourceOrder, Source.bubbleOrder, Bubbled.map, hnode, hnone]
    · exact .inr ⟨column, he, .source rfl rfl hbreaks⟩
  | ⟨.single r, criteria, selection, distinct, order :: orders, skip, take, aggregation, groupBy,
      having⟩, _ => by
    have hkept := Relation.bubbleOrder_of_ordered r (List.cons_ne_nil order orders)
    left
    simp only [Query.bubbleSourceOrder, Source.bubbleOrder, Bubbled.map, hkept]
  | ⟨.joined _ _ _ _, _, _, _, _, _, _, _, _, _⟩, _ => .inl rfl

end

/-- A lift that fails has changed something exactly if it breaks off, which it does at an output
name that is no column name, and then what it leaves is as said there. After every other failure
the query, with all queries that it reads, is as it was. -/
theorem Query.ne_bubbleSourceOrder_iff {q : Query} (h : q.bubbleSourceOrder.failure = some e) :
    q.bubbleSourceOrder.node ≠ q ↔
      ∃ column, e = .invalidField column ∧ q.BreaksOff column q.bubbleSourceOrder.node := by
  constructor
  · exact (q.breaksOff_bubbleSourceOrder h).resolve_left
  · rintro ⟨column, -, hbreaks⟩
    exact hbreaks.ne

/-- The rows of a subquery that orders a table by its only column, which is called `name` there. -/
def Query.orderedRows (name : String) : Query :=
  let rows := (Query.ofTable "T").project (.ofField ⟨"A", none⟩) (some name)
  .ofSource (.ofQuery (rows.orderBy ⟨.ofField ⟨"A", none⟩, .asc⟩) "s")

/-- An output name `*`. -/
theorem Query.ne_bubbleSourceOrder_orderedRows :
    (orderedRows "*").bubbleSourceOrder.failure = some (.invalidField "*") ∧
      ∃ column, Error.invalidField "*" = .invalidField column ∧
        (orderedRows "*").BreaksOff column (orderedRows "*").bubbleSourceOrder.node := by
  have hfailure : (orderedRows "*").bubbleSourceOrder.failure = some (.invalidField "*") := rfl
  refine ⟨hfailure, (ne_bubbleSourceOrder_iff hfailure).mp fun hsame => ?_⟩
  cases hsame

/-- The subquery has lost its order, and the query that reads it has none either. -/
theorem Query.bubbleSourceOrder_orderedRows :
    let inner := (Query.ofTable "T").project (.ofField ⟨"A", none⟩) (some "*")
    orderedRows "*" =
        .ofSource (.ofQuery (inner.orderBy ⟨.ofField ⟨"A", none⟩, .asc⟩) "s") ∧
      (orderedRows "*").bubbleSourceOrder.failure = some (.invalidField "*") ∧
      (orderedRows "*").bubbleSourceOrder.node = .ofSource (.ofQuery inner "s") ∧
      (orderedRows "*").bubbleSourceOrder.node ≠ orderedRows "*" := by
  refine ⟨rfl, rfl, rfl, fun hsame => ?_⟩
  cases hsame

end DialectSql
