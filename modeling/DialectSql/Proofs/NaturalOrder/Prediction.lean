import DialectSql.Proofs.Ingredient.Passes
import DialectSql.Proofs.NaturalOrder.Column

/-!
# Predicted lifts

Whether a source has an order of its own can be asked before that order is lifted. Where the answer
is no, the lift is refused. Where it is yes, two things can still go wrong. An output name may be no
column name, which the aliases of the subqueries on the way decide. And an order may come from a set
operation, which can only give orders by plain columns, while the question looks no further than
whether there are any.

## Main definitions

* `Query.outputAliases` — the aliases that an order meets on its way out
* `Query.givesColumns` — whether an order that comes from a set operation is by plain columns
* `Bubbled.DecidedBy` — a lift that succeeds or is refused as a Boolean says

## Main results

* `exposeOrders_success` — orders are exposed if all names are column names
* `Source.failure_bubbleOrder_iff` — when the order of a source is lifted, and when it is refused
-/

namespace DialectSql

variable {generated column symbol description : String} {e : Expression} {index : Nat}
  {orders : List Order} {selection selection' : List Projection}

/-! ## Output names -/

/-- A name that is made up is a column name. -/
theorem isColumnName_generatedAlias (index : Nat) : Field.IsColumnName (generatedAlias index) := by
  have hchars : (generatedAlias index).toList = "order_".toList ++ (Text.natural index).toList :=
    String.toList_append
  constructor
  · intro hempty
    rw [hempty] at hchars
    cases hchars
  · rw [hchars, List.mem_append]
    rintro (hstar | hstar)
    · exact absurd hstar (by decide)
    · exact absurd (Text.isDigit_of_mem_natural hstar) (by decide)

/-- Where all output names are column names, an expression is exposed by one, and they still are. -/
theorem Exposes.isColumnName
    (h : Exposes (generatedAlias index) e selection column selection')
    (hnames : ∀ name ∈ outputNames selection, Field.IsColumnName name) :
    Field.IsColumnName column ∧ ∀ name ∈ outputNames selection', Field.IsColumnName name := by
  have hafter : ∀ name ∈ outputNames selection', Field.IsColumnName name := by
    rcases h.outputNames_eq with ⟨-, hsame⟩ | ⟨-, -, hperm⟩
    · rwa [hsame]
    · intro name hname
      rcases List.mem_cons.mp (hperm.mem_iff.mp hname) with rfl | hname
      · exact isColumnName_generatedAlias index
      · exact hnames name hname
  obtain ⟨item, hitem, hname, -⟩ := h.exists_mem
  exact ⟨hafter column (List.mem_filterMap.mpr ⟨item, hitem, hname⟩), hafter⟩

/-- The name of a plain column within the rules is a column name. -/
theorem Expression.isColumnName_of_field? {f : Field} (h : e.field? = some f)
    (he : ∀ i ∈ e.ingredients, i.WellFormed) : Field.IsColumnName f.name := by
  cases e <;> cases h
  exact he (.column f.name) (by simp [ingredients, Field.ingredients])

/-- The same is true of a projection of every column, whose columns keep their names. -/
theorem isColumnName_expose (hnames : ∀ name ∈ outputNames selection, Field.IsColumnName name)
    (he : ∀ i ∈ e.ingredients, i.WellFormed) (index : Nat) :
    Field.IsColumnName (expose selection e index).1 ∧
      ∀ name ∈ outputNames (expose selection e index).2, Field.IsColumnName name := by
  cases selection with
  | cons item selection => exact (exposes_expose (List.cons_ne_nil _ _) e index).isColumnName hnames
  | nil =>
    cases hcolumn : e.field? with
    | none =>
      -- The projection is written out as a star, which has no output name.
      simp only [expose, hcolumn]
      exact (exposes_exposeIn (generatedAlias index) e _).isColumnName (by simp [outputNames,
        Projection.outputName?, Expression.allColumns, Expression.field?])
    | some f =>
      simp only [expose, hcolumn]
      exact ⟨Expression.isColumnName_of_field? hcolumn he, by simp [outputNames]⟩

/-- A column of a symbol whose name is a column name is not refused. -/
theorem Field.qualified_of_isColumnName {name : String} (h : IsColumnName name)
    (symbol : String) : Field.qualified symbol name = .ok ⟨name, some symbol⟩ := by
  unfold qualified unqualified
  rw [if_pos h]
  rfl

/-- The orders of a subquery are exposed if all names that they meet are column names. -/
theorem exposeOrders_success :
    ∀ {index : Nat} {selection : List Projection},
      (∀ name ∈ outputNames selection, Field.IsColumnName name) →
      (∀ o ∈ orders, ∀ i ∈ o.ingredients, i.WellFormed) →
      (exposeOrders symbol index orders selection).failure = none := by
  induction orders with
  | nil => exact fun _ _ => rfl
  | cons order orders ih =>
    intro index selection hnames horders
    rw [List.forall_mem_cons] at horders
    -- The name is a column name, and so are those that the other orders meet.
    obtain ⟨hcolumn, hlater⟩ := isColumnName_expose hnames horders.1 index
    rw [exposeOrders_cons, Field.qualified_of_isColumnName hcolumn]
    exact ih hlater horders.2

/-! ## Set operations -/

/-- Whether an order is by a plain column. -/
def Order.isColumn (o : Order) : Bool := o.expression.field?.isSome

/-- The orders of a set operation are lifted if they are by plain columns, and else they are
refused. -/
theorem liftSetOrders_cases (symbol description : String) :
    ∀ orders : List Order, (∀ o ∈ orders, ∀ i ∈ o.ingredients, i.WellFormed) →
      (orders.all Order.isColumn = true ∧
        ∃ lifted, liftSetOrders symbol description orders = .ok lifted) ∨
      (orders.all Order.isColumn = false ∧
        liftSetOrders symbol description orders = .error (.orderBubblingUnsupported description))
  | [], _ => .inl ⟨rfl, [], rfl⟩
  | order :: orders, h => by
    rw [List.forall_mem_cons] at h
    rw [liftSetOrders, List.all_cons, Order.isColumn]
    cases hcolumn : order.expression.field? with
    | none => exact .inr ⟨rfl, rfl⟩
    | some f =>
      -- Within the rules a column always has a name that can be qualified.
      have hname := Expression.isColumnName_of_field? hcolumn h.1
      simp only [Field.qualified_of_isColumnName hname, Option.isSome_some, Bool.true_and]
      rcases liftSetOrders_cases symbol description orders h.2 with
        ⟨hall, lifted, hlifted⟩ | ⟨hall, hrefused⟩
      · refine .inl ⟨hall, ⟨.ofField ⟨f.name, some symbol⟩, order.direction⟩ :: lifted, ?_⟩
        simp only [hlifted]
        rfl
      · refine .inr ⟨hall, ?_⟩
        simp only [hrefused]
        rfl

/-- The failure of a set operation whose orders are lifted, if there is one. -/
theorem QuerySet.failure_liftOrders {s : QuerySet} (h : ∀ i ∈ s.ingredients, i.WellFormed)
    (symbol description : String) :
    (s.liftOrders symbol description).failure =
      if s.orders.all Order.isColumn then none
      else some (.orderBubblingUnsupported description) := by
  unfold liftOrders
  rcases liftSetOrders_cases symbol description s.orders (forall_ingredients.mp h).2.2 with
    ⟨hall, lifted, hlifted⟩ | ⟨hall, hrefused⟩
  · rw [hlifted, if_pos hall]
  · rw [hrefused, if_neg (by simp [hall])]

/-! ## The way of an order -/

mutual

/-- The aliases of output columns that the order of a relation meets on its way out. -/
def Relation.outputAliases : Relation → List String
  | .table _ | .set _ _ => []
  | .select query _ => query.outputAliases

/-- The aliases of output columns that the order of a source meets on its way out. -/
def Source.outputAliases : Source → List String
  | .single r => r.outputAliases
  | .joined _ _ _ _ => []

/-- The aliases of output columns that the order of a query meets on its way out. -/
def Query.outputAliases : Query → List String
  | ⟨source, _, selection, _, _, _, _, _, _, _⟩ =>
    selection.filterMap (·.alias?) ++ source.outputAliases

end

mutual

/-- Whether the order of a relation is by plain columns if it comes from a set operation. -/
def Relation.givesColumns : Relation → Bool
  | .table _ => true
  | .select query _ => query.givesColumns
  | .set ⟨_, _, _, orders⟩ _ => orders.all Order.isColumn

/-- Whether the order of a source is by plain columns if it comes from a set operation. -/
def Source.givesColumns : Source → Bool
  | .single r => r.givesColumns
  | .joined _ _ _ _ => true

/-- Whether the order of a query is by plain columns if it comes from a set operation. A query with
orders of its own does not ask its source for any. -/
def Query.givesColumns : Query → Bool
  | ⟨source, _, _, _, orders, _, _, _, _, _⟩ => !orders.isEmpty || source.givesColumns

end

/-- If all aliases are column names, then so are all output names. -/
theorem Query.isColumnName_outputNames {q : Query} (h : ∀ i ∈ q.ingredients, i.WellFormed)
    (haliases : ∀ name ∈ q.outputAliases, Field.IsColumnName name) :
    ∀ name ∈ outputNames q.selection, Field.IsColumnName name := by
  intro name hname
  obtain ⟨p, hp, hname⟩ := List.mem_filterMap.mp hname
  unfold Projection.outputName? at hname
  cases halias : p.alias? with
  | some given =>
    rw [halias, Option.some_or, Option.some.injEq] at hname
    subst hname
    refine haliases given ?_
    cases q
    exact List.mem_append_left _ (List.mem_filterMap.mpr ⟨p, hp, halias⟩)
  | none =>
    rw [halias, Option.none_or] at hname
    obtain ⟨f, hf, rfl⟩ := Option.map_eq_some_iff.mp hname
    exact Expression.isColumnName_of_field? hf ((forall_ingredients.mp h).2.2.1 p hp)

/-- The orders of a query are lifted out of it if all its names are column names. -/
theorem Query.liftOrders_success {q : Query} (h : ∀ i ∈ q.ingredients, i.WellFormed)
    (hnames : ∀ name ∈ outputNames q.selection, Field.IsColumnName name) (symbol : String) :
    (q.liftOrders symbol).failure = none :=
  exposeOrders_success hnames (forall_ingredients.mp h).2.2.2.1

/-- A lift that succeeds if it is possible, and is refused as unsupported if not. -/
def Bubbled.DecidedBy {α : Type} (possible : Bool) (b : Bubbled α) : Prop :=
  if possible then b.failure = none
  else ∃ description, b.failure = some (.orderBubblingUnsupported description)

/-- The Boolean says whether the lift succeeds. -/
theorem Bubbled.DecidedBy.failure_eq_none_iff {α : Type} {possible : Bool} {b : Bubbled α}
    (h : b.DecidedBy possible) : b.failure = none ↔ possible = true := by
  cases possible with
  | true => exact iff_of_true h rfl
  | false =>
    obtain ⟨description, hrefused⟩ := h
    simp [hrefused]

/-- The lift fails in no other way. -/
theorem Bubbled.DecidedBy.unsupported {α : Type} {possible : Bool} {b : Bubbled α} {error : Error}
    (h : b.DecidedBy possible) (hfailure : b.failure = some error) :
    ∃ description, error = .orderBubblingUnsupported description := by
  cases possible with
  | true => cases hfailure.symm.trans h
  | false =>
    obtain ⟨description, hrefused⟩ := h
    exact ⟨description, Option.some.inj (hfailure.symm.trans hrefused)⟩

mutual

/-- The order of a relation is lifted if it has one that can be. -/
theorem Relation.decidedBy_bubbleOrder :
    ∀ r : Relation, (∀ i ∈ r.ingredients, i.WellFormed) →
      (∀ name ∈ r.outputAliases, Field.IsColumnName name) →
      (r.bubbleOrder []).DecidedBy (r.canBubbleOrder && r.givesColumns)
  | .table t, _, _ => by
    rw [Relation.bubbleOrder, if_neg (by simp), Relation.canBubbleOrder, Relation.givesColumns]
    cases t.storingOrder.isEmpty
    · exact rfl
    · exact ⟨_, rfl⟩
  | .select q alias?, h, haliases => by
    rw [Relation.bubbleOrder, if_neg (by simp), Relation.canBubbleOrder, Relation.givesColumns]
    have hnames := Query.isColumnName_outputNames h haliases
    have hsource := Query.decidedBy_bubbleSourceOrder q h haliases
    split
    · next hcannot =>
      rw [Bool.not_eq_true'] at hcannot
      rw [hcannot, Bool.false_and]
      exact ⟨_, rfl⟩
    · unfold Query.bubbleThrough
      split
      · next hempty =>
        have hdecided := hsource (List.isEmpty_iff.mp hempty)
        -- What the subquery takes over from its source is within the rules as well.
        have hnode := (Query.forall_ingredients_bubbleSourceOrder
          (fun _ => Ingredient.wellFormed_column_iff.mpr) q h).1
        cases hpossible : q.canBubbleOrder && q.givesColumns with
        | true =>
          rw [hpossible] at hdecided
          have hnone : q.bubbleSourceOrder.failure = none := hdecided
          rw [hnone]
          refine Query.liftOrders_success hnode ?_ _
          rwa [Query.bubbleSourceOrder_eq]
        | false =>
          rw [hpossible] at hdecided
          obtain ⟨description, hrefused⟩ := hdecided
          rw [hrefused]
          exact ⟨description, rfl⟩
      · next hempty =>
        obtain ⟨source, criteria, selection, distinct, orders, skip, take, aggregation, groupBy,
          having⟩ := q
        rw [Bool.not_eq_true] at hempty
        have hlift := Query.liftOrders_success h hnames (alias?.getD subqueryAlias)
        simpa [Query.canBubbleOrder, Query.givesColumns, hempty, Bubbled.DecidedBy, Bubbled.map]
          using hlift
  | .set ⟨operator, left, right, orders⟩ alias?, h, _ => by
    rw [Relation.bubbleOrder, if_neg (by simp), Relation.canBubbleOrder, Relation.givesColumns]
    have hlift := QuerySet.failure_liftOrders h (alias?.getD subqueryAlias)
      (Relation.set ⟨operator, left, right, orders⟩ alias?).description
    cases orders.isEmpty with
    | true => exact ⟨_, rfl⟩
    | false =>
      rw [if_neg (by simp), Bool.not_false, Bool.true_and]
      unfold Bubbled.DecidedBy Bubbled.map
      rw [hlift]
      cases orders.all Order.isColumn with
      | true => rfl
      | false => exact ⟨_, rfl⟩

/-- The order of a source is lifted if it has one that can be. -/
theorem Source.decidedBy_bubbleOrder :
    ∀ s : Source, (∀ i ∈ s.ingredients, i.WellFormed) →
      (∀ name ∈ s.outputAliases, Field.IsColumnName name) →
      (s.bubbleOrder []).DecidedBy (s.canBubbleOrder && s.givesColumns)
  | .single r, h, haliases => by
    rw [Source.bubbleOrder, Source.canBubbleOrder, Source.givesColumns]
    exact Relation.decidedBy_bubbleOrder r h haliases
  | .joined _ _ _ _, _, _ => ⟨_, rfl⟩

/-- The order of its source is lifted to a query if there is one that can be. -/
theorem Query.decidedBy_bubbleSourceOrder :
    ∀ q : Query, (∀ i ∈ q.ingredients, i.WellFormed) →
      (∀ name ∈ q.outputAliases, Field.IsColumnName name) → q.orders = [] →
      q.bubbleSourceOrder.DecidedBy (q.canBubbleOrder && q.givesColumns)
  | ⟨source, criteria, selection, distinct, [], skip, take, aggregation, groupBy, having⟩, h,
    haliases, _ => by
    rw [Query.canBubbleOrder, Query.givesColumns]
    exact Source.decidedBy_bubbleOrder source (Query.forall_ingredients.mp h).1
      fun name hname => haliases name (List.mem_append_right _ hname)

end

/-- Where a source has no order, the lift is refused as that of the source itself. -/
theorem Source.failure_bubbleOrder_of_not_can (s : Source) (h : s.canBubbleOrder = false) :
    (s.bubbleOrder []).failure = some (.orderBubblingUnsupported s.description) := by
  cases s with
  | joined kind left right on => rfl
  | single r =>
    cases r with
    | table t =>
      have hnone : t.storingOrder.isEmpty = true := by
        simpa [Source.canBubbleOrder, Relation.canBubbleOrder] using h
      simp only [Source.bubbleOrder, Relation.bubbleOrder, hnone]
      rfl
    | select q alias? =>
      have hnone : q.canBubbleOrder = false := h
      simp only [Source.bubbleOrder, Relation.bubbleOrder, hnone]
      rfl
    | set s alias? =>
      obtain ⟨operator, left, right, orders⟩ := s
      have hnone : orders.isEmpty = true := by
        simpa [Source.canBubbleOrder, Relation.canBubbleOrder] using h
      simp only [Source.bubbleOrder, Relation.bubbleOrder, hnone]
      rfl

/-- Where all aliases are column names, the order of a source is lifted exactly if there is one and
it is by plain columns wherever it comes from a set operation. It is refused as unsupported if not,
and where there is none, then as that of the source itself. -/
theorem Source.failure_bubbleOrder_iff {s : Source} (h : ∀ i ∈ s.ingredients, i.WellFormed)
    (haliases : ∀ name ∈ s.outputAliases, Field.IsColumnName name) :
    ((s.bubbleOrder []).failure = none ↔ s.canBubbleOrder = true ∧ s.givesColumns = true) ∧
      (∀ e, (s.bubbleOrder []).failure = some e →
        ∃ description, e = .orderBubblingUnsupported description) ∧
      (s.canBubbleOrder = false →
        (s.bubbleOrder []).failure = some (.orderBubblingUnsupported s.description)) := by
  have hdecided := s.decidedBy_bubbleOrder h haliases
  refine ⟨?_, fun _ => hdecided.unsupported, s.failure_bubbleOrder_of_not_can⟩
  rw [← Bool.and_eq_true]
  exact hdecided.failure_eq_none_iff

/-- The union of two tables, ordered by an expression. -/
def Source.orderedUnion (e : Expression) : Source :=
  let union := QuerySet.combine .union (.query (.ofTable "A")) (.query (.ofTable "B"))
  .ofSet (union.orderBy ⟨e, .asc⟩) "u"

/-- A subquery that takes over the order of a union by a plain column. -/
theorem Source.failure_bubbleOrder_orderedUnion :
    let source := ofQuery (.ofSource (orderedUnion (.ofField ⟨"X", none⟩))) "s"
    (∀ i ∈ source.ingredients, i.WellFormed) ∧
      (∀ name ∈ source.outputAliases, Field.IsColumnName name) ∧
      source.canBubbleOrder = true ∧ source.givesColumns = true ∧
      (source.bubbleOrder []).failure = none := by
  intro source
  have hrules : ∀ i ∈ source.ingredients, i.WellFormed := by
    intro i hi
    obtain rfl : i = .column "X" := List.mem_singleton.mp hi
    exact Ingredient.wellFormed_column_iff.mpr (by decide)
  have haliases : ∀ name ∈ source.outputAliases, Field.IsColumnName name := fun _ hname => by
    cases hname
  exact ⟨hrules, haliases, rfl, rfl, (failure_bubbleOrder_iff hrules haliases).1.mpr ⟨rfl, rfl⟩⟩

/-- A union has an order, but the order is by a sum, and so it is not lifted. -/
theorem Source.bubbleOrder_orderedUnion_sum :
    let source := orderedUnion (.arithmetic .add (.ofField ⟨"X", none⟩) (.constant (.int 1)))
    source.outputAliases = [] ∧ source.canBubbleOrder = true ∧
      (source.bubbleOrder []).failure =
        some (.orderBubblingUnsupported "(select from A UNION select from B) u") :=
  ⟨rfl, rfl, by decide +kernel⟩

end DialectSql
