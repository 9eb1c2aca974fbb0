import DialectSql.Proofs.Ingredient
import DialectSql.Proofs.NaturalOrder

/-!
# Ingredients under the passes over a tree

Requalifying a tree keeps its ingredients as they are. Bubbling copies the expressions of orders
into projections and makes new columns out of output names; those are checked, so a rule that every
checked column obeys is obeyed afterwards if it was before, whether or not bubbling succeeds.

## Main results

* `Query.ingredients_requalify`, `Source.ingredients_requalify`, … — nothing changes
* `Source.forall_ingredients_bubbleOrder`, `Query.forall_ingredients_bubbleSourceOrder` — what
  bubbling leaves behind obeys the rules
-/

namespace DialectSql

/-! ## Requalified trees -/

section Requalify

variable (r : Requalification)

namespace Expression

mutual

theorem ingredients_requalify : ∀ e : Expression, (e.requalify r).ingredients = e.ingredients
  | .constant _ => rfl
  | .field _ _ => rfl
  | .arithmetic _ left right | .comparison _ left right | .logic _ left right
  | .bitwise _ left right | .like left right _ => by
    simp only [requalify, ingredients, ingredients_requalify left, ingredients_requalify right]
  | .unary _ operand => by simp only [requalify, ingredients, ingredients_requalify operand]
  | .membership _ subject _ => by simp only [requalify, ingredients, ingredients_requalify subject]
  | .call _ args _ => by simp only [requalify, ingredients, ingredients_requalifyList args]
  | .wildcard _ => rfl

theorem ingredients_requalifyList :
    ∀ es : List Expression, ingredientsList (requalifyList r es) = ingredientsList es
  | [] => rfl
  | e :: es => by
    simp only [requalifyList, ingredientsList, ingredients_requalify e,
      ingredients_requalifyList es]

end

end Expression

theorem Order.ingredients_requalify (o : Order) : (o.requalify r).ingredients = o.ingredients :=
  o.expression.ingredients_requalify r

theorem Projection.ingredients_requalify (p : Projection) :
    (p.requalify r).ingredients = p.ingredients :=
  p.expression.ingredients_requalify r

theorem Aggregation.ingredients_requalify (a : Aggregation) :
    (a.requalify r).ingredients = a.ingredients := by
  obtain ⟨function, _ | e⟩ := a
  · rfl
  · exact e.ingredients_requalify r

theorem Criteria.length_requalifyList (cs : List Criteria) :
    (Criteria.requalifyList r cs).length = cs.length := by
  induction cs with
  | nil => rfl
  | cons c cs ih => exact congrArg (· + 1) ih

mutual

theorem Criteria.ingredients_requalify : ∀ c : Criteria, (c.requalify r).ingredients = c.ingredients
  | .expression e => e.ingredients_requalify r
  | .compound _ children => by
    simp only [requalify, ingredients, Criteria.length_requalifyList,
      ingredients_requalifyList children]
  | .inSelect subject _ _ => by
    simp only [requalify, ingredients, subject.ingredients_requalify]

theorem Criteria.ingredients_requalifyList : ∀ cs : List Criteria,
    Criteria.ingredientsList (Criteria.requalifyList r cs) = Criteria.ingredientsList cs
  | [] => rfl
  | c :: cs => by
    simp only [Criteria.requalifyList, Criteria.ingredientsList, Criteria.ingredients_requalify c,
      Criteria.ingredients_requalifyList cs]

end

/-- A requalified source has the same ingredients, unless its relations are exchanged. -/
theorem Source.ingredients_requalify (hr : ∀ a, (r.relation a).ingredients = a.ingredients)
    (s : Source) : (s.requalify r).ingredients = s.ingredients := by
  cases s with
  | single a => exact hr a
  | joined kind left right on =>
    simp only [requalify, ingredients, ingredients_requalify hr left,
      ingredients_requalify hr right, on.ingredients_requalify]

/-- A requalified query has the same ingredients, unless its relations are exchanged. -/
theorem Query.ingredients_requalify (hr : ∀ a, (r.relation a).ingredients = a.ingredients)
    (q : Query) : (q.requalify r).ingredients = q.ingredients := by
  obtain ⟨source, criteria, selection, distinct, orders, skip, take, aggregation, groupBy,
    having⟩ := q
  have hcriteria (c? : Option Criteria) :
      Criteria.ingredientsOption (c?.map (·.requalify r)) = Criteria.ingredientsOption c? := by
    cases c? with
    | none => rfl
    | some c => exact c.ingredients_requalify r
  have haggregation : (aggregation.map (·.requalify r)).elim [] Aggregation.ingredients =
      aggregation.elim [] Aggregation.ingredients := by
    cases aggregation with
    | none => rfl
    | some a => exact a.ingredients_requalify r
  simp only [requalify, ingredients, Source.ingredients_requalify r hr, hcriteria, haggregation,
    List.flatMap_map, Projection.ingredients_requalify, Order.ingredients_requalify,
    Expression.ingredients_requalify]

end Requalify

/-- Another alias changes no ingredient. -/
theorem Relation.ingredients_withAlias (r : Relation) (a : Option String) :
    (r.withAlias a).ingredients = r.ingredients := by
  cases r <;> rfl

theorem Relation.ingredients_resetAlias (r : Relation) :
    r.resetAlias.ingredients = r.ingredients :=
  r.ingredients_withAlias none

theorem Relation.ingredients_prefixAlias (text : String) (r : Relation) :
    (r.prefixAlias text).ingredients = r.ingredients :=
  r.ingredients_withAlias _

/-! ## Bubbled orders -/

variable {W : Ingredient → Prop}

/-- A checked reference obeys every rule that checked names obey. -/
theorem Field.forall_ingredients_qualified (hW : ∀ name, IsColumnName name → W (.column name))
    {symbol column : String} {f : Field} (h : Field.qualified symbol column = .ok f) :
    ∀ i ∈ f.ingredients, W i := by
  unfold qualified unqualified at h
  split at h
  · next hname =>
    cases h
    simpa [ingredients, withSource] using hW _ hname
  · cases h

/-- Exposing an expression adds its ingredients and no others. -/
theorem forall_ingredients_exposeIn (generated : String) {e : Expression}
    (he : ∀ i ∈ e.ingredients, W i) : ∀ {items : List Projection},
      (∀ i ∈ items.flatMap Projection.ingredients, W i) →
      ∀ i ∈ (exposeIn generated e items).2.flatMap Projection.ingredients, W i
  | [], _ => by simpa [exposeIn, Projection.ingredients] using he
  | item :: items, h => by
    rw [List.flatMap_cons, List.forall_mem_append] at h
    rw [exposeIn]
    -- Where the expression is projected already, an item gets an output name at most.
    split
    · split <;> (rw [List.flatMap_cons, List.forall_mem_append]; exact h)
    · rw [List.flatMap_cons, List.forall_mem_append]
      exact ⟨h.1, forall_ingredients_exposeIn generated he h.2⟩

/-- Exposing an order expression adds its ingredients and no others. -/
theorem forall_ingredients_expose {e : Expression} (he : ∀ i ∈ e.ingredients, W i) (index : Nat)
    {selection : List Projection} (hs : ∀ i ∈ selection.flatMap Projection.ingredients, W i) :
    ∀ i ∈ (expose selection e index).2.flatMap Projection.ingredients, W i := by
  unfold expose
  split
  · simp
  · exact forall_ingredients_exposeIn _ he (by
      simp [Projection.ingredients, Expression.allColumns, Expression.ingredients])
  · exact forall_ingredients_exposeIn _ he hs

/-- The projection with exposed orders obeys the rules, and so do the orders by its columns. -/
theorem forall_ingredients_exposeOrders (hW : ∀ name, Field.IsColumnName name → W (.column name))
    (symbol : String) : ∀ (index : Nat) {orders : List Order} {selection : List Projection},
      (∀ i ∈ orders.flatMap Order.ingredients, W i) →
      (∀ i ∈ selection.flatMap Projection.ingredients, W i) →
      (∀ i ∈ (exposeOrders symbol index orders selection).node.flatMap Projection.ingredients,
        W i) ∧
      ∀ i ∈ (exposeOrders symbol index orders selection).orders.flatMap Order.ingredients, W i
  | _, [], _, _, hs => ⟨hs, by simp [exposeOrders]⟩
  | index, order :: orders, selection, ho, hs => by
    rw [List.flatMap_cons, List.forall_mem_append] at ho
    have hselection := forall_ingredients_expose ho.1 index hs
    obtain ⟨hnode, hrest⟩ := forall_ingredients_exposeOrders hW symbol (index + 1) ho.2 hselection
    rw [exposeOrders_cons]
    -- An output name that is no column name ends the pass, with its item exposed by then.
    split
    · exact ⟨hselection, by simp⟩
    · next field hfield =>
      refine ⟨hnode, ?_⟩
      rw [List.flatMap_cons, List.forall_mem_append]
      exact ⟨Field.forall_ingredients_qualified hW hfield, hrest⟩

/-- The orders lifted from a set operation are checked columns. -/
theorem forall_ingredients_liftSetOrders (hW : ∀ name, Field.IsColumnName name → W (.column name))
    {symbol description : String} : ∀ {orders lifted : List Order},
      liftSetOrders symbol description orders = .ok lifted →
      ∀ i ∈ lifted.flatMap Order.ingredients, W i
  | [], lifted, h => by
    obtain rfl : [] = lifted := by simpa [liftSetOrders] using h
    simp
  | order :: orders, lifted, h => by
    obtain ⟨f, outer, rest, hcolumn, hfield, hrest, rfl⟩ := liftSetOrders_cons_ok h
    rw [List.flatMap_cons, List.forall_mem_append]
    exact ⟨Field.forall_ingredients_qualified hW hfield, forall_ingredients_liftSetOrders hW hrest⟩

/-- A query whose orders are lifted obeys the rules, and so do its lifted orders. -/
theorem Query.forall_ingredients_liftOrders
    (hW : ∀ name, Field.IsColumnName name → W (.column name)) (symbol : String) {q : Query}
    (h : ∀ i ∈ q.ingredients, W i) :
    (∀ i ∈ (q.liftOrders symbol).node.ingredients, W i) ∧
      ∀ i ∈ (q.liftOrders symbol).orders.flatMap Order.ingredients, W i := by
  obtain ⟨source, criteria, selection, distinct, orders, skip, take, aggregation, groupBy,
    having⟩ := q
  simp only [ingredients, List.forall_mem_append] at h
  obtain ⟨⟨⟨⟨⟨⟨hsource, hcriteria⟩, hselection⟩, horders⟩, haggregation⟩, hgroup⟩, hhaving⟩ := h
  obtain ⟨hnode, hlifted⟩ := forall_ingredients_exposeOrders hW symbol 0 horders hselection
  refine ⟨?_, hlifted⟩
  have hkept : ∀ i ∈ (if (skip.isSome || take.isSome) = true then orders else []).flatMap
      Order.ingredients, W i := by
    split
    · exact horders
    · simp
  simp only [liftOrders, Bubbled.map, ingredients, isPaged, List.forall_mem_append]
  exact ⟨⟨⟨⟨⟨⟨hsource, hcriteria⟩, hnode⟩, hkept⟩, haggregation⟩, hgroup⟩, hhaving⟩

mutual

/-- What lifting its order leaves of a relation obeys the rules, and so do the orders. -/
theorem Relation.forall_ingredients_lifted
    (hW : ∀ name, Field.IsColumnName name → W (.column name)) :
    ∀ r : Relation, (∀ i ∈ r.ingredients, W i) →
      (∀ i ∈ r.lifted.node.ingredients, W i) ∧
        ∀ i ∈ r.lifted.orders.flatMap Order.ingredients, W i
  | .table t, h => by
    refine ⟨h, ?_⟩
    rw [Relation.lifted, List.flatMap_map]
    simp only [Order.ingredients_requalify]
    exact h
  | .select query alias?, h => by
    obtain ⟨hsource, -⟩ := Query.forall_ingredients_bubbleSourceOrder hW query h
    exact Query.bubbleThrough_induction
      (P := fun b => (∀ i ∈ b.node.ingredients, W i) ∧
        ∀ i ∈ b.orders.flatMap Order.ingredients, W i)
      (fun _ => ⟨hsource, by simp⟩) (Query.forall_ingredients_liftOrders hW _ hsource)
      (Query.forall_ingredients_liftOrders hW _ h)
  | .set ⟨operator, left, right, closing⟩ alias?, h => by
    rw [Relation.lifted]
    unfold QuerySet.liftOrders
    split
    · next lifted hlifted =>
      refine ⟨?_, forall_ingredients_liftSetOrders hW hlifted⟩
      simp only [Relation.ingredients, QuerySet.ingredients, List.forall_mem_append] at h
      simp only [Bubbled.map, Relation.ingredients, QuerySet.ingredients, List.forall_mem_append]
      exact ⟨h.1, by simp⟩
    -- A failed lift leaves the set operation as it was.
    · exact ⟨h, by simp [Bubbled.map]⟩

/-- What bubbling leaves of a source obeys the rules, and so do the orders. -/
theorem Source.forall_ingredients_bubbleOrder
    (hW : ∀ name, Field.IsColumnName name → W (.column name)) :
    ∀ (s : Source) (orders : List Order), (∀ i ∈ s.ingredients, W i) →
      (∀ i ∈ orders.flatMap Order.ingredients, W i) →
      (∀ i ∈ (s.bubbleOrder orders).node.ingredients, W i) ∧
        ∀ i ∈ (s.bubbleOrder orders).orders.flatMap Order.ingredients, W i
  | .single r, orders, h, ho => by
    exact Relation.bubbleOrder_induction
      (P := fun b => (∀ i ∈ b.node.ingredients, W i) ∧
        ∀ i ∈ b.orders.flatMap Order.ingredients, W i)
      (fun _ => ⟨h, ho⟩) (fun _ => ⟨h, by simp⟩) (Relation.forall_ingredients_lifted hW r h)
  | .joined _ _ _ _, _, h, ho => ⟨h, ho⟩

/-- What bubbling leaves of a query obeys the rules, and so do the orders. -/
theorem Query.forall_ingredients_bubbleSourceOrder
    (hW : ∀ name, Field.IsColumnName name → W (.column name)) :
    ∀ q : Query, (∀ i ∈ q.ingredients, W i) →
      (∀ i ∈ q.bubbleSourceOrder.node.ingredients, W i) ∧
        ∀ i ∈ q.bubbleSourceOrder.orders.flatMap Order.ingredients, W i
  | ⟨source, criteria, selection, distinct, orders, skip, take, aggregation, groupBy, having⟩,
    h => by
    simp only [Query.ingredients, List.forall_mem_append] at h
    obtain ⟨⟨⟨⟨⟨⟨hsource, hcriteria⟩, hselection⟩, horders⟩, haggregation⟩, hgroup⟩, hhaving⟩ := h
    obtain ⟨hnode, hbubbled⟩ := Source.forall_ingredients_bubbleOrder hW source orders hsource
      horders
    simp only [Query.bubbleSourceOrder, Query.ingredients, List.forall_mem_append]
    exact ⟨⟨⟨⟨⟨⟨⟨hnode, hcriteria⟩, hselection⟩, hbubbled⟩, haggregation⟩, hgroup⟩, hhaving⟩,
      hbubbled⟩

end

end DialectSql
