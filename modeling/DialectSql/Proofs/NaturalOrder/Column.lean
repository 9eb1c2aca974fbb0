import Mathlib.Data.List.Nodup
import DialectSql.Proofs.NaturalOrder.Exposure
import DialectSql.Proofs.Word
import DialectSql.Rendering

/-!
# Columns of lifted orders

What lifting the orders of a subquery does to its output columns, where its projection is written
out. An order expression that is not projected becomes a column of its own, also below a DISTINCT,
where it tells apart rows that were equal. The column of each order is in the projection, but a name
that was made up for it may be taken already, and then the order names two columns.

## Main definitions

* `Expression.adjoin` — expressions with one more, unless it is among them
* `Expression.Matches` — expressions that bubbling does not tell apart
* `generatedNames` — the names that are made up for the orders of a subquery
* `Order.NamesOne` — an order by a column that is the only one of its name and the right one

## Main results

* `Query.expressions_bubbleSourceOrder` — which expressions are projected behind a lift, and when
  they are those in front of it
* `Query.namesOne_bubbleSourceOrder` — when all lifted orders name the right columns
-/

namespace DialectSql

variable {generated column symbol : String} {e : Expression} {index : Nat} {orders : List Order}
  {selection selection' : List Projection}

/-! ## Projected expressions -/

/-- Expressions with one more behind them, unless it is among them. -/
def Expression.adjoin (es : List Expression) (e : Expression) : List Expression :=
  if es.any (· == e) then es else es ++ [e]

theorem Expression.prefix_foldl_adjoin (added : List Expression) :
    ∀ es : List Expression, es <+: added.foldl adjoin es := by
  induction added with
  | nil => exact fun es => List.prefix_refl es
  | cons e added ih =>
    intro es
    have hfirst : es <+: adjoin es e := by
      unfold adjoin
      split
      · exact List.prefix_refl es
      · exact List.prefix_append es [e]
    exact hfirst.trans (ih (adjoin es e))

/-- Nothing is added exactly if everything is there. -/
theorem Expression.foldl_adjoin_eq_self_iff (added : List Expression) (es : List Expression) :
    added.foldl adjoin es = es ↔ ∀ e ∈ added, es.any (· == e) = true := by
  induction added with
  | nil => simp
  | cons e added ih =>
    rw [List.foldl_cons, List.forall_mem_cons]
    by_cases he : es.any (· == e) = true
    · rw [adjoin, if_pos he, ih]
      exact (and_iff_right he).symm
    · rw [adjoin, if_neg he]
      refine iff_of_false (fun heq => ?_) fun h => he h.1
      -- The list is longer by the expression from here on.
      have hlength := (prefix_foldl_adjoin added (es ++ [e])).length_le
      rw [heq, List.length_append, List.length_singleton] at hlength
      omega

/-- Exposing an expression adds it to a projection unless it is projected already. -/
theorem Exposes.expressions_eq (h : Exposes generated e selection column selection') :
    selection'.map (·.expression) = Expression.adjoin (selection.map (·.expression)) e := by
  unfold Expression.adjoin
  rw [List.any_map]
  cases h with
  | named _ hitem _ => rw [if_pos]; simp [hitem]
  | unnamed _ hitem _ =>
    rw [if_pos]
    · simp
    · simp [hitem]
  | absent hnone =>
    rw [if_neg]
    · simp
    · simpa using hnone

/-- A projection that is written out stays so. -/
theorem Exposes.ne_nil (h : Exposes generated e selection column selection') :
    selection' ≠ [] := by
  cases h <;> simp

/-- Exposing orders adds the expressions that are not projected. -/
theorem expressions_exposeOrders :
    ∀ {index : Nat} {selection : List Projection}, selection ≠ [] →
      (exposeOrders symbol index orders selection).failure = none →
      (exposeOrders symbol index orders selection).node.map (·.expression) =
        (orders.map (·.expression)).foldl Expression.adjoin (selection.map (·.expression)) := by
  induction orders with
  | nil => exact fun _ _ => rfl
  | cons order orders ih =>
    intro index selection hne h
    have hfirst := exposes_expose hne order.expression index
    obtain ⟨hrest, hall⟩ := exposeOrders_cons_success h
    rw [hall, List.map_cons, List.foldl_cons, ← hfirst.expressions_eq]
    exact ih hfirst.ne_nil hrest

/-! ## Subqueries -/

/-- A source that is a subquery is behind a lift what the lift of its natural order leaves. -/
theorem Query.bubbleSourceOrder_select {q inner : Query} {alias? : Option String}
    (hsource : q.source = .single (.select inner alias?))
    (h : q.bubbleSourceOrder.failure = none) :
    let lifted := inner.ordered.liftOrders (Relation.select inner alias?).symbol
    lifted.failure = none ∧ q.bubbleSourceOrder.node.source = .single (.select lifted.node alias?) ∧
      q.bubbleSourceOrder.node.orders = lifted.orders := by
  rw [bubbleSourceOrder_eq, hsource] at h
  have hnone : q.orders = [] := Source.eq_nil_of_bubbleOrder_success h
  rw [hnone] at h
  obtain ⟨-, hlift, heq⟩ := Relation.bubbleOrder_select_success h
  rw [bubbleSourceOrder_eq, hsource, hnone]
  simp only [Source.bubbleOrder, heq]
  exact ⟨hlift, rfl, rfl⟩

@[simp] theorem Query.ordered_selection (q : Query) : q.ordered.selection = q.selection := by
  rw [ordered_eq]

@[simp] theorem Query.ordered_distinct (q : Query) : q.ordered.distinct = q.distinct := by
  rw [ordered_eq]

/-- Behind a lift a subquery projects what it projected in front of it, and then each of its orders
that was not projected yet. So nothing is added exactly if all its orders are projected, whether or
not equal rows are dropped. The same is true of an order that is implied. -/
theorem Query.expressions_bubbleSourceOrder {q inner : Query} {alias? : Option String}
    (hsource : q.source = .single (.select inner alias?)) (hselection : inner.selection ≠ []) :
    (q.bubbleSourceOrder.failure = none →
      ∃ inner', q.bubbleSourceOrder.node.source = .single (.select inner' alias?) ∧
        inner'.distinct = inner.distinct ∧
        inner'.selection.map (·.expression) =
          (inner.ordered.orders.map (·.expression)).foldl Expression.adjoin
            (inner.selection.map (·.expression)) ∧
        (inner'.selection.map (·.expression) = inner.selection.map (·.expression) ↔
          ∀ o ∈ inner.ordered.orders, ∃ p ∈ inner.selection,
            (p.expression == o.expression) = true)) ∧
    (q.implyOrder = q ∨
      q.bubbleSourceOrder.failure = none ∧ q.implyOrder = q.bubbleSourceOrder.node) := by
  refine ⟨fun h => ?_, q.implyOrder_eq⟩
  obtain ⟨hlift, hnode, -⟩ := bubbleSourceOrder_select hsource h
  have hexpressions := expressions_exposeOrders
    (by rwa [ordered_selection] : inner.ordered.selection ≠ []) hlift
  rw [ordered_selection] at hexpressions
  refine ⟨_, hnode, inner.ordered_distinct, ?_, ?_⟩
  · simpa only [liftOrders, Bubbled.map, ordered_selection] using hexpressions
  · simp only [liftOrders, Bubbled.map, ordered_selection]
    rw [hexpressions, Expression.foldl_adjoin_eq_self_iff, List.forall_mem_map]
    simp only [List.any_map, List.any_eq_true, Function.comp_apply]

/-- All but the first of the distinct values of a column `A`, from a table that is stored by the
column `stored`. -/
def Query.distinctRows (stored : String) : Query :=
  let table : Table := ⟨"T", none, [⟨.ofField ⟨stored, none⟩, .asc⟩]⟩
  let rows := (Query.ofSource (.single (.table table))).project (.ofField ⟨"A", some "T"⟩) none
  (Query.ofSource (.ofQuery rows.withDistinct "s")).withSkip 1

/-- Rows that are stored by the values themselves. -/
theorem Query.expressions_bubbleSourceOrder_projected :
    (distinctRows "A").bubbleSourceOrder.failure = none ∧
      ∃ inner', (distinctRows "A").bubbleSourceOrder.node.source =
          .single (.select inner' (some "s")) ∧
        inner'.distinct = true ∧
        inner'.selection.map (·.expression) = [.ofField ⟨"A", some "T"⟩] := by
  obtain ⟨inner', hsource, hdistinct, -, hsame⟩ :=
    (expressions_bubbleSourceOrder (q := distinctRows "A") rfl (List.cons_ne_nil _ _)).1 rfl
  refine ⟨rfl, inner', hsource, hdistinct, hsame.mpr fun o ho => ?_⟩
  obtain rfl := List.mem_singleton.mp ho
  exact ⟨_, List.mem_cons_self, rfl⟩

/-- Rows that are stored by another column: the values are counted again for each of its values. -/
theorem Query.text_distinctRows :
    renderInline (distinctRows "B") .sqlServer .standard =
        .ok ("SELECT * FROM (SELECT *, ROW_NUMBER() OVER (ORDER BY [s].[order_0] ASC) AS rownum " ++
          "FROM (SELECT DISTINCT [T].[A], [T].[B] AS [order_0] FROM [T]) [s]) paging_t " ++
          "WHERE rownum > 1 ORDER BY rownum") ∧
      (distinctRows "B").bubbleSourceOrder.failure = none ∧
      ∃ inner', (distinctRows "B").bubbleSourceOrder.node.source =
          .single (.select inner' (some "s")) ∧
        inner'.distinct = true ∧
        inner'.selection.map (·.expression) =
          [.ofField ⟨"A", some "T"⟩, .ofField ⟨"B", some "T"⟩] :=
  ⟨by decide +kernel, rfl, _, rfl, rfl, rfl⟩

/-! ## Output names -/

/-- Expressions that bubbling does not tell apart: the same, or equal with floats compared as
numbers. -/
def Expression.Matches (a b : Expression) : Prop := a = b ∨ (a == b) = true

/-- The output names of a projection, those of columns without a name left out. -/
def outputNames (selection : List Projection) : List String :=
  selection.filterMap Projection.outputName?

/-- Whether the first item that equals an expression has a name. -/
def isNamed (selection : List Projection) (e : Expression) : Bool :=
  (selection.find? (·.expression == e)).any (·.outputName?.isSome)

/-- The names that are made up while the orders of a subquery are exposed. -/
def generatedNames : (index : Nat) → List Order → List Projection → List String
  | _, [], _ => []
  | index, order :: orders, selection =>
    let rest := generatedNames (index + 1) orders (expose selection order.expression index).2
    if isNamed selection order.expression then rest else generatedAlias index :: rest

namespace Exposes

/-- The first item that equals an expression is found. -/
theorem find?_eq {front back : List Projection} {item : Projection}
    (hfront : ∀ p ∈ front, (p.expression == e) = false) (hitem : (item.expression == e) = true) :
    (front ++ item :: back).find? (·.expression == e) = some item :=
  List.find?_eq_some_iff_append.mpr
    ⟨hitem, front, back, rfl, fun p hp => by rw [hfront p hp]; rfl⟩

/-- Either the expression has a name, or one is made up for it. -/
theorem outputNames_eq (h : Exposes generated e selection column selection') :
    (isNamed selection e = true ∧ outputNames selection' = outputNames selection) ∨
      (isNamed selection e = false ∧ column = generated ∧
        (outputNames selection').Perm (generated :: outputNames selection)) := by
  unfold isNamed
  cases h with
  | named hfront hitem hname => exact .inl ⟨by rw [find?_eq hfront hitem]; simp [hname], rfl⟩
  | unnamed hfront hitem hname =>
    refine .inr ⟨by rw [find?_eq hfront hitem]; simp [hname], rfl, ?_⟩
    -- The item gets the name where it stands.
    have hgained : ∀ p : Projection, ({ p with alias? := some generated } : Projection).outputName?
        = some generated := fun _ => rfl
    simp [outputNames, List.filterMap_append, hname, hgained]
  | absent hnone =>
    have hfind : selection.find? (·.expression == e) = none :=
      List.find?_eq_none.mpr fun p hp => by simp [hnone p hp]
    refine .inr ⟨by rw [hfind]; rfl, rfl, ?_⟩
    -- The expression is projected behind all items, under the name.
    have hadded : Projection.outputName? ⟨e, some generated⟩ = some generated := rfl
    simp [outputNames, List.filterMap_append, hadded]

/-- The output column of an expression is in the projection that exposes it. -/
theorem exists_mem (h : Exposes generated e selection column selection') :
    ∃ item ∈ selection', item.outputName? = some column ∧ item.expression.Matches e := by
  cases h with
  | @named front back item name _ hitem hname =>
    exact ⟨item, by simp, hname, .inr hitem⟩
  | @unnamed front back item _ hitem _ =>
    exact ⟨{ item with alias? := some generated }, by simp, rfl, .inr hitem⟩
  | absent => exact ⟨⟨e, some generated⟩, by simp, rfl, .inl rfl⟩

end Exposes

/-! ### Made-up names -/

theorem generatedAlias_injective : Function.Injective generatedAlias := fun _ _ h =>
  Text.natural_injective (String.append_right_inj "order_" |>.mp h)

/-- Each name is made up for an order of its own. -/
theorem exists_index_of_mem_generatedNames {name : String} :
    ∀ {index : Nat} {selection : List Projection}, name ∈ generatedNames index orders selection →
      ∃ k, index ≤ k ∧ name = generatedAlias k := by
  induction orders with
  | nil => exact fun h => by cases h
  | cons order orders ih =>
    intro index selection h
    rw [generatedNames] at h
    have hlater : ∀ {s}, name ∈ generatedNames (index + 1) orders s →
        ∃ k, index ≤ k ∧ name = generatedAlias k := fun h => by
      obtain ⟨k, hk, hname⟩ := ih h
      exact ⟨k, Nat.le_of_succ_le hk, hname⟩
    split at h
    · exact hlater h
    · rcases List.mem_cons.mp h with rfl | h
      · exact ⟨index, Nat.le_refl _, rfl⟩
      · exact hlater h

/-- Names that are made up are different. -/
theorem nodup_generatedNames (orders : List Order) :
    ∀ (index : Nat) (selection : List Projection),
      (generatedNames index orders selection).Nodup := by
  induction orders with
  | nil => exact fun _ _ => List.nodup_nil
  | cons order orders ih =>
    intro index selection
    rw [generatedNames]
    split
    · exact ih _ _
    · refine List.nodup_cons.mpr ⟨fun h => ?_, ih _ _⟩
      -- A later name has a larger number.
      obtain ⟨k, hk, hname⟩ := exists_index_of_mem_generatedNames h
      have hsame := generatedAlias_injective hname
      omega

/-- Behind a lift the output names are those in front of it and those that were made up. -/
theorem outputNames_exposeOrders :
    ∀ {index : Nat} {selection : List Projection}, selection ≠ [] →
      (exposeOrders symbol index orders selection).failure = none →
      (outputNames (exposeOrders symbol index orders selection).node).Perm
        (generatedNames index orders selection ++ outputNames selection) := by
  induction orders with
  | nil => exact fun _ _ => .refl _
  | cons order orders ih =>
    intro index selection hne h
    have hfirst := exposes_expose hne order.expression index
    obtain ⟨hrest, hall⟩ := exposeOrders_cons_success h
    have hlater := ih hfirst.ne_nil hrest
    rw [hall, generatedNames]
    -- A name is made up for the first order only if its expression has none yet.
    rcases hfirst.outputNames_eq with ⟨hnamed, hsame⟩ | ⟨hnamed, -, hperm⟩
    · rw [if_pos hnamed]
      rwa [hsame] at hlater
    · rw [if_neg (by simp [hnamed])]
      exact hlater.trans ((hperm.append_left _).trans List.perm_middle)

/-! ### The right columns -/

/-- An order by a column of `symbol` that is in a projection and is the expression of another
order. -/
def Order.NamesSome (symbol : String) (selection : List Projection) (o outer : Order) : Prop :=
  ∃ name, outer.expression = .ofField ⟨name, some symbol⟩ ∧
    ∃ item ∈ selection, item.outputName? = some name ∧ item.expression.Matches o.expression

/-- An order by a column of `symbol` that is the only one of its name in a projection, and is the
expression of another order. -/
def Order.NamesOne (symbol : String) (selection : List Projection) (o outer : Order) : Prop :=
  ∃ name, outer.expression = .ofField ⟨name, some symbol⟩ ∧
    ∃ item, selection.filter (·.outputName? == some name) = [item] ∧
      item.expression.Matches o.expression

/-- There are as many items of a name as the name is among the output names. -/
theorem count_outputNames (selection : List Projection) (name : String) :
    (outputNames selection).count name =
      (selection.filter (·.outputName? == some name)).length := by
  rw [outputNames, List.count_filterMap, List.countP_eq_length_filter]

/-- Where all output names are different, a column is the only one of its name. -/
theorem Order.NamesSome.namesOne {o outer : Order} (h : o.NamesSome symbol selection outer)
    (hnodup : (outputNames selection).Nodup) : o.NamesOne symbol selection outer := by
  obtain ⟨name, houter, item, hitem, hname, hmatches⟩ := h
  refine ⟨name, houter, item, ?_, hmatches⟩
  have hmem : item ∈ selection.filter (·.outputName? == some name) :=
    List.mem_filter.mpr ⟨hitem, by simp [hname]⟩
  have hlength : (selection.filter (·.outputName? == some name)).length ≤ 1 := by
    rw [← count_outputNames]
    exact List.nodup_iff_count_le_one.mp hnodup name
  obtain ⟨other, hother⟩ := List.length_eq_one_iff.mp
    (Nat.le_antisymm hlength (List.length_pos_of_mem hmem))
  rw [hother, List.mem_singleton] at hmem
  rw [hother, hmem]

/-- The column of each order is in the projection behind a lift. -/
theorem namesSome_exposeOrders :
    ∀ {index : Nat} {selection : List Projection}, selection ≠ [] →
      (exposeOrders symbol index orders selection).failure = none →
      List.Forall₂ (Order.NamesSome symbol (exposeOrders symbol index orders selection).node)
        orders (exposeOrders symbol index orders selection).orders := by
  induction orders with
  | nil => exact fun _ _ => .nil
  | cons order orders ih =>
    intro index selection hne h
    have hfirst := exposes_expose hne order.expression index
    obtain ⟨hrest, hall⟩ := exposeOrders_cons_success h
    rw [hall]
    refine .cons ?_ (ih hfirst.ne_nil hrest)
    -- The column has a name, and so it is still there behind the other orders.
    obtain ⟨item, hitem, hname, hmatches⟩ := hfirst.exists_mem
    have hlater := Projection.grows_exposeOrders symbol orders (index + 1)
      (expose selection order.expression index).2
    exact ⟨_, rfl, item, hlater.mem_of_named hitem hname, hname, hmatches⟩

/-- A name that was made up is the column of an order. -/
theorem exists_mem_exposeOrders {name : String} :
    ∀ {index : Nat} {selection : List Projection}, selection ≠ [] →
      (exposeOrders symbol index orders selection).failure = none →
      name ∈ generatedNames index orders selection →
      ∃ outer ∈ (exposeOrders symbol index orders selection).orders,
        outer.expression = .ofField ⟨name, some symbol⟩ := by
  induction orders with
  | nil => exact fun _ _ h => by cases h
  | cons order orders ih =>
    intro index selection hne h hmem
    have hfirst := exposes_expose hne order.expression index
    obtain ⟨hrest, hall⟩ := exposeOrders_cons_success h
    have hlater := fun hname => ih hfirst.ne_nil hrest hname
    rw [hall]
    rw [generatedNames] at hmem
    -- The name was made up for this order or for one of the others.
    rcases hfirst.outputNames_eq with ⟨hnamed, -⟩ | ⟨hnamed, hcolumn, -⟩
    · rw [if_pos hnamed] at hmem
      obtain ⟨outer, houter, hexpression⟩ := hlater hmem
      exact ⟨outer, List.mem_cons_of_mem _ houter, hexpression⟩
    · rw [if_neg (by simp [hnamed])] at hmem
      rcases List.mem_cons.mp hmem with rfl | hmem
      · exact ⟨_, List.mem_cons_self, by rw [hcolumn]⟩
      · obtain ⟨outer, houter, hexpression⟩ := hlater hmem
        exact ⟨outer, List.mem_cons_of_mem _ houter, hexpression⟩

/-- What is related to something on the right is on the left. -/
theorem exists_left_of_mem_right {α β : Type} {R : α → β → Prop} {xs : List α} {ys : List β}
    (h : List.Forall₂ R xs ys) {y : β} (hy : y ∈ ys) : ∃ x ∈ xs, R x y := by
  induction h with
  | nil => cases hy
  | @cons x y' xs ys hhead _ ih =>
    rcases List.mem_cons.mp hy with rfl | hy
    · exact ⟨x, List.mem_cons_self, hhead⟩
    · obtain ⟨x', hx', hrelated⟩ := ih hy
      exact ⟨x', List.mem_cons_of_mem x hx', hrelated⟩

/-- The orders that are lifted from a projection with different output names each name one column
exactly if no name was made up that was there already. -/
theorem namesOne_exposeOrders_iff (hne : selection ≠ []) (hnames : (outputNames selection).Nodup)
    (h : (exposeOrders symbol index orders selection).failure = none) :
    List.Forall₂ (Order.NamesOne symbol (exposeOrders symbol index orders selection).node) orders
        (exposeOrders symbol index orders selection).orders ↔
      (generatedNames index orders selection).Disjoint (outputNames selection) := by
  have hperm := outputNames_exposeOrders hne h
  constructor
  · intro hone name hgenerated hname
    obtain ⟨outer, houter, hcolumn⟩ := exists_mem_exposeOrders hne h hgenerated
    obtain ⟨o, -, other, hother, item, hitem, -⟩ := exists_left_of_mem_right hone houter
    obtain rfl : other = name := by simpa [Expression.ofField] using hother.symm.trans hcolumn
    -- The name counts once among the names that were made up and once among the others.
    have hcount := hperm.count_eq other
    rw [count_outputNames, hitem, List.count_append] at hcount
    have hfirst := List.count_pos_iff.mpr hgenerated
    have hsecond := List.count_pos_iff.mpr hname
    rw [List.length_singleton] at hcount
    omega
  · intro hdisjoint
    have hnodup : (outputNames (exposeOrders symbol index orders selection).node).Nodup :=
      hperm.nodup_iff.mpr (List.nodup_append'.mpr ⟨nodup_generatedNames _ _ _, hnames, hdisjoint⟩)
    exact (namesSome_exposeOrders hne h).imp fun _ _ hsome => hsome.namesOne hnodup

/-- Where the output names of a subquery are different, each order that is lifted from it is by the
column of its own expression. That is the only column of its name for all of them exactly if no name
was made up that was an output name already. -/
theorem Query.namesOne_bubbleSourceOrder {q inner : Query} {alias? : Option String}
    (hsource : q.source = .single (.select inner alias?)) (hselection : inner.selection ≠ [])
    (hnames : (outputNames inner.selection).Nodup) (h : q.bubbleSourceOrder.failure = none) :
    let symbol := (Relation.select inner alias?).symbol
    ∃ inner', q.bubbleSourceOrder.node.source = .single (.select inner' alias?) ∧
      List.Forall₂ (Order.NamesSome symbol inner'.selection) inner.ordered.orders
        q.bubbleSourceOrder.node.orders ∧
      (List.Forall₂ (Order.NamesOne symbol inner'.selection) inner.ordered.orders
          q.bubbleSourceOrder.node.orders ↔
        (generatedNames 0 inner.ordered.orders inner.selection).Disjoint
          (outputNames inner.selection)) := by
  intro symbol
  obtain ⟨hlift, hnode, horders⟩ := bubbleSourceOrder_select hsource h
  have hordered : inner.ordered.selection = inner.selection := inner.ordered_selection
  have hne : inner.ordered.selection ≠ [] := by rwa [hordered]
  refine ⟨_, hnode, ?_, ?_⟩ <;> rw [horders]
  · exact namesSome_exposeOrders hne hlift
  · have hiff := namesOne_exposeOrders_iff hne (by rwa [hordered]) hlift
    simpa only [liftOrders, Bubbled.map, hordered] using hiff

/-- All but the first row of a table by a column that is not projected, the projected one being
called `name`. -/
def Query.renamedRows (name : String) : Query :=
  let rows := (Query.ofTable "T").project (.ofField ⟨"A", none⟩) (some name)
  (Query.ofSource (.ofQuery (rows.orderBy ⟨.ofField ⟨"B", none⟩, .asc⟩) "s")).withSkip 1

/-- A name that cannot be made up. -/
theorem Query.namesOne_bubbleSourceOrder_renamedRows :
    (renamedRows "a").bubbleSourceOrder.failure = none ∧
      ∃ inner', (renamedRows "a").bubbleSourceOrder.node.source =
          .single (.select inner' (some "s")) ∧
        List.Forall₂ (Order.NamesOne "s" inner'.selection) [⟨.ofField ⟨"B", none⟩, .asc⟩]
          [⟨.ofField ⟨"order_0", some "s"⟩, .asc⟩] := by
  obtain ⟨inner', hsource, -, hone⟩ := namesOne_bubbleSourceOrder (q := renamedRows "a") rfl
    (List.cons_ne_nil _ _) (List.nodup_singleton _) rfl
  refine ⟨rfl, inner', hsource, hone.mpr fun name hgenerated hname => ?_⟩
  obtain rfl : name = "order_0" := List.mem_singleton.mp hgenerated
  exact absurd (List.mem_singleton.mp hname) (by decide)

/-- A name that is made up again: two columns are called `order_0`. -/
theorem Query.text_renamedRows :
    renderInline (renamedRows "order_0") .sqlServer .standard =
        .ok ("SELECT * FROM (SELECT *, ROW_NUMBER() OVER (ORDER BY [s].[order_0] ASC) AS rownum " ++
          "FROM (SELECT [A] AS [order_0], [B] AS [order_0] FROM [T]) [s]) paging_t " ++
          "WHERE rownum > 1 ORDER BY rownum") ∧
      (renamedRows "order_0").bubbleSourceOrder.failure = none ∧
      (renamedRows "order_0").bubbleSourceOrder.node.orders =
        [⟨.ofField ⟨"order_0", some "s"⟩, .asc⟩] ∧
      ∃ inner', (renamedRows "order_0").bubbleSourceOrder.node.source =
          .single (.select inner' (some "s")) ∧
        (inner'.selection.filter (·.outputName? == some "order_0")).map (·.expression) =
          [.ofField ⟨"A", none⟩, .ofField ⟨"B", none⟩] :=
  ⟨by decide +kernel, rfl, rfl, _, rfl, rfl⟩

end DialectSql
