import Mathlib.Data.List.Forall2
import DialectSql.Proofs.NaturalOrder

/-!
# Exposed orders

The orders of a subquery are lifted by its output columns. An order expression that is projected
already is lifted by the name of the first item that equals it, and that item gets a generated name
if it has none. An expression that is not projected is added behind the others. So a projection only
grows, and its items keep their places.

## Main definitions

* `Exposes` — what exposing an expression does to a projection that is written out
* `Projection.Gains`, `Projection.Grows` — items and projections that may have gained something
* `Order.ByColumn` — an order by a plain column in place of another order

## Main results

* `exposes_exposeIn` — the three ways in which an expression is exposed
* `Projection.grows_exposeOrders`, `byColumn_exposeOrders` — the orders of a subquery one by one
-/

namespace DialectSql

/-! ## One expression -/

/-- What exposing the expression `e` does to a projection that is written out, and the output column
of `e` in what becomes of it. -/
inductive Exposes (generated : String) (e : Expression) :
    List Projection → String → List Projection → Prop
  /-- The first item that equals the expression has a name. -/
  | named {front back : List Projection} {item : Projection} {name : String}
      (hfront : ∀ p ∈ front, (p.expression == e) = false)
      (hitem : (item.expression == e) = true) (hname : item.outputName? = some name) :
      Exposes generated e (front ++ item :: back) name (front ++ item :: back)
  /-- The first item that equals the expression gets a name. -/
  | unnamed {front back : List Projection} {item : Projection}
      (hfront : ∀ p ∈ front, (p.expression == e) = false)
      (hitem : (item.expression == e) = true) (hname : item.outputName? = none) :
      Exposes generated e (front ++ item :: back) generated
        (front ++ { item with alias? := some generated } :: back)
  /-- No item equals the expression. -/
  | absent {selection : List Projection} (h : ∀ p ∈ selection, (p.expression == e) = false) :
      Exposes generated e selection generated (selection ++ [⟨e, some generated⟩])

namespace Exposes

variable {generated column : String} {e : Expression} {item : Projection}
  {selection selection' : List Projection}

/-- An item in front that differs from the expression makes no difference. -/
theorem cons (h : Exposes generated e selection column selection')
    (hitem : (item.expression == e) = false) :
    Exposes generated e (item :: selection) column (item :: selection') := by
  cases h with
  | @named front _ _ _ hfront hmatch hname =>
    have hmore : ∀ p ∈ item :: front, (p.expression == e) = false :=
      List.forall_mem_cons.mpr ⟨hitem, hfront⟩
    exact .named hmore hmatch hname
  | @unnamed front _ _ hfront hmatch hname =>
    have hmore : ∀ p ∈ item :: front, (p.expression == e) = false :=
      List.forall_mem_cons.mpr ⟨hitem, hfront⟩
    exact .unnamed hmore hmatch hname
  | absent hnone => exact .absent (List.forall_mem_cons.mpr ⟨hitem, hnone⟩)

end Exposes

/-- There are three ways in which an expression is exposed. -/
theorem exposes_exposeIn (generated : String) (e : Expression) :
    ∀ selection : List Projection, Exposes generated e selection
      (exposeIn generated e selection).1 (exposeIn generated e selection).2
  | [] => .absent (by simp)
  | item :: selection => by
    have hfront : ∀ p ∈ ([] : List Projection), (p.expression == e) = false := by simp
    rw [exposeIn]
    split
    · next hitem =>
      split
      · next name hname => exact .named hfront hitem hname
      · next hname => exact .unnamed hfront hitem hname
    · next hitem => exact (exposes_exposeIn generated e selection).cons (by simpa using hitem)

/-- In a projection that is written out an order expression is exposed in one of these ways. -/
theorem exposes_expose {selection : List Projection} (h : selection ≠ []) (e : Expression)
    (index : Nat) : Exposes (generatedAlias index) e selection (expose selection e index).1
      (expose selection e index).2 := by
  cases selection with
  | nil => exact absurd rfl h
  | cons item selection => exact exposes_exposeIn _ e (item :: selection)

/-! ## Growth -/

namespace Projection

/-- An item as it was, or with a generated name where it had none. -/
inductive Gains : Projection → Projection → Prop
  | nothing (p : Projection) : Gains p p
  | name {p : Projection} (h : p.outputName? = none) (index : Nat) :
      Gains p { p with alias? := some (generatedAlias index) }

/-- A projection whose items have kept their places and their expressions, and may have gained a
name; items may have been added behind them. -/
def Grows (selection selection' : List Projection) : Prop :=
  ∀ (i : Nat) (p : Projection), selection[i]? = some p → ∃ p', selection'[i]? = some p' ∧ p.Gains p'

variable {p p' p'' : Projection} {selection selection' selection'' : List Projection}

/-- An item with a name gains nothing. -/
theorem Gains.eq_of_named (h : p.Gains p') {name : String} (hname : p.outputName? = some name) :
    p' = p := by
  cases h with
  | nothing => rfl
  | name hnone => rw [hnone] at hname; cases hname

theorem Gains.trans (h : p.Gains p') (h' : p'.Gains p'') : p.Gains p'' := by
  cases h with
  | nothing => exact h'
  | name hnone index =>
    have hnamed : ({ p with alias? := some (generatedAlias index) } : Projection).outputName? =
        some (generatedAlias index) := rfl
    obtain rfl := h'.eq_of_named hnamed
    exact .name hnone index

namespace Grows

theorem refl (selection : List Projection) : Grows selection selection :=
  fun _ p hp => ⟨p, hp, .nothing p⟩

theorem trans (h : Grows selection selection') (h' : Grows selection' selection'') :
    Grows selection selection'' := by
  intro i p hp
  obtain ⟨p', hp', hgains⟩ := h i p hp
  obtain ⟨p'', hp'', hgains'⟩ := h' i p' hp'
  exact ⟨p'', hp'', hgains.trans hgains'⟩

/-- An item with a name is still there. -/
theorem mem_of_named (h : Grows selection selection') (hp : p ∈ selection) {name : String}
    (hname : p.outputName? = some name) : p ∈ selection' := by
  obtain ⟨i, hi⟩ := List.getElem?_of_mem hp
  obtain ⟨p', hp', hgains⟩ := h i p hi
  rw [← hgains.eq_of_named hname]
  exact List.mem_of_getElem? hp'

/-- A projection with items behind it. -/
theorem append (selection added : List Projection) : Grows selection (selection ++ added) := by
  intro i p hp
  have hlt : i < selection.length := (List.getElem?_eq_some_iff.mp hp).1
  exact ⟨p, by rw [List.getElem?_append_left hlt, hp], .nothing p⟩

/-- A projection in which one item gains something. -/
theorem gain (front back : List Projection) (h : p.Gains p') :
    Grows (front ++ p :: back) (front ++ p' :: back) := by
  intro i item hitem
  rcases Nat.lt_trichotomy i front.length with hlt | rfl | hgt
  · rw [List.getElem?_append_left hlt] at hitem ⊢
    exact ⟨item, hitem, .nothing item⟩
  · rw [List.getElem?_append_right (Nat.le_refl _), Nat.sub_self] at hitem ⊢
    obtain rfl : p = item := by simpa using hitem
    exact ⟨p', rfl, h⟩
  · obtain ⟨k, rfl⟩ := Nat.exists_eq_add_of_lt hgt
    have hindex : front.length + k + 1 - front.length = k + 1 := by omega
    rw [List.getElem?_append_right (by omega), hindex, List.getElem?_cons_succ] at hitem ⊢
    exact ⟨item, hitem, .nothing item⟩

end Grows

/-- A projection grows where an expression is exposed. -/
theorem grows_of_exposes {index : Nat} {e : Expression} {column : String}
    (h : Exposes (generatedAlias index) e selection column selection') :
    Grows selection selection' := by
  cases h with
  | named => exact .refl _
  | unnamed _ _ hname => exact .gain _ _ (.name hname index)
  | absent => exact .append _ _

theorem grows_expose (selection : List Projection) (e : Expression) (index : Nat) :
    Grows selection (expose selection e index).2 := by
  cases selection with
  | nil => exact fun i p hp => by simp at hp
  | cons item selection => exact grows_of_exposes (exposes_expose (List.cons_ne_nil _ _) e index)

/-- A projection grows where orders are exposed. -/
theorem grows_exposeOrders (symbol : String) (orders : List Order) :
    ∀ (index : Nat) (selection : List Projection),
      Grows selection (exposeOrders symbol index orders selection).node := by
  induction orders with
  | nil => exact fun _ selection => .refl selection
  | cons order orders ih =>
    intro index selection
    have hfirst := grows_expose selection order.expression index
    rw [exposeOrders_cons]
    split
    · exact hfirst
    · exact hfirst.trans (ih (index + 1) _)

end Projection

/-! ## The orders outside -/

/-- An order by a plain column of `symbol` in the direction of another order. -/
structure Order.ByColumn (symbol : String) (o outer : Order) : Prop where
  /-- The direction is the same. -/
  direction : outer.direction = o.direction
  /-- The rows are ordered by a column. -/
  column : ∃ name, outer.expression = .ofField ⟨name, some symbol⟩

/-- Each order that is exposed is lifted to a column. -/
theorem byColumn_exposeOrders {symbol : String} {orders : List Order} :
    ∀ {index : Nat} {selection : List Projection},
      (exposeOrders symbol index orders selection).failure = none →
      List.Forall₂ (Order.ByColumn symbol) orders
        (exposeOrders symbol index orders selection).orders := by
  induction orders with
  | nil => exact fun _ => .nil
  | cons order orders ih =>
    intro index selection h
    obtain ⟨hrest, hall⟩ := exposeOrders_cons_success h
    rw [hall]
    exact .cons ⟨rfl, _, rfl⟩ (ih hrest)

/-- Each order of a set operation that is lifted is lifted to a column. -/
theorem byColumn_liftSetOrders {symbol description : String} {orders : List Order} :
    ∀ {lifted : List Order}, liftSetOrders symbol description orders = .ok lifted →
      List.Forall₂ (Order.ByColumn symbol) orders lifted := by
  induction orders with
  | nil =>
    intro lifted h
    obtain rfl : [] = lifted := by simpa [liftSetOrders] using h
    exact .nil
  | cons order orders ih =>
    intro lifted h
    obtain ⟨field, outer, rest, -, houter, hrest, rfl⟩ := liftSetOrders_cons_ok h
    cases Field.eq_of_qualified houter
    exact .cons ⟨rfl, _, rfl⟩ (ih hrest)

end DialectSql
