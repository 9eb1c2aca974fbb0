import DialectSql.Statement

/-!
# Ingredients of statement trees

What the rules of statements are about: the columns that a tree refers to, its constants, and its
compound conditions with the number of their children. A rule of trees is a rule of their
ingredients, subqueries, join conditions, storing orders and assignments included.

## Main definitions

* `Ingredient`, `Ingredient.WellFormed` — the ingredients, and the rules of each
* `Ingredient.Storable` — the ingredients that documents can hold
* `Expression.ingredients`, `Query.ingredients`, `Statement.ingredients`, … — those of a tree

## Main results

* `Ingredient.wellFormed_column_iff`, `Ingredient.wellFormed_compound_iff` — the rules are those
  that the checked ways of making columns and compound conditions enforce
* `Query.forall_ingredients`, `Change.forall_ingredients`, … — a rule of a tree is one of its parts
-/

namespace DialectSql

/-- What a rule of statements can be about. -/
inductive Ingredient
  /-- A column name. -/
  | column (name : String)
  /-- A constant. -/
  | constant (value : Value)
  /-- A compound condition with a number of children. -/
  | compound (op : Connective) (count : Nat)

namespace Ingredient

/-- The rules of statements: a column has a name without `*`, NOT has one child, and AND and OR have
two or more. -/
def WellFormed : Ingredient → Prop
  | column name => name ≠ "" ∧ '*' ∉ name.toList
  | constant _ => True
  | compound .not count => count = 1
  | compound .and count => 2 ≤ count
  | compound .or count => 2 ≤ count

/-- The ingredients that documents can hold: those within the rules, and no float but finite
ones. -/
def Storable : Ingredient → Prop
  | constant (.float x) => x.isFinite = true
  | i => i.WellFormed

/-- Checked column names are those within the rules. -/
theorem wellFormed_column_iff {name : String} :
    (column name).WellFormed ↔ Field.IsColumnName name := Iff.rfl

/-- The numbers of children within the rules are those that a connective allows. -/
theorem wellFormed_compound_iff {op : Connective} {count : Nat} :
    (compound op count).WellFormed ↔ op.allows count = true := by
  cases op <;> simp [WellFormed, Connective.allows]

theorem wellFormed_constant (value : Value) : (constant value).WellFormed := trivial

/-- What documents can hold is within the rules. -/
theorem Storable.wellFormed {i : Ingredient} (h : i.Storable) : i.WellFormed := by
  cases i with
  | constant value => trivial
  | column name => exact h
  | compound op count => exact h

end Ingredient

open Ingredient (column constant compound)

/-! ## The ingredients of a tree -/

/-- The ingredients of a column reference. -/
def Field.ingredients (f : Field) : List Ingredient := [column f.name]

namespace Expression

mutual

/-- The ingredients of an expression. -/
def ingredients : Expression → List Ingredient
  | .constant value => [.constant value]
  | .field f _ => f.ingredients
  | .arithmetic _ left right => left.ingredients ++ right.ingredients
  | .comparison _ left right => left.ingredients ++ right.ingredients
  | .logic _ left right => left.ingredients ++ right.ingredients
  | .bitwise _ left right => left.ingredients ++ right.ingredients
  | .unary _ operand => operand.ingredients
  | .like subject pattern _ => subject.ingredients ++ pattern.ingredients
  | .membership _ subject values => subject.ingredients ++ values.map .constant
  | .call _ args _ => ingredientsList args
  | .wildcard _ => []

/-- The ingredients of a list of expressions. -/
def ingredientsList : List Expression → List Ingredient
  | [] => []
  | e :: es => e.ingredients ++ ingredientsList es

end

end Expression

/-- The ingredients of an order. -/
def Order.ingredients (o : Order) : List Ingredient := o.expression.ingredients

/-- The ingredients of a projected expression. -/
def Projection.ingredients (p : Projection) : List Ingredient := p.expression.ingredients

/-- The ingredients of an aggregate. -/
def Aggregation.ingredients (a : Aggregation) : List Ingredient :=
  a.argument.elim [] Expression.ingredients

/-- The ingredients of a table: those of its storing order. -/
def Table.ingredients (t : Table) : List Ingredient := t.storingOrder.flatMap Order.ingredients

mutual

/-- The ingredients of a condition, those of its subqueries included. -/
def Criteria.ingredients : Criteria → List Ingredient
  | .expression e => e.ingredients
  | .compound op children => compound op children.length :: Criteria.ingredientsList children
  | .inSelect subject query _ => subject.ingredients ++ query.ingredients

/-- The ingredients of a list of conditions. -/
def Criteria.ingredientsList : List Criteria → List Ingredient
  | [] => []
  | c :: cs => c.ingredients ++ Criteria.ingredientsList cs

/-- The ingredients of an optional condition. -/
def Criteria.ingredientsOption : Option Criteria → List Ingredient
  | none => []
  | some c => c.ingredients

/-- The ingredients of a relation. -/
def Relation.ingredients : Relation → List Ingredient
  | .table t => t.ingredients
  | .select query _ => query.ingredients
  | .set set _ => set.ingredients

/-- The ingredients of a source. -/
def Source.ingredients : Source → List Ingredient
  | .single r => r.ingredients
  | .joined _ left right on => left.ingredients ++ right.ingredients ++ on.ingredients

/-- The ingredients of a query. -/
def Query.ingredients : Query → List Ingredient
  | ⟨source, criteria, selection, _, orders, _, _, aggregation, groupBy, having⟩ =>
    source.ingredients ++ Criteria.ingredientsOption criteria ++
      selection.flatMap Projection.ingredients ++ orders.flatMap Order.ingredients ++
      aggregation.elim [] Aggregation.ingredients ++ groupBy.flatMap Expression.ingredients ++
      Criteria.ingredientsOption having

/-- The ingredients of an operand of a set operation. -/
def SetOperand.ingredients : SetOperand → List Ingredient
  | .query q => q.ingredients
  | .set s => s.ingredients

/-- The ingredients of a set operation. -/
def QuerySet.ingredients : QuerySet → List Ingredient
  | ⟨_, left, right, orders⟩ =>
    left.ingredients ++ right.ingredients ++ orders.flatMap Order.ingredients

end

/-- The ingredients of what an assignment writes; an increment is a constant too. -/
def AssignedValue.ingredients : AssignedValue → List Ingredient
  | .increment amount => [.constant amount.toValue]
  | .expression e => e.ingredients
  | v => v.constant?.toList.map .constant

/-- The ingredients of an assignment. -/
def Assignment.ingredients (a : Assignment) : List Ingredient :=
  a.column.ingredients ++ a.value.ingredients

/-- The ingredients of a change. -/
def Change.ingredients (c : Change) : List Ingredient :=
  c.source.ingredients ++ Criteria.ingredientsOption c.criteria ++
    c.assignments.flatMap Assignment.ingredients

/-- The ingredients of a statement. -/
def Statement.ingredients : Statement → List Ingredient
  | query q => q.ingredients
  | set s => s.ingredients
  | change c => c.ingredients

/-! ## Rules of ingredients -/

section Rules

variable {W : Ingredient → Prop}

/-- A rule of all ingredients of a list is one of all ingredients of each expression. -/
theorem Expression.forall_ingredientsList {es : List Expression} :
    (∀ i ∈ ingredientsList es, W i) ↔ ∀ e ∈ es, ∀ i ∈ e.ingredients, W i := by
  induction es with
  | nil => simp [ingredientsList]
  | cons e es ih => rw [ingredientsList, List.forall_mem_append, List.forall_mem_cons, ih]

theorem Aggregation.forall_ingredientsOption {a? : Option Aggregation} :
    (∀ i ∈ a?.elim [] ingredients, W i) ↔ ∀ a ∈ a?, ∀ i ∈ a.ingredients, W i := by
  cases a? <;> simp

/-- A rule of all ingredients of a list is one of all ingredients of each condition. -/
theorem Criteria.forall_ingredientsList {cs : List Criteria} :
    (∀ i ∈ ingredientsList cs, W i) ↔ ∀ c ∈ cs, ∀ i ∈ c.ingredients, W i := by
  induction cs with
  | nil => simp [ingredientsList]
  | cons c cs ih => rw [ingredientsList, List.forall_mem_append, List.forall_mem_cons, ih]

theorem Criteria.forall_ingredientsOption {c? : Option Criteria} :
    (∀ i ∈ ingredientsOption c?, W i) ↔ ∀ c ∈ c?, ∀ i ∈ c.ingredients, W i := by
  cases c? <;> simp [ingredientsOption]

/-- A query obeys a rule if all its clauses do. -/
theorem Query.forall_ingredients {q : Query} :
    (∀ i ∈ q.ingredients, W i) ↔
      (∀ i ∈ q.source.ingredients, W i) ∧
      (∀ c ∈ q.criteria, ∀ i ∈ c.ingredients, W i) ∧
      (∀ p ∈ q.selection, ∀ i ∈ p.ingredients, W i) ∧
      (∀ o ∈ q.orders, ∀ i ∈ o.ingredients, W i) ∧
      (∀ a ∈ q.aggregation, ∀ i ∈ a.ingredients, W i) ∧
      (∀ e ∈ q.groupBy, ∀ i ∈ e.ingredients, W i) ∧
      (∀ c ∈ q.having, ∀ i ∈ c.ingredients, W i) := by
  obtain ⟨source, criteria, selection, distinct, orders, skip, take, aggregation, groupBy,
    having⟩ := q
  simp only [ingredients, List.forall_mem_append, List.forall_mem_flatMap,
    Criteria.forall_ingredientsOption, Aggregation.forall_ingredientsOption, and_assoc]

/-- A set operation obeys a rule if its operands and its orders do. -/
theorem QuerySet.forall_ingredients {s : QuerySet} :
    (∀ i ∈ s.ingredients, W i) ↔
      (∀ i ∈ s.left.ingredients, W i) ∧ (∀ i ∈ s.right.ingredients, W i) ∧
      (∀ o ∈ s.orders, ∀ i ∈ o.ingredients, W i) := by
  obtain ⟨operator, left, right, orders⟩ := s
  simp only [ingredients, List.forall_mem_append, List.forall_mem_flatMap, and_assoc]

/-- A change obeys a rule if its clauses do. -/
theorem Change.forall_ingredients {c : Change} :
    (∀ i ∈ c.ingredients, W i) ↔
      (∀ i ∈ c.source.ingredients, W i) ∧
      (∀ a ∈ c.criteria, ∀ i ∈ a.ingredients, W i) ∧
      (∀ a ∈ c.assignments, ∀ i ∈ a.ingredients, W i) := by
  simp only [ingredients, List.forall_mem_append, List.forall_mem_flatMap,
    Criteria.forall_ingredientsOption, and_assoc]

end Rules

/-- A statement within the rules. -/
def Statement.WellFormed (s : Statement) : Prop := ∀ i ∈ s.ingredients, i.WellFormed

/-- A statement that documents can hold: it is within the rules, and its floats are finite. -/
def Statement.Storable (s : Statement) : Prop := ∀ i ∈ s.ingredients, i.Storable

end DialectSql
