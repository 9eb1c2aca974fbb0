import DialectSql.Proofs.Document.Statement

/-!
# Trees

A node of a statement of any kind, as applications hold it: with its parts, which are nodes
themselves, and with the document that is written for it.

## Main definitions

* `Tree`, `Tree.Kind` — a node of any kind, and the kinds
* `Tree.parts` — the nodes directly under a node
* `Tree.WellFormed` — the rules of statements
* `Tree.encode`, `Tree.Kind.decode` — the document of a node

## Main results

* `Tree.forall_parts` — a node obeys a rule exactly if its parts do, columns and compound conditions
  aside
* `Tree.recovers_decode`, `Tree.Kind.ensures_decode` — documents hold nodes within the rules only
-/

namespace DialectSql

open Reading (Recovers Ensures)

/-- A node of a statement. -/
inductive Tree
  | field (f : Field)
  | expression (e : Expression)
  | order (o : Order)
  | projection (p : Projection)
  | aggregation (a : Aggregation)
  | criteria (c : Criteria)
  | table (t : Table)
  | relation (r : Relation)
  | source (s : Source)
  | query (q : Query)
  | operand (o : SetOperand)
  | set (s : QuerySet)
  | assigned (v : AssignedValue)
  | assignment (a : Assignment)
  | change (c : Change)
  | statement (s : Statement)

namespace Tree

/-- The ingredients of a node. -/
def ingredients : Tree → List Ingredient
  | field f => f.ingredients
  | expression e => e.ingredients
  | order o => o.ingredients
  | projection p => p.ingredients
  | aggregation a => a.ingredients
  | criteria c => c.ingredients
  | table t => t.ingredients
  | relation r => r.ingredients
  | source s => s.ingredients
  | query q => q.ingredients
  | operand o => o.ingredients
  | set s => s.ingredients
  | assigned v => v.ingredients
  | assignment a => a.ingredients
  | change c => c.ingredients
  | statement s => s.ingredients

/-- A node is within the rules if all its ingredients are. -/
def WellFormed (t : Tree) : Prop := ∀ i ∈ t.ingredients, i.WellFormed

/-! ## Parts -/

/-- The nodes directly under an expression. -/
def expressionParts : Expression → List Tree
  | .constant _ | .wildcard _ => []
  | .field f _ => [field f]
  | .arithmetic _ left right | .comparison _ left right | .logic _ left right
  | .bitwise _ left right | .like left right _ => [expression left, expression right]
  | .unary _ inner => [expression inner]
  | .membership _ subject _ => [expression subject]
  | .call _ args _ => args.map expression

/-- The nodes directly under a node. -/
def parts : Tree → List Tree
  | field _ => []
  | expression e => expressionParts e
  | order o => [expression o.expression]
  | projection p => [expression p.expression]
  | aggregation a => a.argument.toList.map expression
  | criteria (.expression e) => [expression e]
  | criteria (.compound _ children) => children.map criteria
  | criteria (.inSelect subject q _) => [expression subject, query q]
  | table t => t.storingOrder.map order
  | relation (.table t) => [table t]
  | relation (.select q _) => [query q]
  | relation (.set s _) => [set s]
  | source (.single r) => [relation r]
  | source (.joined _ left right on) => [source left, source right, criteria on]
  | query q =>
    source q.source :: q.criteria.toList.map criteria ++ q.selection.map projection ++
      q.orders.map order ++ q.aggregation.toList.map aggregation ++ q.groupBy.map expression ++
      q.having.toList.map criteria
  | operand (.query q) => [query q]
  | operand (.set s) => [set s]
  | set s => operand s.left :: operand s.right :: s.orders.map order
  | assigned (.expression e) => [expression e]
  | assigned _ => []
  | assignment a => [field a.column, assigned a.value]
  | change c => source c.source :: c.criteria.toList.map criteria ++ c.assignments.map assignment
  | statement (.query q) => [query q]
  | statement (.set s) => [set s]
  | statement (.change c) => [change c]

/-- Whether nodes of this form are made with a check, and in no other way. -/
def IsChecked : Tree → Prop
  | field _ => True
  | criteria (.compound _ _) => True
  | _ => False

variable {W : Ingredient → Prop}

/-- What is the only part of a node has all ingredients of that node. -/
theorem forall_part (t : Tree) :
    (∀ i ∈ t.ingredients, W i) ↔ ∀ p ∈ [t], ∀ i ∈ p.ingredients, W i := by
  simp only [List.mem_singleton, forall_eq]

/-- A rule of the ingredients of an expression is one of its parts. -/
theorem forall_expressionParts (hW : ∀ v, W (.constant v)) (e : Expression) :
    (∀ i ∈ e.ingredients, W i) ↔ ∀ p ∈ expressionParts e, ∀ i ∈ p.ingredients, W i := by
  cases e with
  | constant v => simpa [Expression.ingredients, expressionParts] using hW v
  | wildcard _ => simp [Expression.ingredients, expressionParts]
  | field f _ => exact forall_part (field f)
  | unary _ inner => exact forall_part (expression inner)
  | arithmetic _ _ _ | comparison _ _ _ | logic _ _ _ | bitwise _ _ _ | like _ _ _ =>
    rw [Expression.ingredients, expressionParts, List.forall_mem_append, List.forall_mem_cons,
      List.forall_mem_singleton]
    rfl
  | membership _ _ values =>
    rw [Expression.ingredients, expressionParts, List.forall_mem_append, List.forall_mem_map,
      List.forall_mem_singleton, and_iff_left fun v _ => hW v]
    rfl
  | call _ args _ =>
    rw [Expression.ingredients, Expression.forall_ingredientsList, expressionParts,
      List.forall_mem_map]
    rfl

/-- A rule that all constants obey is obeyed by a node exactly if its parts obey it, columns and
compound conditions aside. -/
theorem forall_parts (hW : ∀ v, W (.constant v)) {t : Tree} (ht : ¬t.IsChecked) :
    (∀ i ∈ t.ingredients, W i) ↔ ∀ p ∈ t.parts, ∀ i ∈ p.ingredients, W i := by
  -- What a node has besides the ingredients of its parts are constants.
  cases t with
  | field f => exact absurd trivial ht
  | expression e => exact forall_expressionParts hW e
  | order o => exact forall_part (expression o.expression)
  | projection p => exact forall_part (expression p.expression)
  | aggregation a =>
    obtain ⟨function, _ | e⟩ := a
    · simp [ingredients, Aggregation.ingredients, parts]
    · exact forall_part (expression e)
  | criteria c =>
    cases c with
    | expression e => exact forall_part (expression e)
    | compound _ _ => exact absurd trivial ht
    | inSelect subject q _ =>
      rw [ingredients, Criteria.ingredients, parts, List.forall_mem_append, List.forall_mem_cons,
        List.forall_mem_singleton]
      rfl
  | table t =>
    rw [ingredients, Table.ingredients, parts, List.forall_mem_flatMap, List.forall_mem_map]
    rfl
  | relation r =>
    cases r with
    | table t => exact forall_part (table t)
    | select q _ => exact forall_part (query q)
    | set s _ => exact forall_part (set s)
  | source s =>
    cases s with
    | single r => exact forall_part (relation r)
    | joined _ left right on =>
      rw [ingredients, Source.ingredients, parts, List.forall_mem_append, List.forall_mem_append,
        List.forall_mem_cons, List.forall_mem_cons, List.forall_mem_singleton, and_assoc]
      rfl
  | query q =>
    rw [ingredients, Query.forall_ingredients]
    simp only [parts, List.forall_mem_append, List.forall_mem_cons, List.forall_mem_map,
      Option.mem_toList, and_assoc]
    rfl
  | operand o =>
    cases o with
    | query q => exact forall_part (query q)
    | set s => exact forall_part (set s)
  | set s =>
    rw [ingredients, QuerySet.forall_ingredients]
    simp only [parts, List.forall_mem_cons, List.forall_mem_map]
    rfl
  | assigned v =>
    cases v with
    | expression e => exact forall_part (expression e)
    | _ => simp [ingredients, parts, AssignedValue.ingredients, AssignedValue.constant?, hW]
  | assignment a =>
    rw [ingredients, Assignment.ingredients, parts, List.forall_mem_append, List.forall_mem_cons,
      List.forall_mem_singleton]
    rfl
  | change c =>
    rw [ingredients, Change.forall_ingredients]
    simp only [parts, List.forall_mem_append, List.forall_mem_cons, List.forall_mem_map,
      Option.mem_toList, and_assoc]
    rfl
  | statement s =>
    cases s with
    | query q => exact forall_part (query q)
    | set s => exact forall_part (set s)
    | change c => exact forall_part (change c)

/-! ## Documents -/

/-- The kinds of nodes. -/
inductive Kind
  | field | expression | order | projection | aggregation | criteria | table | relation | source
  | query | operand | set | assigned | assignment | change | statement

/-- The kind of a node. -/
def kind : Tree → Kind
  | field _ => .field
  | expression _ => .expression
  | order _ => .order
  | projection _ => .projection
  | aggregation _ => .aggregation
  | criteria _ => .criteria
  | table _ => .table
  | relation _ => .relation
  | source _ => .source
  | query _ => .query
  | operand _ => .operand
  | set _ => .set
  | assigned _ => .assigned
  | assignment _ => .assignment
  | change _ => .change
  | statement _ => .statement

/-- The document of a node. -/
def encode : Tree → Json
  | field f => f.encode
  | expression e => e.encode
  | order o => o.encode
  | projection p => p.encode
  | aggregation a => a.encode
  | criteria c => c.encode
  | table t => t.encode
  | relation r => r.encode
  | source s => s.encode
  | query q => q.encode
  | operand o => o.encode
  | set s => s.encode
  | assigned v => v.encode
  | assignment a => a.encode
  | change c => c.encode
  | statement s => s.encode

/-- The node of a kind that a document holds. -/
def Kind.decode (j : Json) : Kind → Reading Tree
  | field => do return .field (← Field.decode j)
  | expression => do return .expression (← Expression.decode j)
  | order => do return .order (← Order.decode j)
  | projection => do return .projection (← Projection.decode j)
  | aggregation => do return .aggregation (← Aggregation.decode j)
  | criteria => do return .criteria (← Criteria.decode j)
  | table => do return .table (← Table.decode j)
  | relation => do return .relation (← Relation.decode j)
  | source => do return .source (← Source.decode j)
  | query => do return .query (← Query.decode j)
  | operand => do return .operand (← SetOperand.decode j)
  | set => do return .set (← QuerySet.decode j)
  | assigned => do return .assigned (← AssignedValue.decode j)
  | assignment => do return .assignment (← Assignment.decode j)
  | change => do return .change (← Change.decode j)
  | statement => do return .statement (← Statement.decode j)

/-- A node is read back exactly if documents can hold its ingredients. -/
theorem recovers_decode (t : Tree) :
    (t.kind.decode t.encode).Recovers t (∀ i ∈ t.ingredients, i.Storable) := by
  cases t with
  | field f => exact f.restores_decode.recovers.map field
  | expression e => exact e.restores_decode.recovers.map expression
  | order o => exact o.restores_decode.recovers.map order
  | projection p => exact p.restores_decode.recovers.map projection
  | aggregation a => exact a.restores_decode.recovers.map aggregation
  | criteria c => exact c.restores_decode.recovers.map criteria
  | table t => exact t.restores_decode.recovers.map table
  | relation r => exact r.restores_decode.recovers.map relation
  | source s => exact s.restores_decode.recovers.map source
  | query q => exact q.restores_decode.recovers.map query
  | operand o => exact o.restores_decode.recovers.map operand
  | set s => exact s.restores_decode.recovers.map set
  | assigned v => exact v.restores_decode.recovers.map assigned
  | assignment a => exact a.restores_decode.recovers.map assignment
  | change c => exact c.restores_decode.recovers.map change
  | statement s => exact s.restores_decode.recovers.map statement

/-- Documents of every kind hold only nodes whose ingredients documents can hold. -/
theorem Kind.ensures_decode (k : Kind) (j : Json) :
    (k.decode j).Ensures fun t => ∀ i ∈ t.ingredients, i.Storable := by
  cases k with
  | field => exact (Field.ensures_decode j).bind fun f hf => .pure hf
  | expression => exact (Expression.ensures_decode j).bind fun e he => .pure he
  | order => exact (Order.ensures_decode j).bind fun o ho => .pure ho
  | projection => exact (Projection.ensures_decode j).bind fun p hp => .pure hp
  | aggregation => exact (Aggregation.ensures_decode j).bind fun a ha => .pure ha
  | criteria => exact (Criteria.ensures_decode j).bind fun c hc => .pure hc
  | table => exact (Table.ensures_decode j).bind fun t ht => .pure ht
  | relation => exact (Relation.ensures_decode j).bind fun r hr => .pure hr
  | source => exact (Source.ensures_decode j).bind fun s hs => .pure hs
  | query => exact (Query.ensures_decode j).bind fun q hq => .pure hq
  | operand => exact (SetOperand.ensures_decode j).bind fun o ho => .pure ho
  | set => exact (QuerySet.ensures_decode j).bind fun s hs => .pure hs
  | assigned => exact (AssignedValue.ensures_decode j).bind fun v hv => .pure hv
  | assignment => exact (Assignment.ensures_decode j).bind fun a ha => .pure ha
  | change => exact (Change.ensures_decode j).bind fun c hc => .pure hc
  | statement => exact (Statement.ensures_decode j).bind fun s hs => .pure hs

end Tree

end DialectSql
