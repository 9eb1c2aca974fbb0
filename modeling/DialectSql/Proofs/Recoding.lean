import DialectSql.Rendering

/-!
# Recodings

A recoding replaces the constants of a statement by others that the writer of placeholders has no
right to tell apart: it keeps the variant of every value, NULL and the booleans, whether a datetime
is written at all, and which values are equal. This module replaces the constants of every kind of
tree, and shows that equality of expressions is kept.

## Main definitions

* `Recoding` — maps on values that keep what may be looked at
* `Expression.recode`, `Query.recode`, `Statement.recode`, … — a tree with other constants

## Main results

* `Expression.beq_recode` — recoded expressions are equal if the expressions are
-/

namespace DialectSql

/-- Whether two values are of one variant. -/
def Value.SameVariant : Value → Value → Prop
  | .null, .null => True
  | .bool _, .bool _ => True
  | .int _, .int _ => True
  | .uint _, .uint _ => True
  | .float _, .float _ => True
  | .char _, .char _ => True
  | .text _, .text _ => True
  | .dateTime _, .dateTime _ => True
  | .guid _, .guid _ => True
  | .timeSpan _, .timeSpan _ => True
  | .member _ _, .member _ _ => True
  | .blob _, .blob _ => True
  | _, _ => False

/-- A map on values that keeps what the writer of placeholders may look at. -/
structure Recoding (config : Config) where
  /-- The map. -/
  toFun : Value → Value
  /-- The variant is kept, and so is NULL. -/
  variant : ∀ v : Value, v.SameVariant (toFun v)
  /-- Booleans are kept. -/
  bool : ∀ b, toFun (.bool b) = .bool b
  /-- A datetime stays in the range of the configuration, or outside of it. -/
  inRange : ∀ t t', toFun (.dateTime t) = .dateTime t' → config.inRange t' = config.inRange t
  /-- Equality is kept and reflected. -/
  beq : ∀ a b, (toFun a == toFun b) = (a == b)

namespace Recoding

variable {config : Config} (f : Recoding config)

instance : CoeFun (Recoding config) fun _ => Value → Value := ⟨toFun⟩

@[simp] theorem isNull (v : Value) : (f v).isNull = v.isNull := by
  have h := f.variant v
  cases v <;> cases hv : f _ <;> simp_all [Value.SameVariant, Value.isNull]

@[simp] theorem bool? (v : Value) : (f v).bool? = v.bool? := by
  have h := f.variant v
  cases v with
  -- For a boolean the map is given; for the rest the variant decides.
  | bool b => rw [f.bool]
  | _ => cases hv : f _ <;> simp_all [Value.SameVariant, Value.bool?]

theorem text (t : String) : ∃ t', f (.text t) = .text t' := by
  have h := f.variant (.text t)
  cases hv : f (.text t) <;> simp_all [Value.SameVariant]

theorem dateTime (t : DateTime) : ∃ t', f (.dateTime t) = .dateTime t' := by
  have h := f.variant (.dateTime t)
  cases hv : f (.dateTime t) <;> simp_all [Value.SameVariant]

/-- Lists of values are equal if the recoded ones are. -/
theorem beq_map (xs ys : List Value) : (xs.map f == ys.map f) = (xs == ys) := by
  induction xs generalizing ys with
  | nil => cases ys <;> rfl
  | cons x xs ih =>
    cases ys with
    | nil => rfl
    | cons y ys =>
      rw [List.map_cons, List.map_cons, List.cons_beq_cons, List.cons_beq_cons, f.beq, ih]

/-- Texts written backwards, and every other value as it is. -/
def reversing (config : Config) : Recoding config where
  toFun
    | .text t => .text (String.ofList t.toList.reverse)
    | v => v
  variant v := by cases v <;> trivial
  bool _ := rfl
  inRange t t' h := by
    obtain rfl : t = t' := by simpa using h
    rfl
  beq a b := by
    cases a <;> cases b <;> try rfl
    next s t =>
      -- Only two texts are left, and a reversed text can be reversed again.
      have hreverse : String.ofList s.toList.reverse = String.ofList t.toList.reverse ↔ s = t := by
        rw [String.ofList_inj, List.reverse_inj, String.toList_inj]
      simp [BEq.beq, Value.beq, hreverse]

end Recoding

/-! ## Recoded trees -/

variable {config : Config} (f : Recoding config)

namespace Expression

mutual

/-- An expression with other constants. -/
def recode : Expression → Expression
  | constant v => constant (f v)
  | field g type => field g type
  | arithmetic op left right => arithmetic op left.recode right.recode
  | comparison op left right => comparison op left.recode right.recode
  | logic op left right => logic op left.recode right.recode
  | bitwise op left right => bitwise op left.recode right.recode
  | unary op operand => unary op operand.recode
  | like subject pattern mode => like subject.recode pattern.recode mode
  | membership op subject values => membership op subject.recode (values.map f)
  | call function args distinct => call function (recodeList args) distinct
  | wildcard source => wildcard source

/-- Expressions with other constants. -/
def recodeList : List Expression → List Expression
  | [] => []
  | e :: es => e.recode :: recodeList es

end

end Expression

/-- An order with other constants. -/
def Order.recode (o : Order) : Order := { o with expression := o.expression.recode f }

/-- A projected expression with other constants. -/
def Projection.recode (p : Projection) : Projection :=
  { p with expression := p.expression.recode f }

/-- An aggregate with other constants. -/
def Aggregation.recode (a : Aggregation) : Aggregation :=
  { a with argument := a.argument.map (·.recode f) }

/-- A table with other constants in its storing order. -/
def Table.recode (t : Table) : Table := { t with storingOrder := t.storingOrder.map (·.recode f) }

mutual

/-- A condition with other constants. -/
def Criteria.recode : Criteria → Criteria
  | .expression e => .expression (e.recode f)
  | .compound op children => .compound op (Criteria.recodeList children)
  | .inSelect subject query op => .inSelect (subject.recode f) query.recode op

/-- Conditions with other constants. -/
def Criteria.recodeList : List Criteria → List Criteria
  | [] => []
  | c :: cs => c.recode :: Criteria.recodeList cs

/-- An optional condition with other constants. -/
def Criteria.recodeOption : Option Criteria → Option Criteria
  | none => none
  | some c => some c.recode

/-- A relation with other constants. -/
def Relation.recode : Relation → Relation
  | .table t => .table (t.recode f)
  | .select query alias? => .select query.recode alias?
  | .set set alias? => .set set.recode alias?

/-- A source with other constants. -/
def Source.recode : Source → Source
  | .single r => .single r.recode
  | .joined kind left right on => .joined kind left.recode right.recode on.recode

/-- A query with other constants. The numbers of its limits are no constants. -/
def Query.recode : Query → Query
  | ⟨source, criteria, selection, distinct, orders, skip, take, aggregation, groupBy, having⟩ =>
    ⟨source.recode, Criteria.recodeOption criteria, selection.map (·.recode f), distinct,
      orders.map (·.recode f), skip, take, aggregation.map (·.recode f), groupBy.map (·.recode f),
      Criteria.recodeOption having⟩

/-- An operand with other constants. -/
def SetOperand.recode : SetOperand → SetOperand
  | .query q => .query q.recode
  | .set s => .set s.recode

/-- A set operation with other constants. -/
def QuerySet.recode : QuerySet → QuerySet
  | ⟨operator, left, right, orders⟩ =>
    ⟨operator, left.recode, right.recode, orders.map (·.recode f)⟩

end

section Clauses

variable (q : Query)

theorem Query.selection_recode : (q.recode f).selection = q.selection.map (·.recode f) := by
  cases q; rfl

theorem Query.distinct_recode : (q.recode f).distinct = q.distinct := by cases q; rfl

theorem Query.orders_recode : (q.recode f).orders = q.orders.map (·.recode f) := by cases q; rfl

theorem Query.skip_recode : (q.recode f).skip = q.skip := by cases q; rfl

theorem Query.take_recode : (q.recode f).take = q.take := by cases q; rfl

theorem Query.groupBy_recode : (q.recode f).groupBy = q.groupBy.map (·.recode f) := by cases q; rfl

theorem Query.aggregation_recode :
    (q.recode f).aggregation = q.aggregation.map (·.recode f) := by
  cases q; rfl

theorem QuerySet.orders_recode (s : QuerySet) :
    (s.recode f).orders = s.orders.map (·.recode f) := by
  cases s; rfl

end Clauses

/-- A number with another one of its kind in place of it. -/
def Numeric.recode (n : Numeric) : Numeric :=
  match f n.toValue with
  | .int n => .int n
  | .uint n => .uint n
  | .float x => .float x
  | _ => n

/-- What is assigned, with other constants. -/
def AssignedValue.recode : AssignedValue → AssignedValue
  | .bool b => .bool b
  | .char c => if let .char c := f (.char c) then .char c else .char c
  | .dateTime t => if let .dateTime t := f (.dateTime t) then .dateTime t else .dateTime t
  | .guid g => if let .guid g := f (.guid g) then .guid g else .guid g
  | .numeric n => .numeric (n.recode f)
  | .string s => if let .text s := f (.text s) then .string s else .string s
  | .timeSpan t => if let .timeSpan t := f (.timeSpan t) then .timeSpan t else .timeSpan t
  | .increment n => .increment (n.recode f)
  | .null => .null
  | .expression e => .expression (e.recode f)

/-- An assignment with other constants. -/
def Assignment.recode (a : Assignment) : Assignment := { a with value := a.value.recode f }

/-- A change with other constants. -/
def Change.recode (c : Change) : Change :=
  ⟨c.kind, c.source.recode f, Criteria.recodeOption f c.criteria, c.assignments.map (·.recode f)⟩

/-- A statement with other constants. -/
def Statement.recode : Statement → Statement
  | query q => query (q.recode f)
  | set s => set (s.recode f)
  | change c => change (c.recode f)

/-! ## Equality -/

namespace Expression

mutual

/-- Recoded expressions are equal if the expressions are. -/
theorem beq_recode : ∀ a b : Expression, (a.recode f).beq (b.recode f) = a.beq b
  | .constant v, b => by cases b <;> simp [recode, Expression.beq, f.beq]
  | .field g t, b => by cases b <;> simp [recode, Expression.beq]
  | .arithmetic op x y, b => by
    cases b <;> simp [recode, Expression.beq, beq_recode x, beq_recode y]
  | .comparison op x y, b => by
    cases b <;> simp [recode, Expression.beq, beq_recode x, beq_recode y]
  | .logic op x y, b => by
    cases b <;> simp [recode, Expression.beq, beq_recode x, beq_recode y]
  | .bitwise op x y, b => by
    cases b <;> simp [recode, Expression.beq, beq_recode x, beq_recode y]
  | .unary op x, b => by cases b <;> simp [recode, Expression.beq, beq_recode x]
  | .like x y mode, b => by
    cases b <;> simp [recode, Expression.beq, beq_recode x, beq_recode y]
  | .membership op x values, b => by
    cases b <;> simp [recode, Expression.beq, beq_recode x, f.beq_map]
  | .call function xs distinct, b => by
    cases b <;> simp [recode, Expression.beq, listBeq_recodeList xs]
  | .wildcard source, b => by cases b <;> simp [recode, Expression.beq]

/-- Recoded lists of expressions are equal if the lists are. -/
theorem listBeq_recodeList : ∀ xs ys : List Expression,
    Expression.listBeq (recodeList f xs) (recodeList f ys) = Expression.listBeq xs ys
  | [], ys => by cases ys <;> rfl
  | x :: xs, ys => by
    cases ys with
    | nil => rfl
    | cons y ys =>
      rw [recodeList, recodeList, Expression.listBeq, Expression.listBeq, beq_recode x,
        listBeq_recodeList xs]

end

/-- A column reference stays one. -/
@[simp] theorem field?_recode (e : Expression) : (e.recode f).field? = e.field? := by
  cases e <;> rfl

mutual

/-- References can be requalified before or after. -/
theorem requalify_recode (r : Requalification) :
    ∀ e : Expression, (e.recode f).requalify r = (e.requalify r).recode f
  | .constant _ | .field _ _ | .wildcard _ => rfl
  | .arithmetic _ x y | .comparison _ x y | .logic _ x y | .bitwise _ x y | .like x y _ => by
    simp only [recode, requalify, requalify_recode r x, requalify_recode r y]
  | .unary _ x | .membership _ x _ => by simp only [recode, requalify, requalify_recode r x]
  | .call _ xs _ => by simp only [recode, requalify, requalifyList_recodeList r xs]

/-- The references of a list can be requalified before or after. -/
theorem requalifyList_recodeList (r : Requalification) :
    ∀ es : List Expression, requalifyList r (recodeList f es) = recodeList f (requalifyList r es)
  | [] => rfl
  | e :: es => by
    simp only [recodeList, requalifyList, requalify_recode r e, requalifyList_recodeList r es]

end

end Expression

end DialectSql
