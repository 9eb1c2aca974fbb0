import DialectSql.CommandLine
import DialectSql.Proofs.Document.Reader
import DialectSql.Proofs.Document.Statement

/-!
# Loading what was written

The text that is written for a statement is loaded as that statement if documents can hold it and
its document is not nested too deep; otherwise nothing is loaded. This needs floats that are read as
they were written, which is not so for every float. All other parts of a document always are.

## Main definitions

* `Ingredient.Legible` — the ingredients that are read as they were written

## Main results

* `Query.legible_encode`, `Statement.legible_encode`, … — the document of a tree is legible exactly
  if its ingredients are
* `Config.load?_compact`, `Statement.load?_compact` — what the text of a configuration and that of a
  statement are loaded as
* `Statement.load?_negations` — how often a condition of a statement that is loaded can be negated
-/

namespace DialectSql

namespace Json

/-! ## Layouts -/

@[simp] theorem legible_string (s : String) : (string s).Legible := .string s

@[simp] theorem legible_bool (b : Bool) : (bool b).Legible := .bool b

@[simp] theorem legible_named {α : Type} [Named α] (a : α) : (named a).Legible := .string _

@[simp] theorem legible_array {items : List Json} :
    (array items).Legible ↔ ∀ item ∈ items, item.Legible :=
  ⟨fun | .array h => h, .array⟩

theorem legible_object {members : List (String × Json)} :
    (object members).Legible ↔ ∀ m ∈ members, m.2.Legible :=
  ⟨fun | .object h => h, .object⟩

@[simp] theorem legible_tagged {tag : String} {body : Json} :
    (tagged tag body).Legible ↔ body.Legible := by
  simp [tagged, legible_object]

/-- The members of a record are legible if what is written under them is. -/
@[simp] theorem legible_record {members : List Member} :
    (record members).Legible ↔ ∀ m ∈ members, m.Forall Legible := by
  rw [record, legible_object]
  exact forall_filterMap (P := Legible)

@[simp] theorem legible_arrayUnlessEmpty {items : List Json} :
    (∀ x, arrayUnlessEmpty items = some x → x.Legible) ↔ ∀ item ∈ items, item.Legible := by
  cases items <;> simp [arrayUnlessEmpty]

/-! ## Scalars of statements -/

@[simp] theorem legible_int64 (n : Int64) : (int n.toInt).Legible :=
  .int n.minValue_le_toInt (Int.lt_trans n.toInt_lt (by decide))

@[simp] theorem legible_uint64 (n : UInt64) : (int n.toNat).Legible :=
  .int (Int.le_trans (by decide) (Int.natCast_nonneg _)) (Int.ofNat_lt.mpr n.toNat_lt_size)

@[simp] theorem legible_ofBytes (bytes : List UInt8) : (ofBytes bytes).Legible := by
  rw [ofBytes, legible_array, List.forall_mem_map]
  intro byte _
  rw [← byte.toNat_toUInt64]
  exact legible_uint64 _

end Json

/-! ## Configurations -/

namespace Config

theorem decode_encode (c : Config) : decode c.encode = .ok c := by
  have hpresent (key : String) {x : Json} (h : c.encode.find? key = some x) :
      ∃ hx, c.encode.present? key = .ok (some ⟨x, hx⟩) := by
    obtain ⟨hx, hmember⟩ := Json.exists_member? h
    exact ⟨hx, by rw [Json.present?, ← hmember]; rfl⟩
  obtain ⟨_, hbase⟩ := hpresent "parameter_prefix" (x := .string c.parameterBase) (by simp [encode])
  obtain ⟨_, hearliest⟩ := hpresent "datetime_min" (x := c.earliest.encode) (by simp [encode])
  obtain ⟨_, hlatest⟩ := hpresent "datetime_max" (x := c.latest.encode) (by simp [encode])
  simp [decode, hbase, hearliest, hlatest, Json.toText_string, pure, Except.pure]

/-- The text of a configuration is loaded as that configuration if statements can be written with
it; otherwise nothing is loaded. -/
theorem load?_compact (c : Config) :
    load? c.encode.compact = if c.validate.toBool then some c else none := by
  have hlegible : c.encode.Legible := by simp [encode, DateTime.encode]
  have hdepth : c.encode.depth ≤ Json.maxDepth := by
    have hle : c.encode.depth ≤ 0 + 1 := Json.depth_record_le.mpr (by simp)
    exact Nat.le_trans hle (by decide)
  rw [load?, (Json.ofText?_compact_eq_iff hlegible).mpr hdepth]
  simp only [Option.bind_eq_bind, Option.bind_some, decode_encode]
  rfl

end Config

/-! ## The documents of statements -/

/-- The ingredients that are read as they were written: all but floats always are. -/
def Ingredient.Legible : Ingredient → Prop
  | constant (.float x) => (Json.ofFloat x).Legible
  | _ => True

/-- What is written for a value is legible exactly if the value is. -/
theorem Value.legible_encode (v : Value) :
    v.encode.Legible ↔ (Ingredient.constant v).Legible := by
  cases v <;> simp [encode, Ingredient.Legible, Json.ofChar, DateTime.encode, Guid.encode,
    TimeSpan.encode]

theorem Field.legible_encode (f : Field) : f.encode.Legible := by
  simp [encode]

theorem Numeric.legible_encode (n : Numeric) :
    n.encode.Legible ↔ (Ingredient.constant n.toValue).Legible := by
  cases n <;> simp [encode, toValue, Ingredient.Legible]

namespace Expression

mutual

/-- What is written for an expression is legible exactly if its ingredients are. -/
theorem legible_encode : ∀ e : Expression, e.encode.Legible ↔ ∀ i ∈ e.ingredients, i.Legible
  | .constant v => by simp [encode, ingredients, v.legible_encode]
  | .field f type => by
    simp [encode, ingredients, Field.ingredients, f.legible_encode, Ingredient.Legible]
  | .arithmetic op left right | .comparison op left right | .logic op left right
  | .bitwise op left right => by
    simp [encode, ingredients, binaryRecord, legible_encode left, legible_encode right, or_imp,
      forall_and]
  | .unary op operand => by simp [encode, ingredients, legible_encode operand]
  | .like subject pattern mode => by
    simp [encode, ingredients, legible_encode subject, legible_encode pattern, or_imp, forall_and]
  | .membership op subject values => by
    simp [encode, ingredients, legible_encode subject, Value.legible_encode, or_imp, forall_and]
  | .call function args distinct => by
    simp [encode, ingredients, legible_encodeList args, forall_ingredientsList]
  | .wildcard source => by simp [encode, ingredients]

theorem legible_encodeList : ∀ es : List Expression,
    (∀ j ∈ encodeList es, j.Legible) ↔ ∀ e ∈ es, ∀ i ∈ e.ingredients, i.Legible
  | [] => by simp [encodeList]
  | e :: es => by
    rw [encodeList, List.forall_mem_cons, List.forall_mem_cons, legible_encode e,
      legible_encodeList es]

end

end Expression

theorem Order.legible_encode (o : Order) : o.encode.Legible ↔ ∀ i ∈ o.ingredients, i.Legible := by
  simp [encode, ingredients, o.expression.legible_encode]

theorem Projection.legible_encode (p : Projection) :
    p.encode.Legible ↔ ∀ i ∈ p.ingredients, i.Legible := by
  simp [encode, ingredients, p.expression.legible_encode]

theorem Aggregation.legible_encode (a : Aggregation) :
    a.encode.Legible ↔ ∀ i ∈ a.ingredients, i.Legible := by
  obtain ⟨function, argument⟩ := a
  cases argument <;> simp [encode, ingredients, Expression.legible_encode]

theorem Table.legible_encode (t : Table) : t.encode.Legible ↔ ∀ i ∈ t.ingredients, i.Legible := by
  rw [ingredients, List.forall_mem_flatMap]
  simp [encode, Order.legible_encode]

mutual

theorem Criteria.legible_encode : ∀ c : Criteria,
    c.encode.Legible ↔ ∀ i ∈ c.ingredients, i.Legible
  | .expression e => by simp [Criteria.encode, Criteria.ingredients, e.legible_encode]
  | .compound op children => by
    simp [Criteria.encode, Criteria.ingredients, Criteria.legible_encodeList children,
      Criteria.forall_ingredientsList, Ingredient.Legible]
  | .inSelect subject query op => by
    simp [Criteria.encode, Criteria.ingredients, subject.legible_encode,
      Query.legible_encode query, or_imp, forall_and]

theorem Criteria.legible_encodeList : ∀ cs : List Criteria,
    (∀ j ∈ Criteria.encodeList cs, j.Legible) ↔ ∀ c ∈ cs, ∀ i ∈ c.ingredients, i.Legible
  | [] => by simp [Criteria.encodeList]
  | c :: cs => by
    rw [Criteria.encodeList, List.forall_mem_cons, List.forall_mem_cons,
      Criteria.legible_encode c, Criteria.legible_encodeList cs]

theorem Criteria.legible_encodeOption : ∀ c? : Option Criteria,
    (∀ j, Criteria.encodeOption c? = some j → j.Legible) ↔
      ∀ c, c? = some c → ∀ i ∈ c.ingredients, i.Legible
  | none => by simp [Criteria.encodeOption]
  | some c => by simp [Criteria.encodeOption, Criteria.legible_encode c]

theorem Relation.legible_encode : ∀ r : Relation,
    r.encode.Legible ↔ ∀ i ∈ r.ingredients, i.Legible
  | .table t => by simp [Relation.encode, Relation.ingredients, t.legible_encode]
  | .select query alias? => by
    simp [Relation.encode, Relation.ingredients, Query.legible_encode query]
  | .set s alias? => by simp [Relation.encode, Relation.ingredients, QuerySet.legible_encode s]

theorem Source.legible_encode : ∀ s : Source, s.encode.Legible ↔ ∀ i ∈ s.ingredients, i.Legible
  | .single r => by simp [Source.encode, Source.ingredients, Relation.legible_encode r]
  | .joined kind left right on => by
    simp [Source.encode, Source.ingredients, Source.legible_encode left,
      Source.legible_encode right, Criteria.legible_encode on, or_imp, forall_and]

theorem Query.legible_encode : ∀ q : Query, q.encode.Legible ↔ ∀ i ∈ q.ingredients, i.Legible
  | ⟨source, criteria, selection, distinct, orders, skip, take, aggregation, groupBy, having⟩ => by
    rw [Query.forall_ingredients]
    simp [Query.encode, Source.legible_encode source, Criteria.legible_encodeOption criteria,
      Criteria.legible_encodeOption having, Projection.legible_encode, Order.legible_encode,
      Aggregation.legible_encode, Expression.legible_encode]

theorem SetOperand.legible_encode : ∀ o : SetOperand,
    o.encode.Legible ↔ ∀ i ∈ o.ingredients, i.Legible
  | .query q => by simp [SetOperand.encode, SetOperand.ingredients, Query.legible_encode q]
  | .set s => by simp [SetOperand.encode, SetOperand.ingredients, QuerySet.legible_encode s]

theorem QuerySet.legible_encode : ∀ s : QuerySet,
    s.encode.Legible ↔ ∀ i ∈ s.ingredients, i.Legible
  | ⟨operator, left, right, orders⟩ => by
    rw [QuerySet.forall_ingredients]
    simp [QuerySet.encode, SetOperand.legible_encode left, SetOperand.legible_encode right,
      Order.legible_encode]

end

theorem AssignedValue.legible_encode (v : AssignedValue) :
    v.encode.Legible ↔ ∀ i ∈ v.ingredients, i.Legible := by
  cases v <;> simp [encode, ingredients, constant?, Numeric.legible_encode,
    Expression.legible_encode, Ingredient.Legible, Json.ofChar, DateTime.encode, Guid.encode,
    TimeSpan.encode]

theorem Assignment.legible_encode (a : Assignment) :
    a.encode.Legible ↔ ∀ i ∈ a.ingredients, i.Legible := by
  rw [ingredients, List.forall_mem_append]
  simp [encode, Field.ingredients, Field.legible_encode, AssignedValue.legible_encode,
    Ingredient.Legible]

theorem Change.legible_encode (c : Change) :
    c.encode.Legible ↔ ∀ i ∈ c.ingredients, i.Legible := by
  rw [forall_ingredients]
  simp [encode, Source.legible_encode, Criteria.legible_encode, Assignment.legible_encode]

/-- The document of a statement is legible exactly if its ingredients are. -/
theorem Statement.legible_encode (s : Statement) :
    s.encode.Legible ↔ ∀ i ∈ s.ingredients, i.Legible := by
  cases s <;> simp [encode, ingredients, Query.legible_encode, QuerySet.legible_encode,
    Change.legible_encode]

/-! ## Statements -/

/-- The text of a statement is loaded as that statement if documents can hold it and its document
is not nested too deep; otherwise nothing is loaded. -/
theorem Statement.load?_compact {s : Statement} (h : ∀ i ∈ s.ingredients, i.Legible) :
    (s.Storable ∧ s.encode.depth ≤ Json.maxDepth → load? s.encode.compact = some s) ∧
      (¬(s.Storable ∧ s.encode.depth ≤ Json.maxDepth) → load? s.encode.compact = none) := by
  have hread := s.restores_decode Json.maxDepth
  have hload : load? s.encode.compact = (decode (s.encode.cut Json.maxDepth)).toOption := by
    rw [load?, Json.ofText?_compact (s.legible_encode.mpr h)]
    rfl
  rw [hload]
  refine ⟨fun hfits => ?_, fun hfits => ?_⟩
  · rw [hread.ok hfits]
    rfl
  · obtain ⟨e, he⟩ := hread.error hfits
    rw [he]
    rfl

/-! ### Nested conditions -/

/-- A condition that is negated `n` times. -/
def Expression.negations : (n : Nat) → Expression
  | 0 => .constant (.bool true)
  | n + 1 => .unary .not (negations n)

/-- The rows of a table under a condition that is negated `n` times. -/
def Statement.negations (n : Nat) : Statement :=
  .query ((Query.ofTable "accounts").filter (.expression (.negations n)))

/-- Every negation adds two levels, those of an alternative and of its record. -/
theorem Expression.depth_encode_negations (n : Nat) : (negations n).encode.depth = 2 * n + 2 := by
  induction n with
  | zero => rfl
  | succ n ih =>
    have hlevels (j : Json) : (Json.tagged "Unary" (.record [.of "op" (.named Unary.not),
        .of "operand" j])).depth = j.depth + 2 := by
      simp [Json.tagged, Json.record, Json.Member.of, Json.depth, Json.depthMembers, Json.named]
    rw [negations, encode, hlevels, ih]
    omega

theorem Statement.depth_encode_negations (n : Nat) :
    (negations n).encode.depth = 2 * n + 5 := by
  have hsource : (Source.ofTable "accounts").encode.depth = 3 := by rfl
  have hexpression := Expression.depth_encode_negations n
  simp only [negations, encode, Query.ofTable, Query.ofSource, Query.filter, Query.encode,
    Criteria.conjoin, Criteria.encodeOption, Criteria.encode, Json.tagged, Json.record,
    Json.Member.of, Json.Member.ifSome, Json.Member.unlessEmpty, Json.depth, Json.depthMembers]
  simp [Json.depth, Json.depthMembers, hsource, hexpression]

theorem Expression.ingredients_negations (n : Nat) :
    (negations n).ingredients = [.constant (.bool true)] := by
  induction n with
  | zero => rfl
  | succ n ih => exact ih

/-- Documents can hold a condition however often it is negated, but a statement whose condition is
negated more than 61 times is not loaded from its text. -/
theorem Statement.load?_negations (n : Nat) :
    load? (negations n).encode.compact = if n ≤ 61 then some (negations n) else none := by
  have hingredients : (negations n).ingredients = [.constant (.bool true)] := by
    simp [Statement.negations, ingredients, Query.ofTable, Query.ofSource, Query.filter,
      Criteria.conjoin, Query.ingredients, Source.ofTable, Table.ofName, Source.ingredients,
      Relation.ingredients, Table.ingredients, Criteria.ingredientsOption, Criteria.ingredients,
      Expression.ingredients_negations]
  have hstorable : (negations n).Storable := by
    simp [Storable, hingredients, Ingredient.Storable, Ingredient.WellFormed]
  have hlegible : ∀ i ∈ (negations n).ingredients, i.Legible := by
    simp [hingredients, Ingredient.Legible]
  have hdepth := depth_encode_negations n
  obtain ⟨hloaded, hrefused⟩ := load?_compact hlegible
  rw [Json.maxDepth, hdepth] at hloaded hrefused
  split
  · next hle => exact hloaded ⟨hstorable, by omega⟩
  · next hgt => exact hrefused fun hfits => hgt (by omega)

end DialectSql
