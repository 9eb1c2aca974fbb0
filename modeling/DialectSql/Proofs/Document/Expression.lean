import DialectSql.Document.Expression
import DialectSql.Proofs.Document.Value

/-!
# Documents of expressions read back

What was written for an expression, or for a clause made of expressions, is read as that expression
or clause if every ingredient of it can be held by documents and no level of its document is cut
off; otherwise reading it fails. Every expression that is read has no other ingredients.

## Main results

* `Expression.restores_decode`, `Order.restores_decode`, … — what was written is read back exactly
  if documents can hold it and it is not cut
* `Expression.ensures_decode`, `Order.ensures_decode`, … — documents hold nothing else
-/

namespace DialectSql

open Reading (Recovers Restores Ensures)

namespace Json

variable {j : Json} {key : String}

theorem flag_of_find? {b : Bool} (hj : j.isObject = true) (h : j.find? key = some (.bool b)) :
    j.flag key = .ok b := by
  obtain ⟨hx, hmember⟩ := exists_member? h
  simp [flag, present?, hj, hmember, toBool_bool]

end Json

namespace Expression

/-! ## What is read back -/

/-- The operator of a record is read back. -/
theorem operator_of_find? {α : Type} [Named α] (op : α) {j : Json}
    (h : j.find? "op" = some (.named op)) : operator j = .ok op := by
  obtain ⟨hx, hmember⟩ := Json.exists_member? h
  simp [operator, Json.require, hmember, Reading.ofOption]

/-- The operands of a record are its members. -/
theorem exists_operands {j left right : Json} (hleft : j.find? "left" = some left)
    (hright : j.find? "right" = some right) :
    ∃ hl hr, operands j = .ok (⟨left, hl⟩, ⟨right, hr⟩) := by
  obtain ⟨hl, hleft⟩ := Json.exists_member? hleft
  obtain ⟨hr, hright⟩ := Json.exists_member? hright
  refine ⟨hl, hr, ?_⟩
  rw [operands, Json.require, Json.require, hleft, hright]
  rfl

/-- Nothing is read from what is cut off. -/
theorem decode_unusable : ∃ e, decode .unusable = .error e := ⟨_, by rw [decode]; rfl⟩

/-- An operator between two operands is read back if both operands are. -/
theorem restores_operation {α : Type} [Named α] {tag : String} (op : α)
    (node : α → Expression → Expression → Expression) {left right : Expression}
    (hread : ∀ body, decode (.tagged tag body) = (do
      let op ← operator body
      let (⟨left, _⟩, ⟨right, _⟩) ← operands body
      return node op (← decode left) (← decode right)))
    (hl : Restores decode left.encode left (∀ i ∈ left.ingredients, i.Storable))
    (hr : Restores decode right.encode right (∀ i ∈ right.ingredients, i.Storable)) :
    Restores decode (.tagged tag (binaryRecord (.named op) left.encode right.encode))
      (node op left right) (∀ i ∈ left.ingredients ++ right.ingredients, i.Storable) := by
  refine .taggedRecord decode_unusable ⟨_, hread .unusable⟩ fun n => ?_
  rw [hread]
  refine .step (operator_of_find? op (by simp)) ?_
  have hleft : ((binaryRecord (.named op) left.encode right.encode).cut (n + 1)).find? "left" =
      some (left.encode.cut n) := by simp [binaryRecord]
  have hright : ((binaryRecord (.named op) left.encode right.encode).cut (n + 1)).find? "right" =
      some (right.encode.cut n) := by simp [binaryRecord]
  obtain ⟨_, _, hoperands⟩ := exists_operands hleft hright
  refine (Recovers.step hoperands ((hl n).bind ((hr n).map _))).congr ?_
  rw [List.forall_mem_append, and_and_and_comm]
  simp

theorem encodeList_eq_map (es : List Expression) : encodeList es = es.map encode := by
  induction es with
  | nil => rfl
  | cons e es ih => exact congrArg (e.encode :: ·) ih

mutual

/-- An expression is read back exactly if documents can hold its ingredients and are not cut. -/
theorem restores_decode : ∀ e : Expression,
    Restores decode e.encode e (∀ i ∈ e.ingredients, i.Storable)
  | .constant v => by
    rw [encode]
    refine .tagged decode_unusable fun n => ?_
    rw [decode]
    simp only [Json.variant_tagged, Json.content_some, Reading.ok_bind]
    exact ((v.restores_decode n).map _).congr (by simp [ingredients])
  | .field f type => by
    rw [encode]
    refine .taggedRecord decode_unusable ⟨_, by rw [decode]; rfl⟩ fun n => ?_
    rw [decode]
    simp only [Json.variant_tagged, Json.content_some, Reading.ok_bind]
    refine (Recovers.member (n := n) (q := True) (d := True) (by simp) f.restores_decode
      ?_).congr ?_
    · exact .optionalNamed rfl (by simp [Function.comp_def]) (.of_ok rfl ⟨trivial, trivial⟩)
    · simp [ingredients]
  | .arithmetic op left right => by
    rw [encode]
    exact restores_operation op arithmetic (fun _ => by rw [decode]; rfl) (restores_decode left)
      (restores_decode right)
  | .comparison op left right => by
    rw [encode]
    exact restores_operation op comparison (fun _ => by rw [decode]; rfl) (restores_decode left)
      (restores_decode right)
  | .logic op left right => by
    rw [encode]
    exact restores_operation op logic (fun _ => by rw [decode]; rfl) (restores_decode left)
      (restores_decode right)
  | .bitwise op left right => by
    rw [encode]
    exact restores_operation op bitwise (fun _ => by rw [decode]; rfl) (restores_decode left)
      (restores_decode right)
  | .unary op operand => by
    rw [encode]
    refine .taggedRecord decode_unusable ⟨_, by rw [decode]; rfl⟩ fun n => ?_
    rw [decode]
    simp only [Json.variant_tagged, Json.content_some, Reading.ok_bind]
    refine (Recovers.step (operator_of_find? op (by simp)) (.require (operand.encode.cut n)
      (by simp) fun _ => (restores_decode operand n).map _)).congr ?_
    simp [ingredients]
  | .like subject pattern mode => by
    rw [encode]
    refine .taggedRecord decode_unusable ⟨_, by rw [decode]; rfl⟩ fun n => ?_
    rw [decode]
    simp only [Json.variant_tagged, Json.content_some, Reading.ok_bind]
    refine .require (subject.encode.cut n) (by simp) fun _ => ?_
    refine .require (pattern.encode.cut n) (by simp) fun _ => ?_
    refine .presentNamed (a := mode) rfl (by simp) ?_
    refine ((restores_decode subject n).bind ((restores_decode pattern n).map _)).congr ?_
    rw [ingredients, List.forall_mem_append, and_and_and_comm]
    simp
  | .membership op subject values => by
    rw [encode]
    refine .taggedRecord decode_unusable ⟨_, by rw [decode]; rfl⟩ fun n => ?_
    rw [decode]
    simp only [Json.variant_tagged, Json.content_some, Reading.ok_bind]
    refine .step (operator_of_find? op (by simp)) ?_
    refine .require (subject.encode.cut n) (by simp) fun _ => ?_
    refine (Recovers.list (n := n) (by simp) (fun v _ => v.restores_decode)
      ((restores_decode subject n).map _)).congr ?_
    rw [ingredients, List.forall_mem_append, List.forall_mem_map, and_comm (b := ∀ v ∈ values, _)]
    simp [and_comm]
  | .call function args distinct => by
    rw [encode, encodeList_eq_map]
    refine .taggedRecord decode_unusable ⟨_, by rw [decode]; rfl⟩ fun n => ?_
    rw [decode]
    simp only [Json.variant_tagged, Json.content_some, Reading.ok_bind]
    refine .scalar (by simp) (Json.toNamed_named function) ?_
    refine (Recovers.list (n := n) (q := True) (d := True) (by simp) (restores_decode_of_mem args)
      ?_).congr ?_
    · exact .step (Json.flag_of_find? (b := distinct) rfl (by simp)) (.of_ok rfl ⟨trivial, trivial⟩)
    · simp [ingredients, forall_ingredientsList]
  | .wildcard source => by
    rw [encode]
    refine .taggedRecord decode_unusable ⟨_, by rw [decode]; rfl⟩ fun n => ?_
    rw [decode]
    simp only [Json.variant_tagged, Json.content_some, Reading.ok_bind]
    refine .step (Json.optionalText_of_find? rfl (by simp [Function.comp_def])) (.of_ok rfl ?_)
    simp [ingredients]

theorem restores_decode_of_mem : ∀ es : List Expression, ∀ e ∈ es,
    Restores decode e.encode e (∀ i ∈ e.ingredients, i.Storable)
  | [] => by simp
  | e :: es => List.forall_mem_cons.mpr ⟨restores_decode e, restores_decode_of_mem es⟩

end

/-! ## What is ensured -/

/-- Documents of expressions hold only ingredients that documents can hold. -/
theorem ensures_decode (j : Json) :
    (decode j).Ensures fun e => ∀ i ∈ e.ingredients, i.Storable := by
  have happend {left right : Expression} (hl : ∀ i ∈ left.ingredients, i.Storable)
      (hr : ∀ i ∈ right.ingredients, i.Storable) :
      ∀ i ∈ left.ingredients ++ right.ingredients, i.Storable :=
    List.forall_mem_append.mpr ⟨hl, hr⟩
  rw [decode]
  refine .step fun alternative => ?_
  split
  case h_1 =>
    refine .step fun body => (Value.ensures_decode body).bind fun v hv => .pure ?_
    simpa [ingredients] using hv
  case h_2 =>
    exact .step fun body => .step fun part => (Field.ensures_decode part).bind fun f hf =>
      .step fun _ => .step fun _ => .pure hf
  case h_7 =>
    exact .step fun ⟨body, _⟩ => .step fun _ => .step fun ⟨operand, _⟩ =>
      (ensures_decode operand).bind fun e he => .pure he
  case h_8 =>
    exact .step fun ⟨body, _⟩ => .step fun ⟨subject, _⟩ => .step fun ⟨pattern, _⟩ =>
      .step fun _ => .step fun _ => (ensures_decode subject).bind fun s hs =>
        (ensures_decode pattern).bind fun p hp => .pure (happend hs hp)
  case h_9 =>
    refine .step fun ⟨body, _⟩ => .step fun _ => .step fun ⟨subject, _⟩ => .step fun parts => ?_
    refine (Ensures.mapM fun (part : body.Part) _ => Value.ensures_decode part.val).bind
      fun values hvalues => ?_
    refine (ensures_decode subject).bind fun s hs => .pure ?_
    rw [ingredients, List.forall_mem_append, List.forall_mem_map]
    exact ⟨hs, hvalues⟩
  case h_10 =>
    refine .step fun ⟨body, _⟩ => .step fun _ => .step fun _ => .step fun parts => ?_
    refine (Ensures.mapM fun (part : body.Part) _ => ensures_decode part.val).bind
      fun args hargs => ?_
    exact .step fun distinct => .pure (forall_ingredientsList.mpr hargs)
  case h_11 => exact .step fun body => .step fun source => .pure (by simp [ingredients])
  case h_12 => exact .throw _
  all_goals
    exact .step fun ⟨body, _⟩ => .step fun _ => .step fun (⟨left, _⟩, ⟨right, _⟩) =>
      (ensures_decode left).bind fun l hl => (ensures_decode right).bind fun r hr =>
        .pure (happend hl hr)
termination_by j

end Expression

/-! ## Clauses made of expressions -/

/-- An order is read back exactly if documents can hold its ingredients and are not cut. -/
theorem Order.restores_decode (o : Order) :
    Restores decode o.encode o (∀ i ∈ o.ingredients, i.Storable) := by
  refine .record ⟨_, rfl⟩ fun n => ?_
  refine (Recovers.member (n := n) (q := True) (d := True) (by simp) o.expression.restores_decode
    ?_).congr ?_
  · exact .presentNamed (a := o.direction) rfl (by simp) (.of_ok rfl ⟨trivial, trivial⟩)
  · simp [ingredients]

/-- A projected expression is read back exactly if documents can hold its ingredients and are not
cut. -/
theorem Projection.restores_decode (p : Projection) :
    Restores decode p.encode p (∀ i ∈ p.ingredients, i.Storable) := by
  refine .record ⟨_, rfl⟩ fun n => ?_
  have halias : (p.encode.cut (n + 1)).optionalText "alias" = .ok p.alias? :=
    Json.optionalText_of_find? rfl (by simp [encode, Function.comp_def])
  refine (Recovers.member (n := n) (q := True) (d := True) (by simp) p.expression.restores_decode
    ?_).congr ?_
  · exact .step halias (.of_ok rfl ⟨trivial, trivial⟩)
  · simp [ingredients]

/-- What is written for an expression is not null. -/
theorem Expression.encode_ne_null (e : Expression) : e.encode ≠ .null := by
  cases e <;> simp [encode, Json.tagged]

/-- An aggregate is read back exactly if documents can hold its ingredients and are not cut. -/
theorem Aggregation.restores_decode (a : Aggregation) :
    Restores decode a.encode a (∀ i ∈ a.ingredients, i.Storable) := by
  obtain ⟨function, argument⟩ := a
  refine .record ⟨_, rfl⟩ fun n => ?_
  refine .scalar (by simp) (Json.toNamed_named function) ?_
  refine (Recovers.optional (n := n) (q := True) (d := True) argument rfl
    (by simp [Function.comp_def]) Expression.encode_ne_null (fun e _ => e.restores_decode)
    ?_).congr ?_
  · exact .of_ok rfl ⟨trivial, trivial⟩
  · cases argument <;> simp [ingredients]

/-- Documents of orders hold only ingredients that documents can hold. -/
theorem Order.ensures_decode (j : Json) :
    (decode j).Ensures fun o => ∀ i ∈ o.ingredients, i.Storable :=
  .step fun part => (Expression.ensures_decode part.val).bind fun _ he =>
    .step fun _ => .step fun _ => .pure he

/-- Documents of projected expressions hold only ingredients that documents can hold. -/
theorem Projection.ensures_decode (j : Json) :
    (decode j).Ensures fun p => ∀ i ∈ p.ingredients, i.Storable :=
  .step fun part => (Expression.ensures_decode part.val).bind fun _ he => .step fun _ => .pure he

/-- Documents of aggregates hold only ingredients that documents can hold. -/
theorem Aggregation.ensures_decode (j : Json) :
    (decode j).Ensures fun a => ∀ i ∈ a.ingredients, i.Storable := by
  refine .step fun _ => .step fun function => .step fun part? => ?_
  refine (Ensures.option fun (part : j.Part) _ => Expression.ensures_decode part.val).bind
    fun argument hargument => .pure ?_
  cases argument with
  | none => simp [ingredients]
  | some e => exact hargument e rfl

end DialectSql
