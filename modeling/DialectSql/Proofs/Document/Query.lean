import DialectSql.Document.Query
import DialectSql.Proofs.Document.Expression

/-!
# Documents of queries read back

What was written for a query, a source, a condition or a set operation is read as the same tree if
every ingredient of it can be held by documents, subqueries included, and no level of its document
is cut off; otherwise reading it fails. A compound condition is refused where its number of children
is against the rules. Every tree that is read has no other ingredients.

## Main results

* `Criteria.restores_decode`, `Source.restores_decode`, `Query.restores_decode`,
  `QuerySet.restores_decode` — what was written is read back exactly if documents can hold it and
  it is not cut
* `Criteria.ensures_decode`, `Source.ensures_decode`, `Query.ensures_decode`,
  `QuerySet.ensures_decode` — documents hold nothing else
-/

namespace DialectSql

open Reading (Recovers Restores Ensures)
open Ingredient (Storable)

/-- A number of rows is read back, whether or not it was written. -/
theorem Json.optionalCount_of_find? {j : Json} {key : String} {count? : Option UInt64}
    (hj : j.isObject = true) (h : j.find? key = count?.map fun n => .int n.toNat) :
    j.optionalCount key = .ok count? := by
  cases count? with
  | none => simp [optionalCount, optional?, hj, member?_eq_none h, pure, Except.pure]
  | some n =>
    obtain ⟨hx, hmember⟩ := exists_member? h
    simp only [optionalCount, optional?, hj, if_true, hmember, Reading.ok_bind, toUInt64_int]
    rfl

/-! ## Tables -/

/-- A table is read back exactly if documents can hold the ingredients of its storing order and are
not cut. -/
theorem Table.restores_decode (t : Table) :
    Restores decode t.encode t (∀ i ∈ t.ingredients, i.Storable) := by
  refine .record ⟨_, rfl⟩ fun n => ?_
  have halias : (t.encode.cut (n + 1)).optionalText "alias" = .ok t.alias? :=
    Json.optionalText_of_find? rfl (by simp [encode, Function.comp_def])
  refine .scalar (by simp) (Json.toText_string t.name) (.step halias ?_)
  refine (Recovers.optionalList (n := n) (q := True) (d := True) t.storingOrder rfl
    (by simp) (fun o _ => o.restores_decode) ?_).congr ?_
  · exact .of_ok rfl ⟨trivial, trivial⟩
  · rw [ingredients, List.forall_mem_flatMap]
    simp

/-- Documents of tables hold only ingredients that documents can hold. -/
theorem Table.ensures_decode (j : Json) :
    (decode j).Ensures fun t => ∀ i ∈ t.ingredients, i.Storable := by
  refine .step fun _ => .step fun name => .step fun alias? => .step fun parts => ?_
  refine (Ensures.mapM fun (part : j.Part) _ => Order.ensures_decode part.val).bind
    fun orders horders => .pure ?_
  rw [ingredients, List.forall_mem_flatMap]
  exact horders

/-! ## What is read back -/

theorem Criteria.encodeList_eq_map (cs : List Criteria) : encodeList cs = cs.map encode := by
  induction cs with
  | nil => rfl
  | cons c cs ih => exact congrArg (c.encode :: ·) ih

theorem Criteria.encodeOption_eq_map (c? : Option Criteria) : encodeOption c? = c?.map encode := by
  cases c? <;> rfl

theorem Criteria.encode_ne_null (c : Criteria) : c.encode ≠ .null := by
  cases c <;> simp [encode, Json.tagged]

/-- A compound condition is made again if the number of its children is within the rules. -/
theorem Criteria.recovers_ofChildren (op : Connective) (children : List Criteria) :
    (Reading.checked (ofChildren op children)).Recovers (.compound op children)
      (Ingredient.compound op children.length).Storable := by
  have hrule : (Ingredient.compound op children.length).Storable ↔
      op.allows children.length = true := Ingredient.wellFormed_compound_iff
  refine Recovers.congr ?_ hrule.symm
  by_cases h : op.allows children.length = true
  · exact .of_ok (by simp [ofChildren, h, Reading.checked]) h
  · exact .of_error (e := .rejected (.malformed (.childCount op children.length)))
      (by simp [ofChildren, h, Reading.checked]) h

/-- Where a document of which `n` levels can be used inside holds the clauses of a query. -/
structure Query.Members (j : Json) (n : Nat) (q : Query) : Prop where
  isObject : j.isObject = true
  source : j.find? "source" = some (q.source.encode.cut n)
  criteria : j.find? "criteria" = q.criteria.map fun c => c.encode.cut n
  selection : j.find? "selection" =
    (Json.arrayUnlessEmpty (q.selection.map Projection.encode)).map (·.cut n)
  distinct : j.find? "distinct" = some (.bool q.distinct)
  orders : j.find? "orders" = (Json.arrayUnlessEmpty (q.orders.map Order.encode)).map (·.cut n)
  skip : j.find? "skip" = q.skip.map fun n => .int n.toNat
  take : j.find? "take" = q.take.map fun n => .int n.toNat
  aggregation : j.find? "aggregation" = q.aggregation.map fun a => a.encode.cut n
  groupBy : j.find? "group_by" =
    (Json.arrayUnlessEmpty (q.groupBy.map Expression.encode)).map (·.cut n)
  having : j.find? "having" = q.having.map fun c => c.encode.cut n

theorem Query.members_encode (q : Query) (n : Nat) : Members (q.encode.cut (n + 1)) n q := by
  obtain ⟨source, criteria, selection, distinct, orders, skip, take, aggregation, groupBy,
    having⟩ := q
  constructor <;> simp [encode, Criteria.encodeOption_eq_map, Function.comp_def]

/-- The levels of the document of a query. -/
theorem Query.depth_encode_le {q : Query} {n : Nat} : q.encode.depth ≤ n + 1 ↔
    q.source.encode.depth ≤ n ∧ (∀ c ∈ q.criteria, c.encode.depth ≤ n) ∧
    (∀ x ∈ Json.arrayUnlessEmpty (q.selection.map Projection.encode), x.depth ≤ n) ∧
    (∀ x ∈ Json.arrayUnlessEmpty (q.orders.map Order.encode), x.depth ≤ n) ∧
    (∀ a ∈ q.aggregation, a.encode.depth ≤ n) ∧
    (∀ x ∈ Json.arrayUnlessEmpty (q.groupBy.map Expression.encode), x.depth ≤ n) ∧
    ∀ c ∈ q.having, c.encode.depth ≤ n := by
  obtain ⟨source, criteria, selection, distinct, orders, skip, take, aggregation, groupBy,
    having⟩ := q
  rw [encode, Json.depth_record_le]
  simp [Criteria.encodeOption_eq_map]

/-! ### Nothing is read from what is cut off -/

theorem Criteria.decode_unusable : ∃ e, Criteria.decode .unusable = .error e :=
  ⟨_, by rw [Criteria.decode]; rfl⟩

theorem Relation.decode_unusable : ∃ e, Relation.decode .unusable = .error e :=
  ⟨_, by rw [Relation.decode]; rfl⟩

theorem Source.decode_unusable : ∃ e, Source.decode .unusable = .error e :=
  ⟨_, by rw [Source.decode]; rfl⟩

theorem SetOperand.decode_unusable : ∃ e, SetOperand.decode .unusable = .error e :=
  ⟨_, by rw [SetOperand.decode]; rfl⟩

mutual

theorem Criteria.restores_decode : ∀ c : Criteria,
    Restores Criteria.decode c.encode c (∀ i ∈ c.ingredients, i.Storable)
  | .expression e => by
    rw [Criteria.encode]
    refine .tagged Criteria.decode_unusable fun n => ?_
    rw [Criteria.decode]
    simp only [Json.variant_tagged, Json.content_some, Reading.ok_bind]
    exact (e.restores_decode n).map _
  | .compound op children => by
    rw [Criteria.encode, Criteria.encodeList_eq_map]
    refine .taggedRecord Criteria.decode_unusable ⟨_, by rw [Criteria.decode]; rfl⟩ fun n => ?_
    rw [Criteria.decode]
    simp only [Json.variant_tagged, Json.content_some, Reading.ok_bind]
    refine .scalar (by simp) (Json.toNamed_named op) ?_
    refine (Recovers.list (n := n) (d := True) (by simp) (Criteria.restores_decode_of_mem children)
      ((Criteria.recovers_ofChildren op children).congr (and_iff_left trivial).symm)).congr ?_
    rw [Criteria.ingredients, List.forall_mem_cons, Criteria.forall_ingredientsList,
      and_comm (b := (Ingredient.compound op children.length).Storable)]
    simp
  | .inSelect subject query op => by
    rw [Criteria.encode]
    refine .taggedRecord Criteria.decode_unusable ⟨_, by rw [Criteria.decode]; rfl⟩ fun n => ?_
    rw [Criteria.decode]
    simp only [Json.variant_tagged, Json.content_some, Reading.ok_bind]
    refine (Recovers.member (n := n) (by simp) subject.restores_decode
      (.require (query.encode.cut n) (by simp) fun _ => .scalar (by simp) (Json.toNamed_named op)
        ((Query.restores_decode query n).map _))).congr ?_
    rw [Criteria.ingredients, List.forall_mem_append]
    simp

theorem Criteria.restores_decode_of_mem : ∀ cs : List Criteria, ∀ c ∈ cs,
    Restores Criteria.decode c.encode c (∀ i ∈ c.ingredients, i.Storable)
  | [] => by simp
  | c :: cs =>
    List.forall_mem_cons.mpr ⟨Criteria.restores_decode c, Criteria.restores_decode_of_mem cs⟩

theorem Criteria.restores_decode_of_mem_option : ∀ c? : Option Criteria, ∀ c ∈ c?,
    Restores Criteria.decode c.encode c (∀ i ∈ c.ingredients, i.Storable)
  | none => by simp
  | some c => fun _ h => Option.some.inj h ▸ Criteria.restores_decode c

theorem Relation.restores_decode : ∀ r : Relation,
    Restores Relation.decode r.encode r (∀ i ∈ r.ingredients, i.Storable)
  | .table t => by
    rw [Relation.encode]
    refine .tagged Relation.decode_unusable fun n => ?_
    rw [Relation.decode]
    simp only [Json.variant_tagged, Json.content_some, Reading.ok_bind]
    exact (t.restores_decode n).map _
  | .select query alias? => by
    rw [Relation.encode]
    refine .taggedRecord Relation.decode_unusable ⟨_, by rw [Relation.decode]; rfl⟩ fun n => ?_
    rw [Relation.decode]
    simp only [Json.variant_tagged, Json.content_some, Reading.ok_bind]
    refine .require (query.encode.cut n) (by simp) fun _ => ?_
    refine ((Query.restores_decode query n).bind (q := True) ?_).congr ?_
    · have halias : (((Json.record [.of "query" query.encode, .ifSome "alias" .string alias?]).cut
          (n + 1)).optionalText "alias") = .ok alias? :=
        Json.optionalText_of_find? rfl (by simp [Function.comp_def])
      exact .step halias (.of_ok rfl trivial)
    · simp [Relation.ingredients]
  | .set s alias? => by
    rw [Relation.encode]
    refine .taggedRecord Relation.decode_unusable ⟨_, by rw [Relation.decode]; rfl⟩ fun n => ?_
    rw [Relation.decode]
    simp only [Json.variant_tagged, Json.content_some, Reading.ok_bind]
    refine .require (s.encode.cut n) (by simp) fun _ => ?_
    refine ((QuerySet.restores_decode s n).bind (q := True) ?_).congr ?_
    · have halias : (((Json.record [.of "set" s.encode, .ifSome "alias" .string alias?]).cut
          (n + 1)).optionalText "alias") = .ok alias? :=
        Json.optionalText_of_find? rfl (by simp [Function.comp_def])
      exact .step halias (.of_ok rfl trivial)
    · simp [Relation.ingredients]

theorem Source.restores_decode : ∀ s : Source,
    Restores Source.decode s.encode s (∀ i ∈ s.ingredients, i.Storable)
  | .single r => by
    rw [Source.encode]
    refine .tagged Source.decode_unusable fun n => ?_
    rw [Source.decode]
    simp only [Json.variant_tagged, Json.content_some, Reading.ok_bind]
    exact (Relation.restores_decode r n).map _
  | .joined kind left right on => by
    rw [Source.encode]
    refine .taggedRecord Source.decode_unusable ⟨_, by rw [Source.decode]; rfl⟩ fun n => ?_
    rw [Source.decode]
    simp only [Json.variant_tagged, Json.content_some, Reading.ok_bind]
    refine .scalar (by simp) (Json.toNamed_named kind) ?_
    refine .require (left.encode.cut n) (by simp) fun _ => ?_
    refine .require (right.encode.cut n) (by simp) fun _ => ?_
    refine .require (on.encode.cut n) (by simp) fun _ => ?_
    refine ((Source.restores_decode left n).bind ((Source.restores_decode right n).bind
      ((Criteria.restores_decode on n).map _))).congr ?_
    rw [Source.ingredients, List.forall_mem_append, List.forall_mem_append]
    simp only [List.mem_cons, List.not_mem_nil, or_false, forall_eq_or_imp, forall_eq,
      Json.Member.forall_of, Json.depth_named, Nat.zero_le, true_and]
    grind

theorem Query.restores_decode : ∀ q : Query,
    Restores Query.decode q.encode q (∀ i ∈ q.ingredients, i.Storable)
  | ⟨source, criteria, selection, distinct, orders, skip, take, aggregation, groupBy, having⟩,
      0 => by
    rw [Query.encode]
    exact .of_error (by rw [Json.record, Json.cut, Query.decode]; rfl)
      (by simp [Json.record, Json.depth])
  | ⟨source, criteria, selection, distinct, orders, skip, take, aggregation, groupBy, having⟩,
      n + 1 => by
    have hmembers := Query.members_encode ⟨source, criteria, selection, distinct, orders, skip,
      take, aggregation, groupBy, having⟩ n
    generalize (Query.encode ⟨source, criteria, selection, distinct, orders, skip, take,
      aggregation, groupBy, having⟩).cut (n + 1) = j at hmembers
    rw [Query.decode]
    -- The conditions of the clauses in the order in which these are read.
    refine Recovers.congr (p := ((∀ i ∈ source.ingredients, i.Storable) ∧
      (∀ c ∈ criteria, ∀ i ∈ c.ingredients, i.Storable) ∧
      (∀ p ∈ selection, ∀ i ∈ p.ingredients, i.Storable) ∧
      (∀ o ∈ orders, ∀ i ∈ o.ingredients, i.Storable) ∧
      (∀ a ∈ aggregation, ∀ i ∈ a.ingredients, i.Storable) ∧
      (∀ e ∈ groupBy, ∀ i ∈ e.ingredients, i.Storable) ∧
      (∀ c ∈ having, ∀ i ∈ c.ingredients, i.Storable) ∧ True) ∧
      source.encode.depth ≤ n ∧ (∀ c ∈ criteria, c.encode.depth ≤ n) ∧
      (∀ x ∈ Json.arrayUnlessEmpty (selection.map Projection.encode), x.depth ≤ n) ∧
      (∀ x ∈ Json.arrayUnlessEmpty (orders.map Order.encode), x.depth ≤ n) ∧
      (∀ a ∈ aggregation, a.encode.depth ≤ n) ∧
      (∀ x ∈ Json.arrayUnlessEmpty (groupBy.map Expression.encode), x.depth ≤ n) ∧
      (∀ c ∈ having, c.encode.depth ≤ n) ∧ True) ?_ ?_
    · refine .member hmembers.source (Source.restores_decode source) ?_
      refine .optional _ hmembers.isObject hmembers.criteria Criteria.encode_ne_null
        (Criteria.restores_decode_of_mem_option criteria) ?_
      refine .optionalList _ hmembers.isObject hmembers.selection (fun p _ => p.restores_decode) ?_
      refine .step (Json.flag_of_find? hmembers.isObject hmembers.distinct) ?_
      refine .optionalList _ hmembers.isObject hmembers.orders (fun o _ => o.restores_decode) ?_
      refine .step (Json.optionalCount_of_find? hmembers.isObject hmembers.skip) ?_
      refine .step (Json.optionalCount_of_find? hmembers.isObject hmembers.take) ?_
      refine .optional _ hmembers.isObject hmembers.aggregation (fun _ => nofun)
        (fun a _ => a.restores_decode) ?_
      refine .optionalList _ hmembers.isObject hmembers.groupBy (fun e _ => e.restores_decode) ?_
      refine .optional _ hmembers.isObject hmembers.having Criteria.encode_ne_null
        (Criteria.restores_decode_of_mem_option having) ?_
      exact .of_ok rfl ⟨trivial, trivial⟩
    · rw [Query.forall_ingredients, Query.depth_encode_le, and_true, and_true]

theorem SetOperand.restores_decode : ∀ o : SetOperand,
    Restores SetOperand.decode o.encode o (∀ i ∈ o.ingredients, i.Storable)
  | .query q => by
    rw [SetOperand.encode]
    refine .tagged SetOperand.decode_unusable fun n => ?_
    rw [SetOperand.decode]
    simp only [Json.variant_tagged, Json.content_some, Reading.ok_bind]
    exact (Query.restores_decode q n).map _
  | .set s => by
    rw [SetOperand.encode]
    refine .tagged SetOperand.decode_unusable fun n => ?_
    rw [SetOperand.decode]
    simp only [Json.variant_tagged, Json.content_some, Reading.ok_bind]
    exact (QuerySet.restores_decode s n).map _

theorem QuerySet.restores_decode : ∀ s : QuerySet,
    Restores QuerySet.decode s.encode s (∀ i ∈ s.ingredients, i.Storable)
  | ⟨operator, left, right, orders⟩ => by
    rw [QuerySet.encode]
    refine .record ⟨_, by rw [QuerySet.decode]; rfl⟩ fun n => ?_
    rw [QuerySet.decode]
    refine .scalar (by simp) (Json.toNamed_named operator) ?_
    refine .require (left.encode.cut n) (by simp) fun _ => ?_
    refine .require (right.encode.cut n) (by simp) fun _ => ?_
    refine ((SetOperand.restores_decode left n).bind ((SetOperand.restores_decode right n).bind
      (.optionalList (n := n) (q := True) (d := True) orders rfl (by simp)
        (fun o _ => o.restores_decode) ?_))).congr ?_
    · exact .of_ok rfl ⟨trivial, trivial⟩
    · rw [QuerySet.forall_ingredients]
      simp only [Option.mem_def, List.mem_cons, List.not_mem_nil, or_false, forall_eq_or_imp,
        forall_eq, Json.Member.forall_of, Json.Member.forall_unlessEmpty, Json.depth_named,
        Nat.zero_le, true_and, and_true]
      grind

end

/-! ## What is ensured -/

/-- A compound condition that is made with a check has a number of children within the rules. -/
theorem Criteria.ensures_ofChildren (op : Connective) {children : List Criteria}
    (h : ∀ c ∈ children, ∀ i ∈ c.ingredients, i.Storable) :
    (Reading.checked (ofChildren op children)).Ensures fun c =>
      ∀ i ∈ c.ingredients, i.Storable := by
  unfold ofChildren
  split
  · next hallows =>
    refine .pure ?_
    rw [ingredients, List.forall_mem_cons]
    exact ⟨Ingredient.wellFormed_compound_iff.mpr hallows, forall_ingredientsList.mpr h⟩
  · exact .throw _

mutual

theorem Criteria.ensures_decode (j : Json) :
    (Criteria.decode j).Ensures fun c => ∀ i ∈ c.ingredients, i.Storable := by
  rw [Criteria.decode]
  refine .step fun alternative => ?_
  split
  · exact .step fun body => (Expression.ensures_decode body.val).bind fun e he => .pure he
  · refine .step fun ⟨body, _⟩ => .step fun _ => .step fun op => .step fun parts => ?_
    exact (Ensures.mapM fun (part : body.Part) _ => Criteria.ensures_decode part.val).bind
      fun children hchildren => Criteria.ensures_ofChildren op hchildren
  · refine .step fun ⟨body, _⟩ => .step fun part => ?_
    refine (Expression.ensures_decode part.val).bind fun subject hsubject => ?_
    refine .step fun ⟨query, _⟩ => .step fun _ => .step fun op => ?_
    refine (Query.ensures_decode query).bind fun q hq => .pure ?_
    rw [Criteria.ingredients, List.forall_mem_append]
    exact ⟨hsubject, hq⟩
  · exact .throw _
termination_by sizeOf j

theorem Relation.ensures_decode (j : Json) :
    (Relation.decode j).Ensures fun r => ∀ i ∈ r.ingredients, i.Storable := by
  rw [Relation.decode]
  refine .step fun alternative => ?_
  split
  · exact .step fun body => (Table.ensures_decode body.val).bind fun t ht => .pure ht
  · exact .step fun ⟨body, _⟩ => .step fun ⟨query, _⟩ =>
      (Query.ensures_decode query).bind fun q hq => .step fun _ => .pure hq
  · exact .step fun ⟨body, _⟩ => .step fun ⟨set, _⟩ =>
      (QuerySet.ensures_decode set).bind fun s hs => .step fun _ => .pure hs
  · exact .throw _
termination_by sizeOf j

theorem Source.ensures_decode (j : Json) :
    (Source.decode j).Ensures fun s => ∀ i ∈ s.ingredients, i.Storable := by
  rw [Source.decode]
  refine .step fun alternative => ?_
  split
  · exact .step fun ⟨body, _⟩ => (Relation.ensures_decode body).bind fun r hr => .pure hr
  · refine .step fun ⟨body, _⟩ => .step fun _ => .step fun kind => ?_
    refine .step fun ⟨left, _⟩ => .step fun ⟨right, _⟩ => .step fun ⟨on, _⟩ => ?_
    refine (Source.ensures_decode left).bind fun l hl => ?_
    refine (Source.ensures_decode right).bind fun r hr => ?_
    refine (Criteria.ensures_decode on).bind fun c hc => .pure ?_
    rw [Source.ingredients, List.forall_mem_append, List.forall_mem_append]
    exact ⟨⟨hl, hr⟩, hc⟩
  · exact .throw _
termination_by sizeOf j

theorem Query.ensures_decode (j : Json) :
    (Query.decode j).Ensures fun q => ∀ i ∈ q.ingredients, i.Storable := by
  rw [Query.decode]
  refine .step fun ⟨source, _⟩ => (Source.ensures_decode source).bind fun s hs => ?_
  refine .step fun part? => (Ensures.option fun (part : j.Part) _ =>
    Criteria.ensures_decode part.val).bind fun criteria hcriteria => ?_
  refine .step fun parts => (Ensures.mapM fun (part : j.Part) _ =>
    Projection.ensures_decode part.val).bind fun selection hselection => ?_
  refine .step fun distinct => .step fun parts => (Ensures.mapM fun (part : j.Part) _ =>
    Order.ensures_decode part.val).bind fun orders horders => ?_
  refine .step fun skip => .step fun take => .step fun part? =>
    (Ensures.option fun (part : j.Part) _ => Aggregation.ensures_decode part.val).bind
      fun aggregation haggregation => ?_
  refine .step fun parts => (Ensures.mapM fun (part : j.Part) _ =>
    Expression.ensures_decode part.val).bind fun groupBy hgroupBy => ?_
  refine .step fun part? => (Ensures.option fun (part : j.Part) _ =>
    Criteria.ensures_decode part.val).bind fun having hhaving => .pure ?_
  exact Query.forall_ingredients.mpr
    ⟨hs, hcriteria, hselection, horders, haggregation, hgroupBy, hhaving⟩
termination_by sizeOf j

theorem SetOperand.ensures_decode (j : Json) :
    (SetOperand.decode j).Ensures fun o => ∀ i ∈ o.ingredients, i.Storable := by
  rw [SetOperand.decode]
  refine .step fun alternative => ?_
  split
  · exact .step fun ⟨body, _⟩ => (Query.ensures_decode body).bind fun q hq => .pure hq
  · exact .step fun ⟨body, _⟩ => (QuerySet.ensures_decode body).bind fun s hs => .pure hs
  · exact .throw _
termination_by sizeOf j

theorem QuerySet.ensures_decode (j : Json) :
    (QuerySet.decode j).Ensures fun s => ∀ i ∈ s.ingredients, i.Storable := by
  rw [QuerySet.decode]
  refine .step fun _ => .step fun operator => .step fun ⟨left, _⟩ => .step fun ⟨right, _⟩ => ?_
  refine (SetOperand.ensures_decode left).bind fun l hl => ?_
  refine (SetOperand.ensures_decode right).bind fun r hr => ?_
  refine .step fun parts => (Ensures.mapM fun (part : j.Part) _ =>
    Order.ensures_decode part.val).bind fun orders horders => .pure ?_
  exact QuerySet.forall_ingredients.mpr ⟨hl, hr, horders⟩
termination_by sizeOf j

end

end DialectSql
