import DialectSql.Document.Statement
import DialectSql.Proofs.Document.Query

/-!
# Stored statements read back

The document that is written for a statement is read as that statement, whatever assignments it
repeats and whatever clauses it leaves out, provided that documents can hold its ingredients and
that no level of the document is cut off; any other statement is refused. What is read from any
document can be held by documents, so that writing it yields a normal form of that document.

## Main results

* `Change.restores_decode`, `Statement.restores_decode` — what was written is read back exactly if
  documents can hold it and it is not cut
* `Statement.normalForm_encode` — the readers undo the writers
-/

namespace DialectSql

open Reading (Recovers Restores Ensures)

/-! ## Assignments -/

/-- What an assignment writes is read back exactly if documents can hold it and are not cut. -/
theorem AssignedValue.restores_decode (v : AssignedValue) :
    Restores decode v.encode v (∀ i ∈ v.ingredients, i.Storable) := by
  cases v with
  | numeric n =>
    refine .tagged ⟨_, rfl⟩ fun levels => ?_
    simp only [decode, Json.variant_tagged, Json.content_some, Reading.ok_bind]
    exact ((n.restores_decode levels).map numeric).congr (by simp [ingredients, constant?])
  | increment n =>
    refine .tagged ⟨_, rfl⟩ fun levels => ?_
    simp only [decode, Json.variant_tagged, Json.content_some, Reading.ok_bind]
    exact ((n.restores_decode levels).map increment).congr (by simp [ingredients])
  | expression e =>
    refine .tagged ⟨_, rfl⟩ fun levels => ?_
    simp only [decode, Json.variant_tagged, Json.content_some, Reading.ok_bind]
    exact (e.restores_decode levels).map expression
  | timeSpan t =>
    refine .tagged ⟨_, rfl⟩ fun levels => ?_
    simp only [decode, Json.variant_tagged, Json.content_some, Reading.ok_bind]
    refine ((t.restores_decode levels).map timeSpan).congr (and_congr_left' ?_)
    simp [ingredients, constant?, Ingredient.Storable, Ingredient.WellFormed]
  | null =>
    refine .scalar (.of_ok (by simp [decode, encode, pure, Except.pure]) ?_) rfl
    simp [ingredients, constant?, Ingredient.Storable, Ingredient.WellFormed]
  | bool _ | char _ | dateTime _ | guid _ | string _ =>
    refine .tagged ⟨_, rfl⟩ fun levels => .of_ok ?_ ?_
    · simp [decode, Json.toBool_bool, Json.toText_string, pure, Except.pure]
    · simp [ingredients, constant?, Ingredient.Storable, Ingredient.WellFormed]

/-- Documents of what assignments write hold only ingredients that documents can hold. -/
theorem AssignedValue.ensures_decode (j : Json) :
    (decode j).Ensures fun v => ∀ i ∈ v.ingredients, i.Storable := by
  refine .step fun alternative => ?_
  split
  case h_5 =>
    refine .step fun body => (Numeric.ensures_decode body.val).bind fun n hn => .pure ?_
    simpa [ingredients, constant?] using hn
  case h_8 =>
    refine .step fun body => (Numeric.ensures_decode body.val).bind fun n hn => .pure ?_
    simpa [ingredients] using hn
  case h_9 =>
    refine .step fun _ => .pure ?_
    simp [ingredients, constant?, Ingredient.Storable, Ingredient.WellFormed]
  case h_10 =>
    exact .step fun body => (Expression.ensures_decode body.val).bind fun e he => .pure he
  case h_11 => exact .throw _
  all_goals
    refine .step fun _ => .step fun _ => .pure ?_
    simp [ingredients, constant?, Ingredient.Storable, Ingredient.WellFormed]

/-- An assignment is read back exactly if documents can hold its ingredients and are not cut. -/
theorem Assignment.restores_decode (a : Assignment) :
    Restores decode a.encode a (∀ i ∈ a.ingredients, i.Storable) := by
  refine .record ⟨_, rfl⟩ fun n => ?_
  refine (Recovers.member (n := n) (by simp) a.column.restores_decode (.member (n := n)
    (q := True) (d := True) (by simp) a.value.restores_decode ?_)).congr ?_
  · exact .of_ok rfl ⟨trivial, trivial⟩
  · rw [ingredients, List.forall_mem_append]
    simp

/-- Documents of assignments hold only ingredients that documents can hold. -/
theorem Assignment.ensures_decode (j : Json) :
    (decode j).Ensures fun a => ∀ i ∈ a.ingredients, i.Storable :=
  .step fun part => (Field.ensures_decode part.val).bind fun _ hcolumn =>
    .step fun part => (AssignedValue.ensures_decode part.val).bind fun _ hvalue =>
      .pure (List.forall_mem_append.mpr ⟨hcolumn, hvalue⟩)

/-! ## Changes -/

/-- A change is read back exactly if documents can hold its ingredients and are not cut; repeated
assignments to a column are kept. -/
theorem Change.restores_decode (c : Change) :
    Restores decode c.encode c (∀ i ∈ c.ingredients, i.Storable) := by
  obtain ⟨kind, source, criteria, assignments⟩ := c
  refine .record ⟨_, rfl⟩ fun n => ?_
  refine Recovers.congr (p := ((∀ i ∈ source.ingredients, i.Storable) ∧
    (∀ c ∈ criteria, ∀ i ∈ c.ingredients, i.Storable) ∧
    (∀ a ∈ assignments, ∀ i ∈ a.ingredients, i.Storable) ∧ True) ∧
    source.encode.depth ≤ n ∧ (∀ c ∈ criteria, c.encode.depth ≤ n) ∧
    (∀ x ∈ Json.arrayUnlessEmpty (assignments.map Assignment.encode), x.depth ≤ n) ∧ True) ?_ ?_
  · refine .scalar (by simp) (Json.toNamed_named kind) ?_
    refine .member (by simp) source.restores_decode ?_
    refine .optional _ rfl (by simp [Function.comp_def]) Criteria.encode_ne_null
      (fun c _ => c.restores_decode) ?_
    refine .optionalList _ rfl (by simp) (fun a _ => a.restores_decode) ?_
    exact .of_ok rfl ⟨trivial, trivial⟩
  · rw [forall_ingredients]
    simp

/-- Documents of changes hold only ingredients that documents can hold. -/
theorem Change.ensures_decode (j : Json) :
    (decode j).Ensures fun c => ∀ i ∈ c.ingredients, i.Storable := by
  refine .step fun _ => .step fun kind => .step fun part => ?_
  refine (Source.ensures_decode part.val).bind fun source hsource => ?_
  refine .step fun part? => (Ensures.option fun (part : j.Part) _ =>
    Criteria.ensures_decode part.val).bind fun criteria hcriteria => ?_
  refine .step fun parts => (Ensures.mapM fun (part : j.Part) _ =>
    Assignment.ensures_decode part.val).bind fun assignments hassignments => .pure ?_
  exact forall_ingredients.mpr ⟨hsource, hcriteria, hassignments⟩

/-! ## Statements -/

/-- A statement is read back exactly if documents can hold its ingredients and are not cut. -/
theorem Statement.restores_decode (s : Statement) : Restores decode s.encode s s.Storable := by
  cases s with
  | query q =>
    refine .tagged ⟨_, rfl⟩ fun n => ?_
    simp only [decode, Json.variant_tagged, Json.content_some, Reading.ok_bind]
    exact (q.restores_decode n).map query
  | set s =>
    refine .tagged ⟨_, rfl⟩ fun n => ?_
    simp only [decode, Json.variant_tagged, Json.content_some, Reading.ok_bind]
    exact (s.restores_decode n).map set
  | change c =>
    refine .tagged ⟨_, rfl⟩ fun n => ?_
    simp only [decode, Json.variant_tagged, Json.content_some, Reading.ok_bind]
    exact (c.restores_decode n).map change

/-- Documents of statements hold only ingredients that documents can hold. -/
theorem Statement.ensures_decode (j : Json) : (decode j).Ensures Storable := by
  refine .step fun alternative => ?_
  split
  · exact .step fun body => (Query.ensures_decode body.val).bind fun q hq => .pure hq
  · exact .step fun body => (QuerySet.ensures_decode body.val).bind fun s hs => .pure hs
  · exact .step fun body => (Change.ensures_decode body.val).bind fun c hc => .pure hc
  · exact .throw _

/-- Stored statements read back unchanged: the document of a statement is read as that statement if
its columns, compound conditions and floats are within the rules. Every document that is read at
all has a normal form, which is read as the same statement and written for it again. -/
theorem Statement.normalForm_encode (s : Statement) :
    (s.Storable → decode s.encode = .ok s) ∧
      ∀ j, decode j = .ok s →
        decode s.encode = .ok s ∧ (decode s.encode).map encode = .ok s.encode := by
  have hrecovers := s.restores_decode.recovers
  refine ⟨hrecovers.ok, fun j h => ?_⟩
  have hstored : decode s.encode = .ok s := hrecovers.ok (ensures_decode j s h)
  exact ⟨hstored, by rw [hstored]; rfl⟩

/-- An UPDATE that assigns a column twice, under a negated condition. -/
def Statement.repeatedAssignment : Statement :=
  .change ⟨.update, .ofTable "accounts",
    some (.compound .not [.expression (.constant (.bool true))]),
    [⟨⟨"balance", none⟩, .increment (.int 1)⟩, ⟨⟨"balance", some "a"⟩, .null⟩]⟩

/-- The UPDATE that assigns a column twice is read back, and its document is a normal form. -/
theorem Statement.normalForm_repeatedAssignment :
    repeatedAssignment.Storable ∧ decode repeatedAssignment.encode = .ok repeatedAssignment ∧
      (decode repeatedAssignment.encode).map encode = .ok repeatedAssignment.encode := by
  have hstorable : repeatedAssignment.Storable := by
    simp [repeatedAssignment, Storable, ingredients, Change.ingredients, Source.ofTable,
      Table.ofName, Source.ingredients, Relation.ingredients, Table.ingredients,
      Criteria.ingredientsOption, Criteria.ingredients, Criteria.ingredientsList,
      Expression.ingredients, Assignment.ingredients, Field.ingredients, AssignedValue.ingredients,
      AssignedValue.constant?, Numeric.toValue, Ingredient.Storable, Ingredient.WellFormed]
  have hstored := (normalForm_encode repeatedAssignment).1 hstorable
  exact ⟨hstorable, (normalForm_encode repeatedAssignment).2 repeatedAssignment.encode hstored⟩

end DialectSql
