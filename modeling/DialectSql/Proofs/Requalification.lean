import DialectSql.Query.Visit

/-!
# Requalification

A query refers to its sources by the qualifiers of its fields and wildcards. Requalifying it changes
these qualifiers and the aliases of the sources, and nothing else: what is left of a query without
them, its outline, stays as it is. Since a query is known by its outline, its aliases and its
references, this says all of what becomes of it.

A text in front of every alias and every qualifier therefore keeps what each reference names, and
one text after another is the same as both at once.

## Main definitions

* `Reference`, `Query.references` — what refers to a source, and the references of each clause
* `Query.outline` — a query without its qualifiers and aliases
* `Query.resolution` — which sources the references of a query name
* `Query.IsPrefixed` — a query with a text in front of each alias and each qualifier of another one

## Main results

* `Query.references_visits` — a walk meets every reference once
* `Query.requalify_requalify` — one requalification after another
* `Query.references_requalify` — what becomes of the references
* `Query.eq_of_outline` — a query is known by its outline, its aliases and its references
* `Query.prefixAliases_resolution` — what becomes of a query whose aliases are prefixed
-/

namespace DialectSql

/-! ## References -/

/-- What refers to a source. -/
inductive Reference
  | field (f : Field)
  | wildcard (source : Option String)

namespace Reference

/-- The symbol of the source that is referred to, if the reference has a qualifier. -/
def qualifier? : Reference → Option String
  | field f => f.source
  | wildcard source => source

/-- Whether a reference names a relation. -/
def names (reference : Reference) (r : Relation) : Bool :=
  reference.qualifier? == some r.symbol

/-- A reference requalified. -/
def requalify (r : Requalification) : Reference → Reference
  | field f => field (f.requalify r)
  | wildcard source => wildcard (r.wildcardSource source)

/-- A reference with a text in front of its qualifier; what has no qualifier stays. -/
def prefixed (text : String) : Reference → Reference
  | field f => field (f.withSource (f.source.map (text ++ ·)))
  | wildcard source => wildcard (source.map (text ++ ·))

end Reference

namespace Expression

mutual

/-- The references in an expression, from left to right. -/
def references : Expression → List Reference
  | constant _ => []
  | field f _ => [.field f]
  | arithmetic _ left right => left.references ++ right.references
  | comparison _ left right => left.references ++ right.references
  | logic _ left right => left.references ++ right.references
  | bitwise _ left right => left.references ++ right.references
  | unary _ operand => operand.references
  | like subject pattern _ => subject.references ++ pattern.references
  | membership _ subject _ => subject.references
  | call _ args _ => referencesList args
  | wildcard source => [.wildcard source]

/-- The references in a list of expressions. -/
def referencesList : List Expression → List Reference
  | [] => []
  | e :: es => e.references ++ referencesList es

end

end Expression

mutual

/-- The references in a condition, those of its subqueries aside. -/
def Criteria.references : Criteria → List Reference
  | .expression e => e.references
  | .compound _ children => Criteria.referencesList children
  | .inSelect subject _ _ => subject.references

/-- The references in a list of conditions. -/
def Criteria.referencesList : List Criteria → List Reference
  | [] => []
  | c :: cs => c.references ++ Criteria.referencesList cs

end

/-- The references in the join conditions of a source. -/
def Source.references : Source → List Reference
  | .single _ => []
  | .joined _ left right on => left.references ++ right.references ++ on.references

/-- The references in the argument of an aggregate. -/
def Aggregation.references (a : Aggregation) : List Reference :=
  a.argument.elim [] Expression.references

/-- The references of a query to its sources, clause by clause. -/
def Query.references (q : Query) : List Reference :=
  q.selection.flatMap (·.expression.references) ++
    q.aggregation.elim [] Aggregation.references ++
    q.source.references ++
    q.criteria.elim [] Criteria.references ++
    q.groupBy.flatMap Expression.references ++
    q.having.elim [] Criteria.references ++
    q.orders.flatMap (·.expression.references)

/-- For each reference of a query and each of its relations, whether the one names the other. -/
def Query.resolution (q : Query) : List (List Bool) :=
  q.references.map fun reference => q.source.relations.map reference.names

/-! ### A walk meets every reference once -/

/-- The reference that a node is, unless it is none. -/
@[simp] def Visit.reference? : Visit → Option Reference
  | field f => some (.field f)
  | wildcard qualifier => some (.wildcard qualifier)
  | _ => none

namespace Expression

mutual

theorem references_visits : ∀ e : Expression, e.visits.filterMap Visit.reference? = e.references
  | .constant _ => by simp [visits, references, List.filterMap_cons]
  | .field _ _ => by simp [visits, references, List.filterMap_cons]
  | .arithmetic _ left right => by
    simp [visits, references, List.filterMap_cons, references_visits left, references_visits right]
  | .comparison _ left right => by
    simp [visits, references, List.filterMap_cons, references_visits left, references_visits right]
  | .logic _ left right => by
    simp [visits, references, List.filterMap_cons, references_visits left, references_visits right]
  | .bitwise _ left right => by
    simp [visits, references, List.filterMap_cons, references_visits left, references_visits right]
  | .unary _ operand => by simp [visits, references, List.filterMap_cons, references_visits operand]
  | .like subject pattern _ => by
    simp [visits, references, List.filterMap_cons, references_visits subject,
      references_visits pattern]
  | .membership _ subject _ => by
    simp [visits, references, List.filterMap_cons, references_visits subject]
  | .call _ args _ => by simp [visits, references, List.filterMap_cons, references_visitsList args]
  | .wildcard _ => by simp [visits, references, List.filterMap_cons]

theorem references_visitsList :
    ∀ es : List Expression, (visitsList es).filterMap Visit.reference? = referencesList es
  | [] => by simp [visitsList, referencesList]
  | e :: es => by
    simp [visitsList, referencesList, references_visits e, references_visitsList es]

end

end Expression

mutual

theorem Criteria.references_visits :
    ∀ c : Criteria, c.visits.filterMap Visit.reference? = c.references
  | .expression e => by simp [visits, references, List.filterMap_cons, e.references_visits]
  | .compound _ children => by
    simp [visits, references, List.filterMap_cons, references_visitsList children]
  | .inSelect subject _ _ => by
    simp [visits, references, List.filterMap_cons, subject.references_visits]

theorem Criteria.references_visitsList : ∀ cs : List Criteria,
    (Criteria.visitsList cs).filterMap Visit.reference? = Criteria.referencesList cs
  | [] => by simp [Criteria.visitsList, Criteria.referencesList]
  | c :: cs => by
    simp [Criteria.visitsList, Criteria.referencesList, Criteria.references_visits c,
      Criteria.references_visitsList cs]

end

theorem Source.references_visits :
    ∀ s : Source, s.visits.filterMap Visit.reference? = s.references
  | .single _ => by simp [visits, references, List.filterMap_cons]
  | .joined _ left right on => by
    simp [visits, references, List.filterMap_cons, references_visits left, references_visits right,
      on.references_visits]

/-- The walk over a query meets the references of each of its clauses, in order and once each. -/
theorem Query.references_visits (q : Query) :
    q.visits.filterMap Visit.reference? = q.references := by
  obtain ⟨source, criteria, selection, distinct, orders, skip, take, aggregation, groupBy,
    having⟩ := q
  cases criteria <;> cases having <;> rcases aggregation with _ | ⟨function, _ | e⟩ <;>
    simp [visits, references, List.filterMap_cons, Aggregation.references, Order.visits,
      List.filterMap_flatMap,
      Expression.references_visits, Source.references_visits, Criteria.references_visits]

/-! ### References of a requalified tree -/

section References

variable (r : Requalification)

namespace Expression

mutual

theorem references_requalify :
    ∀ e : Expression, (e.requalify r).references = e.references.map (·.requalify r)
  | .constant _ => rfl
  | .field _ _ => rfl
  | .arithmetic _ left right => by
    simp only [requalify, references, references_requalify left, references_requalify right,
      List.map_append]
  | .comparison _ left right => by
    simp only [requalify, references, references_requalify left, references_requalify right,
      List.map_append]
  | .logic _ left right => by
    simp only [requalify, references, references_requalify left, references_requalify right,
      List.map_append]
  | .bitwise _ left right => by
    simp only [requalify, references, references_requalify left, references_requalify right,
      List.map_append]
  | .unary _ operand => by simp only [requalify, references, references_requalify operand]
  | .like subject pattern _ => by
    simp only [requalify, references, references_requalify subject, references_requalify pattern,
      List.map_append]
  | .membership _ subject _ => by simp only [requalify, references, references_requalify subject]
  | .call _ args _ => by simp only [requalify, references, references_requalifyList args]
  | .wildcard _ => rfl

theorem references_requalifyList : ∀ es : List Expression,
    referencesList (requalifyList r es) = (referencesList es).map (·.requalify r)
  | [] => rfl
  | e :: es => by
    simp only [requalifyList, referencesList, references_requalify e, references_requalifyList es,
      List.map_append]

end

end Expression

mutual

theorem Criteria.references_requalify :
    ∀ c : Criteria, (c.requalify r).references = c.references.map (·.requalify r)
  | .expression e => by simp only [requalify, references, e.references_requalify]
  | .compound _ children => by
    simp only [requalify, references, references_requalifyList children]
  | .inSelect subject _ _ => by simp only [requalify, references, subject.references_requalify]

theorem Criteria.references_requalifyList : ∀ cs : List Criteria,
    Criteria.referencesList (Criteria.requalifyList r cs) =
      (Criteria.referencesList cs).map (·.requalify r)
  | [] => rfl
  | c :: cs => by
    simp only [Criteria.requalifyList, Criteria.referencesList, Criteria.references_requalify c,
      Criteria.references_requalifyList cs, List.map_append]

end

theorem Source.references_requalify :
    ∀ s : Source, (s.requalify r).references = s.references.map (·.requalify r)
  | .single _ => rfl
  | .joined _ left right on => by
    simp only [requalify, references, references_requalify left, references_requalify right,
      on.references_requalify, List.map_append]

/-- Every reference of a query is requalified, and there are no others. -/
theorem Query.references_requalify (q : Query) :
    (q.requalify r).references = q.references.map (·.requalify r) := by
  obtain ⟨source, criteria, selection, distinct, orders, skip, take, aggregation, groupBy,
    having⟩ := q
  cases criteria <;> cases having <;> rcases aggregation with _ | ⟨function, _ | e⟩ <;>
    simp [references, requalify, Projection.requalify, Order.requalify, Aggregation.requalify,
      Aggregation.references, List.flatMap_map, List.map_flatMap, source.references_requalify,
      Criteria.references_requalify, Expression.references_requalify]

end References

/-! ## One requalification after another -/

/-- Two requalifications at once, the first one before the second. -/
def Requalification.andThen (r s : Requalification) : Requalification where
  fieldSource source := s.fieldSource (r.fieldSource source)
  wildcardSource source := s.wildcardSource (r.wildcardSource source)
  relation relation := s.relation (r.relation relation)

section Composition

variable (r s : Requalification)

namespace Expression

mutual

theorem requalify_requalify :
    ∀ e : Expression, (e.requalify r).requalify s = e.requalify (r.andThen s)
  | .constant _ => rfl
  | .field _ _ => rfl
  | .arithmetic _ left right => by
    simp only [requalify, requalify_requalify left, requalify_requalify right]
  | .comparison _ left right => by
    simp only [requalify, requalify_requalify left, requalify_requalify right]
  | .logic _ left right => by
    simp only [requalify, requalify_requalify left, requalify_requalify right]
  | .bitwise _ left right => by
    simp only [requalify, requalify_requalify left, requalify_requalify right]
  | .unary _ operand => by simp only [requalify, requalify_requalify operand]
  | .like subject pattern _ => by
    simp only [requalify, requalify_requalify subject, requalify_requalify pattern]
  | .membership _ subject _ => by simp only [requalify, requalify_requalify subject]
  | .call _ args _ => by simp only [requalify, requalify_requalifyList args]
  | .wildcard _ => rfl

theorem requalify_requalifyList :
    ∀ es : List Expression,
      requalifyList s (requalifyList r es) = requalifyList (r.andThen s) es
  | [] => rfl
  | e :: es => by simp only [requalifyList, requalify_requalify e, requalify_requalifyList es]

end

end Expression

mutual

theorem Criteria.requalify_requalify :
    ∀ c : Criteria, (c.requalify r).requalify s = c.requalify (r.andThen s)
  | .expression e => by simp only [requalify, e.requalify_requalify]
  | .compound _ children => by simp only [requalify, requalify_requalifyList children]
  | .inSelect subject _ _ => by simp only [requalify, subject.requalify_requalify]

theorem Criteria.requalify_requalifyList :
    ∀ cs : List Criteria, Criteria.requalifyList s (Criteria.requalifyList r cs) =
      Criteria.requalifyList (r.andThen s) cs
  | [] => rfl
  | c :: cs => by
    simp only [Criteria.requalifyList, Criteria.requalify_requalify c,
      Criteria.requalify_requalifyList cs]

end

theorem Source.requalify_requalify :
    ∀ source : Source, (source.requalify r).requalify s = source.requalify (r.andThen s)
  | .single _ => rfl
  | .joined _ left right on => by
    simp only [requalify, requalify_requalify left, requalify_requalify right,
      on.requalify_requalify]

/-- Two requalifications of a query one after the other are both at once. -/
theorem Query.requalify_requalify (q : Query) :
    (q.requalify r).requalify s = q.requalify (r.andThen s) := by
  have hprojection (p : Projection) : (p.requalify r).requalify s = p.requalify (r.andThen s) := by
    simp only [Projection.requalify, Expression.requalify_requalify]
  have horder (o : Order) : (o.requalify r).requalify s = o.requalify (r.andThen s) := by
    simp only [Order.requalify, Expression.requalify_requalify]
  have haggregation (a : Aggregation) :
      (a.requalify r).requalify s = a.requalify (r.andThen s) := by
    simp only [Aggregation.requalify, Option.map_map, Function.comp_def,
      Expression.requalify_requalify]
  simp only [requalify, Source.requalify_requalify, Option.map_map, List.map_map,
    Function.comp_def, hprojection, horder, haggregation, Criteria.requalify_requalify,
    Expression.requalify_requalify]

end Composition

/-! ## Outlines -/

/-- Every qualifier and every alias taken away. -/
def Requalification.erasing : Requalification where
  fieldSource _ := none
  wildcardSource _ := none
  relation r := r.resetAlias

/-- A query without its qualifiers and aliases; subqueries keep theirs. -/
def Query.outline (q : Query) : Query := q.requalify .erasing

/-- Nodes that are known by their outline and their references, whatever stands behind these. -/
def KnownByOutline {α : Type} (outline : α → α) (references : α → List Reference) : Prop :=
  ∀ ⦃a b : α⦄ ⦃rest rest' : List Reference⦄, outline a = outline b →
    references a ++ rest = references b ++ rest' → a = b ∧ rest = rest'

namespace KnownByOutline

variable {α : Type} {outline : α → α} {references : α → List Reference}

theorem list (h : KnownByOutline outline references) :
    KnownByOutline (List.map outline) (List.flatMap references) := by
  intro as
  induction as with
  | nil =>
    rintro (_ | ⟨b, bs⟩) rest rest' houtline hreferences
    · exact ⟨rfl, hreferences⟩
    · cases houtline
  | cons a as ih =>
    rintro (_ | ⟨b, bs⟩) rest rest' houtline hreferences
    · cases houtline
    · rw [List.map_cons, List.map_cons, List.cons.injEq] at houtline
      rw [List.flatMap_cons, List.flatMap_cons, List.append_assoc, List.append_assoc] at hreferences
      obtain ⟨rfl, hbehind⟩ := h houtline.1 hreferences
      obtain ⟨rfl, hrest⟩ := ih houtline.2 hbehind
      exact ⟨rfl, hrest⟩

theorem option (h : KnownByOutline outline references) :
    KnownByOutline (Option.map outline) fun a? => a?.elim [] references := by
  rintro (_ | a) (_ | b) rest rest' houtline hreferences
  · exact ⟨rfl, hreferences⟩
  · cases houtline
  · cases houtline
  · obtain ⟨rfl, hrest⟩ := h (Option.some.inj houtline) hreferences
    exact ⟨rfl, hrest⟩

end KnownByOutline

open Requalification (erasing)

namespace Expression

variable {left right left' right' : Expression} {rest rest' : List Reference}

/-- Two operands are known if each of them is. -/
theorem eq_of_outline_operands
    (hleft : ∀ {rest rest'}, left.requalify erasing = left'.requalify erasing →
      left.references ++ rest = left'.references ++ rest' →
      left = left' ∧ rest = rest')
    (hright : ∀ {rest rest'}, right.requalify erasing = right'.requalify erasing →
      right.references ++ rest = right'.references ++ rest' →
      right = right' ∧ rest = rest')
    (houtlineLeft : left.requalify erasing = left'.requalify erasing)
    (houtlineRight : right.requalify erasing = right'.requalify erasing)
    (h : (left.references ++ right.references) ++ rest =
      (left'.references ++ right'.references) ++ rest') :
    (left = left' ∧ right = right') ∧ rest = rest' := by
  rw [List.append_assoc, List.append_assoc] at h
  obtain ⟨rfl, hbehind⟩ := hleft houtlineLeft h
  obtain ⟨rfl, hrest⟩ := hright houtlineRight hbehind
  exact ⟨⟨rfl, rfl⟩, hrest⟩

mutual

theorem eq_of_outline : ∀ (e e' : Expression) {rest rest' : List Reference},
    e.requalify erasing = e'.requalify erasing →
    e.references ++ rest = e'.references ++ rest' →
    e = e' ∧ rest = rest'
  | .constant _, e', _, _, houtline, h => by
    cases e' <;> cases houtline
    exact ⟨rfl, h⟩
  | .field f _, e', _, _, houtline, h => by
    cases e' with
    | field f' _ =>
      simp only [requalify, field.injEq] at houtline
      obtain ⟨-, rfl⟩ := houtline
      -- The reference is the field itself.
      obtain ⟨hfield, hrest⟩ := List.cons.inj h
      obtain rfl := Reference.field.inj hfield
      exact ⟨rfl, hrest⟩
    | _ => cases houtline
  | .arithmetic _ left right, e', _, _, houtline, h => by
    cases e' with
    | arithmetic _ left' right' =>
      simp only [requalify, arithmetic.injEq] at houtline
      obtain ⟨rfl, hleft, hright⟩ := houtline
      obtain ⟨⟨rfl, rfl⟩, hrest⟩ :=
        eq_of_outline_operands (eq_of_outline left left') (eq_of_outline right right') hleft hright
          h
      exact ⟨rfl, hrest⟩
    | _ => cases houtline
  | .comparison _ left right, e', _, _, houtline, h => by
    cases e' with
    | comparison _ left' right' =>
      simp only [requalify, comparison.injEq] at houtline
      obtain ⟨rfl, hleft, hright⟩ := houtline
      obtain ⟨⟨rfl, rfl⟩, hrest⟩ :=
        eq_of_outline_operands (eq_of_outline left left') (eq_of_outline right right') hleft hright
          h
      exact ⟨rfl, hrest⟩
    | _ => cases houtline
  | .logic _ left right, e', _, _, houtline, h => by
    cases e' with
    | logic _ left' right' =>
      simp only [requalify, logic.injEq] at houtline
      obtain ⟨rfl, hleft, hright⟩ := houtline
      obtain ⟨⟨rfl, rfl⟩, hrest⟩ :=
        eq_of_outline_operands (eq_of_outline left left') (eq_of_outline right right') hleft hright
          h
      exact ⟨rfl, hrest⟩
    | _ => cases houtline
  | .bitwise _ left right, e', _, _, houtline, h => by
    cases e' with
    | bitwise _ left' right' =>
      simp only [requalify, bitwise.injEq] at houtline
      obtain ⟨rfl, hleft, hright⟩ := houtline
      obtain ⟨⟨rfl, rfl⟩, hrest⟩ :=
        eq_of_outline_operands (eq_of_outline left left') (eq_of_outline right right') hleft hright
          h
      exact ⟨rfl, hrest⟩
    | _ => cases houtline
  | .unary _ operand, e', _, _, houtline, h => by
    cases e' with
    | unary _ operand' =>
      simp only [requalify, unary.injEq] at houtline
      obtain ⟨rfl, hoperand⟩ := houtline
      obtain ⟨rfl, hrest⟩ := eq_of_outline operand operand' hoperand h
      exact ⟨rfl, hrest⟩
    | _ => cases houtline
  | .like subject pattern _, e', _, _, houtline, h => by
    cases e' with
    | like subject' pattern' _ =>
      simp only [requalify, like.injEq] at houtline
      obtain ⟨hsubject, hpattern, rfl⟩ := houtline
      obtain ⟨⟨rfl, rfl⟩, hrest⟩ := eq_of_outline_operands (eq_of_outline subject subject')
        (eq_of_outline pattern pattern') hsubject hpattern h
      exact ⟨rfl, hrest⟩
    | _ => cases houtline
  | .membership _ subject _, e', _, _, houtline, h => by
    cases e' with
    | membership _ subject' _ =>
      simp only [requalify, membership.injEq] at houtline
      obtain ⟨rfl, hsubject, rfl⟩ := houtline
      obtain ⟨rfl, hrest⟩ := eq_of_outline subject subject' hsubject h
      exact ⟨rfl, hrest⟩
    | _ => cases houtline
  | .call _ args _, e', _, _, houtline, h => by
    cases e' with
    | call _ args' _ =>
      simp only [requalify, call.injEq] at houtline
      obtain ⟨rfl, hargs, rfl⟩ := houtline
      obtain ⟨rfl, hrest⟩ := eq_of_outlineList args args' hargs h
      exact ⟨rfl, hrest⟩
    | _ => cases houtline
  | .wildcard _, e', _, _, houtline, h => by
    cases e' with
    | wildcard _ =>
      obtain ⟨hwildcard, hrest⟩ := List.cons.inj h
      obtain rfl := Reference.wildcard.inj hwildcard
      exact ⟨rfl, hrest⟩
    | _ => cases houtline

theorem eq_of_outlineList : ∀ (es es' : List Expression) {rest rest' : List Reference},
    requalifyList erasing es = requalifyList erasing es' →
    referencesList es ++ rest = referencesList es' ++ rest' →
    es = es' ∧ rest = rest'
  | [], [], _, _, _, h => ⟨rfl, h⟩
  | [], _ :: _, _, _, houtline, _ => by cases houtline
  | _ :: _, [], _, _, houtline, _ => by cases houtline
  | e :: es, e' :: es', _, _, houtline, h => by
    simp only [requalifyList, List.cons.injEq] at houtline
    simp only [referencesList, List.append_assoc] at h
    obtain ⟨rfl, hbehind⟩ := eq_of_outline e e' houtline.1 h
    obtain ⟨rfl, hrest⟩ := eq_of_outlineList es es' houtline.2 hbehind
    exact ⟨rfl, hrest⟩

end

theorem knownByOutline : KnownByOutline (requalify erasing) fun e => e.references :=
  fun _ _ _ _ => eq_of_outline _ _

end Expression

mutual

theorem Criteria.eq_of_outline : ∀ (c c' : Criteria) {rest rest' : List Reference},
    c.requalify erasing = c'.requalify erasing →
    c.references ++ rest = c'.references ++ rest' →
    c = c' ∧ rest = rest'
  | .expression _, c', _, _, houtline, h => by
    cases c' with
    | expression _ =>
      simp only [requalify, expression.injEq] at houtline
      obtain ⟨rfl, hrest⟩ := Expression.knownByOutline houtline h
      exact ⟨rfl, hrest⟩
    | _ => cases houtline
  | .compound _ children, c', _, _, houtline, h => by
    cases c' with
    | compound _ children' =>
      simp only [requalify, compound.injEq] at houtline
      obtain ⟨rfl, hchildren⟩ := houtline
      obtain ⟨rfl, hrest⟩ := eq_of_outlineList children children' hchildren h
      exact ⟨rfl, hrest⟩
    | _ => cases houtline
  | .inSelect _ _ _, c', _, _, houtline, h => by
    cases c' with
    | inSelect _ _ _ =>
      -- The subquery keeps its qualifiers, so that the outlines tell all of it.
      simp only [requalify, inSelect.injEq] at houtline
      obtain ⟨hsubject, rfl, rfl⟩ := houtline
      obtain ⟨rfl, hrest⟩ := Expression.knownByOutline hsubject h
      exact ⟨rfl, hrest⟩
    | _ => cases houtline

theorem Criteria.eq_of_outlineList : ∀ (cs cs' : List Criteria) {rest rest' : List Reference},
    Criteria.requalifyList erasing cs = Criteria.requalifyList erasing cs' →
    Criteria.referencesList cs ++ rest =
      Criteria.referencesList cs' ++ rest' →
    cs = cs' ∧ rest = rest'
  | [], [], _, _, _, h => ⟨rfl, h⟩
  | [], _ :: _, _, _, houtline, _ => by cases houtline
  | _ :: _, [], _, _, houtline, _ => by cases houtline
  | c :: cs, c' :: cs', _, _, houtline, h => by
    simp only [Criteria.requalifyList, List.cons.injEq] at houtline
    simp only [Criteria.referencesList, List.append_assoc] at h
    obtain ⟨rfl, hbehind⟩ := Criteria.eq_of_outline c c' houtline.1 h
    obtain ⟨rfl, hrest⟩ := Criteria.eq_of_outlineList cs cs' houtline.2 hbehind
    exact ⟨rfl, hrest⟩

end

theorem Criteria.knownByOutline :
    KnownByOutline (requalify erasing) fun c => c.references :=
  fun _ _ _ _ => eq_of_outline _ _

theorem Order.knownByOutline :
    KnownByOutline (requalify erasing) fun o => o.expression.references := by
  rintro ⟨e, direction⟩ ⟨e', direction'⟩ rest rest' houtline h
  simp only [requalify, Order.mk.injEq] at houtline
  obtain ⟨houtline, rfl⟩ := houtline
  obtain ⟨rfl, hrest⟩ := Expression.knownByOutline houtline h
  exact ⟨rfl, hrest⟩

theorem Projection.knownByOutline :
    KnownByOutline (requalify erasing) fun p => p.expression.references := by
  rintro ⟨e, alias?⟩ ⟨e', alias?'⟩ rest rest' houtline h
  simp only [requalify, Projection.mk.injEq] at houtline
  obtain ⟨houtline, rfl⟩ := houtline
  obtain ⟨rfl, hrest⟩ := Expression.knownByOutline houtline h
  exact ⟨rfl, hrest⟩

theorem Aggregation.knownByOutline : KnownByOutline (requalify erasing) fun a =>
    a.argument.elim [] fun e => e.references := by
  rintro ⟨function, argument⟩ ⟨function', argument'⟩ rest rest' houtline h
  simp only [requalify, Aggregation.mk.injEq] at houtline
  obtain ⟨rfl, houtline⟩ := houtline
  obtain ⟨rfl, hrest⟩ := Expression.knownByOutline.option houtline h
  exact ⟨rfl, hrest⟩

/-- A relation is known by what it is without an alias, and its alias. -/
theorem Relation.eq_of_resetAlias {r r' : Relation} (houtline : r.resetAlias = r'.resetAlias)
    (halias : r.alias? = r'.alias?) : r = r' := by
  cases r with
  | table t =>
    cases r' with
    | table t' =>
      obtain ⟨name, a, storingOrder⟩ := t
      obtain ⟨name', a', storingOrder'⟩ := t'
      simp_all [resetAlias, withAlias, alias?]
    | _ => cases houtline
  | select _ _ =>
    cases r' with
    | select _ _ => simp_all [resetAlias, withAlias, alias?]
    | _ => cases houtline
  | set _ _ =>
    cases r' with
    | set _ _ => simp_all [resetAlias, withAlias, alias?]
    | _ => cases houtline

/-- A source is known by its outline, the aliases of its relations and its references. -/
theorem Source.eq_of_outline : ∀ (s s' : Source) {aliases aliases' : List (Option String)}
    {rest rest' : List Reference}, s.requalify erasing = s'.requalify erasing →
    s.relations.map Relation.alias? ++ aliases = s'.relations.map Relation.alias? ++ aliases' →
    s.references ++ rest = s'.references ++ rest' →
    s = s' ∧ aliases = aliases' ∧ rest = rest'
  | .single r, s', _, _, _, _, houtline, haliases, h => by
    cases s' with
    | single r' =>
      obtain ⟨halias, hbehind⟩ := List.cons.inj haliases
      obtain rfl := Relation.eq_of_resetAlias (Source.single.inj houtline) halias
      exact ⟨rfl, hbehind, h⟩
    | _ => cases houtline
  | .joined _ left right on, s', _, _, _, _, houtline, haliases, h => by
    cases s' with
    | joined _ left' right' on' =>
      simp only [requalify, joined.injEq] at houtline
      obtain ⟨rfl, hleft, hright, hon⟩ := houtline
      simp only [relations, List.map_append, List.append_assoc] at haliases
      simp only [references, List.append_assoc] at h
      -- Each part takes its own aliases and references off the front of the lists.
      obtain ⟨rfl, haliases, h⟩ := eq_of_outline left left' hleft haliases h
      obtain ⟨rfl, haliases, h⟩ := eq_of_outline right right' hright haliases h
      obtain ⟨rfl, hrest⟩ := Criteria.knownByOutline hon h
      exact ⟨rfl, haliases, hrest⟩
    | _ => cases houtline

/-- A query is known by its outline, the aliases of its relations and its references. -/
theorem Query.eq_of_outline {q q' : Query} (houtline : q.outline = q'.outline)
    (haliases : q.source.relations.map Relation.alias? = q'.source.relations.map Relation.alias?)
    (hreferences : q.references = q'.references) : q = q' := by
  obtain ⟨source, criteria, selection, distinct, orders, skip, take, aggregation, groupBy,
    having⟩ := q
  obtain ⟨source', criteria', selection', distinct', orders', skip', take', aggregation', groupBy',
    having'⟩ := q'
  simp only [outline, requalify, Query.mk.injEq] at houtline
  obtain ⟨hsource, hcriteria, hselection, rfl, horders, rfl, rfl, haggregation, hgroupBy,
    hhaving⟩ :=
    houtline
  simp only [references, List.append_assoc] at hreferences
  -- The references are told apart from front to back.
  obtain ⟨rfl, haggregate⟩ := Projection.knownByOutline.list hselection hreferences
  obtain ⟨rfl, hjoins⟩ := Aggregation.knownByOutline.option haggregation haggregate
  obtain ⟨rfl, -, hfilter⟩ := Source.eq_of_outline source source' hsource
    (congrArg (· ++ []) haliases) hjoins
  obtain ⟨rfl, hgroups⟩ := Criteria.knownByOutline.option hcriteria hfilter
  obtain ⟨rfl, hgroupFilter⟩ := Expression.knownByOutline.list hgroupBy hgroups
  obtain ⟨rfl, horderings⟩ := Criteria.knownByOutline.option hhaving hgroupFilter
  obtain ⟨rfl, -⟩ := Order.knownByOutline.list horders (congrArg (· ++ []) horderings)
  rfl

/-! ## Prefixed aliases -/

section Prefixing

variable (text : String)

namespace Relation

@[simp] theorem alias?_withAlias (r : Relation) (a : Option String) :
    (r.withAlias a).alias? = a := by
  cases r <;> rfl

@[simp] theorem withAlias_withAlias (r : Relation) (a b : Option String) :
    (r.withAlias a).withAlias b = r.withAlias b := by
  cases r <;> rfl

/-- A relation goes by its alias if it has one. -/
theorem symbol_withAlias (r : Relation) (symbol : String) :
    (r.withAlias (some symbol)).symbol = symbol := by
  cases r <;> rfl

@[simp] theorem symbol_prefixAlias (r : Relation) :
    (r.prefixAlias text).symbol = text ++ r.symbol :=
  r.symbol_withAlias _

@[simp] theorem alias?_prefixAlias (r : Relation) :
    (r.prefixAlias text).alias? = some (text ++ r.symbol) :=
  r.alias?_withAlias _

@[simp] theorem resetAlias_prefixAlias (r : Relation) :
    (r.prefixAlias text).resetAlias = r.resetAlias :=
  r.withAlias_withAlias _ _

/-- One text in front of an alias and another one in front of that. -/
theorem prefixAlias_prefixAlias (r : Relation) (first second : String) :
    (r.prefixAlias first).prefixAlias second = r.prefixAlias (second ++ first) := by
  simp [prefixAlias, symbol_withAlias, String.append_assoc]

end Relation

/-- The relations of a requalified source. -/
theorem Source.relations_requalify (r : Requalification) :
    ∀ s : Source, (s.requalify r).relations = s.relations.map r.relation
  | .single _ => rfl
  | .joined _ left right _ => by
    simp only [requalify, relations, List.map_append, relations_requalify r left,
      relations_requalify r right]

namespace Requalification

/-- One text in front of every qualifier and another one in front of that. -/
theorem prefixing_andThen (first second : String) :
    (prefixing first).andThen (prefixing second) = prefixing (second ++ first) := by
  simp only [andThen, prefixing, Option.map_map, Function.comp_def, String.append_assoc,
    Relation.prefixAlias_prefixAlias]

theorem prefixing_andThen_erasing : (prefixing text).andThen erasing = erasing := by
  simp only [andThen, prefixing, erasing, Relation.resetAlias_prefixAlias]

end Requalification

namespace Reference

theorem requalify_prefixing (reference : Reference) :
    reference.requalify (.prefixing text) = reference.prefixed text := by
  cases reference <;> rfl

/-- A prefixed reference names a prefixed relation exactly if the one names the other without. -/
theorem names_prefixed (reference : Reference) (r : Relation) :
    (reference.prefixed text).names (r.prefixAlias text) = reference.names r := by
  have hqualifier : (reference.prefixed text).qualifier? =
      reference.qualifier?.map (text ++ ·) := by
    cases reference <;> rfl
  rw [names, names, hqualifier, Relation.symbol_prefixAlias]
  cases reference.qualifier? with
  | none => rfl
  | some qualifier => simp [Bool.beq_eq_decide_eq]

end Reference

namespace Query

/-- A query that is another one with a text in front of every alias and every qualifier. -/
structure IsPrefixed (q q' : Query) : Prop where
  /-- Every relation has an alias, made of the text and the symbol that it went by. -/
  aliases : q'.source.relations.map Relation.alias? =
    q.source.relations.map fun r => some (text ++ r.symbol)
  /-- Every reference has the text in front of its qualifier, if it has one. -/
  references : q'.references = q.references.map (·.prefixed text)
  /-- All else is the same. -/
  outline : q'.outline = q.outline

theorem isPrefixed_prefixAliases (q : Query) : q.IsPrefixed text (q.prefixAliases text) where
  aliases := by
    rw [prefixAliases, requalify, Source.relations_requalify, List.map_map]
    exact List.map_congr_left fun r _ => r.alias?_prefixAlias text
  references := by
    rw [prefixAliases, references_requalify]
    exact List.map_congr_left fun reference _ => reference.requalify_prefixing text
  outline := by
    rw [outline, outline, prefixAliases, requalify_requalify,
      Requalification.prefixing_andThen_erasing]

/-- What becomes of a query whose aliases are prefixed: every relation and every qualified
reference carries the text, and nothing else is changed. So a reference names the relations that it
named before, and one text after another does what both do at once. -/
theorem prefixAliases_resolution (q : Query) :
    (∀ q', q.IsPrefixed text q' ↔ q' = q.prefixAliases text) ∧
      (q.prefixAliases text).resolution = q.resolution ∧
      ∀ first, (q.prefixAliases first).prefixAliases text = q.prefixAliases (text ++ first) := by
  have hprefixed := q.isPrefixed_prefixAliases text
  refine ⟨fun q' => ⟨fun h => ?_, fun h => h ▸ hprefixed⟩, ?_, fun first => ?_⟩
  · exact eq_of_outline (h.outline.trans hprefixed.outline.symm)
      (h.aliases.trans hprefixed.aliases.symm) (h.references.trans hprefixed.references.symm)
  · rw [resolution, resolution, hprefixed.references, List.map_map, prefixAliases, requalify,
      Source.relations_requalify]
    refine List.map_congr_left fun reference _ => ?_
    rw [Function.comp_apply, List.map_map]
    exact List.map_congr_left fun r _ => reference.names_prefixed text r
  · rw [prefixAliases, prefixAliases, requalify_requalify, Requalification.prefixing_andThen,
      prefixAliases]

end Query

end Prefixing

end DialectSql
