import DialectSql.Proofs.Mention.Expression
import DialectSql.Proofs.NaturalOrder

/-!
# Aggregates of wrapped rows

An aggregate of different or limited rows stands outside of the query that these rows come from. Its
columns are moved onto the symbol of that query, and keep their names. So the aggregate is taken
over an output column exactly if its argument is written as a column that is called like the output.
An output column with another name is not found. A wildcard keeps its source, which is known inside
of the query only.

## Main definitions

* `Draft.itemReferences` — the references in front of the FROM of a query
* `Draft.firstArgument?` — what stands between the first parentheses

## Main results

* `Draft.Mentions.itemReferences_eq`, `Draft.firstArgument?_eq` — what is read of an aggregate
* `Query.references_aggregate` — what the aggregate of a query is taken over
-/

namespace DialectSql

namespace Draft

variable {a b : Draft} {refs : List Reference} {d : Dialect} {T : String → Prop}

/-- The references that a query without aliases projects: those in front of its first FROM. -/
def itemReferences (a : Draft) : List Reference :=
  Sign.references (a.signs.takeWhile (· != .glyph (.word "FROM")))

/-- What stands between the first parentheses of a draft. -/
def firstArgument? (a : Draft) : Option (List Sign) :=
  (Part.groupsIn (a.outline Piece.signs)).head?.map Part.signsIn

/-- The references of a query are those of its items. -/
theorem Mentions.itemReferences_eq (ha : Mentions refs a) (hb : b.Composed d T)
    (hsuccess : (.text "SELECT " ++ a ++ .text " FROM " ++ b : Draft).failure = none) :
    (.text "SELECT " ++ a ++ .text " FROM " ++ b : Draft).itemReferences = refs := by
  obtain ⟨ps, hps, hspells⟩ := (ha.lead (t := "SELECT ") rfl).mentions
    (failure_append_eq_none (failure_append_eq_none hsuccess).1).1
  obtain ⟨qs, hqs⟩ := hb.exists_reads Piece.signs
  have hreads := (hps.append (.text " FROM ")).append hqs
  have hfrom : (Piece.text " FROM ").signs = [.glyph (.word "FROM")] := rfl
  -- No clause begins among the items, and one does behind them.
  have hitems : ∀ sign ∈ Part.signsIn ps, (sign != .glyph (.word "FROM")) = true := by
    rintro sign hsign
    refine bne_iff_ne.mpr fun heq => ?_
    subst heq
    cases hspells.inside _ hsign
  rw [itemReferences, hreads.signs_eq hsuccess, Part.signsIn_append, Part.signsIn_append,
    Part.signsIn_map_leaf, hfrom, List.append_assoc, List.takeWhile_append_of_pos hitems]
  simpa using hspells.references_eq

/-- A query that begins with a function call fails if the argument does. -/
theorem failure_argument {name : String}
    (hsuccess : (.text "SELECT " ++ (.text name ++ a.parens) ++ b : Draft).failure = none) :
    a.failure = none := by
  have hcall := (failure_append_eq_none (failure_append_eq_none hsuccess).1).2
  rw [← failure_parens]
  exact (failure_append_eq_none hcall).2

/-- The first parentheses of a query are those of a function call that it begins with. -/
theorem firstArgument?_eq {name : String} {parts : List (Part Sign)}
    (ha : Reads Piece.signs a parts) (hb : b.Composed d T)
    (hsuccess : (.text "SELECT " ++ (.text name ++ a.parens) ++ b : Draft).failure = none) :
    (.text "SELECT " ++ (.text name ++ a.parens) ++ b : Draft).firstArgument? = some a.signs := by
  obtain ⟨qs, hqs⟩ := hb.exists_reads Piece.signs
  have hreads := ((Reads.text "SELECT ").append ((Reads.text name).append ha.parens)).append hqs
  rw [firstArgument?, hreads.outline_eq hsuccess, ha.signs_eq (failure_argument hsuccess)]
  simp [Part.groupsIn, Part.groups]

end Draft

/-- An aggregate that is moved is the name of its function and the moved argument. -/
theorem Aggregation.draft_relocate (a : Aggregation) (target : String) (s : Setting) :
    (a.toExpression.relocate target).draft s =
      .text (Expression.builtinName a.function.function s.dialect) ++
        (((a.argument.getD .allColumns).relocate target).draft s).parens := by
  obtain ⟨function, argument⟩ := a
  cases function <;> rfl

/-- An aggregate mentions what its argument mentions. -/
theorem Aggregation.mentions_toExpression (a : Aggregation) :
    a.toExpression.mentions = (a.argument.getD .allColumns).mentions := by
  obtain ⟨function, argument⟩ := a
  cases function <;> exact List.append_nil _

/-- An aggregate that is moved mentions what its argument mentions, moved as well. -/
theorem Aggregation.mentions_draft_relocate (a : Aggregation) (target : String) (s : Setting) :
    ((a.toExpression.relocate target).draft s).Mentions
      ((a.argument.getD .allColumns).mentions.map (·.movedOnto target)) := by
  rw [← a.mentions_toExpression, ← Expression.mentions_relocate]
  exact ((a.toExpression.relocate target).mentions_draft s).1

/-- References that are moved are qualified by the target if all wildcards among them were. -/
theorem Reference.forall_qualifier?_movedOnto_iff {references : List Reference} {target : String} :
    (∀ r ∈ references.map (·.movedOnto target), r.qualifier? = some target) ↔
      ∀ source, .wildcard source ∈ references → source = some target := by
  rw [List.forall_mem_map]
  constructor
  · exact fun h source hmem => h _ hmem
  · rintro h (f | source) hmem
    · rfl
    · exact h source hmem

/-- An aggregate that is wrapped around the rows of a query. -/
theorem Query.exists_draft_aggregate (q : Query) {a : Aggregation}
    (haggregation : q.aggregation = some a) (hwrapped : (q.distinct || q.isPaged) = true)
    (s : Setting) :
    ∃ rows, AnyDraft s.dialect rows ∧ q.draft s =
      .text "SELECT " ++ (a.toExpression.relocate aggregateSymbol).draft s ++ .text " FROM " ++
        rows := by
  have hbare : q.isBare = false := by simp [isBare, haggregation]
  obtain ⟨c, hc, hdraft⟩ := exists_clausesDraft hbare s
  refine ⟨(q.pagedDraft c s.nested).parens ++ .text (" " ++ aggregateSymbol),
    .append (.parens (composed_pagedDraft (s := s.nested) hc)) (.text trivial), ?_⟩
  rw [hdraft, clausesDraft, haggregation]
  dsimp only
  rw [aggregateDraft, if_pos hwrapped]
  simp only [Draft.append_assoc]

/-- The orders that a query implies leave this as it is. -/
theorem Query.exists_drafted_aggregate {q : Query} {a : Aggregation}
    (haggregation : q.aggregation = some a) (hwrapped : (q.distinct || q.isPaged) = true)
    (s : Setting) :
    ∃ rows, AnyDraft s.dialect rows ∧ Drafted.draft q s =
      .text "SELECT " ++ (a.toExpression.relocate aggregateSymbol).draft s ++ .text " FROM " ++
        rows := by
  change ∃ rows, _ ∧ (if s.numbersRows then q.implyOrders else q).draft s = _
  split
  · obtain ⟨source, criteria, orders, having, heq⟩ := q.implyOrders_eq
    rw [heq]
    exact exists_draft_aggregate { q with source, criteria, orders, having } haggregation hwrapped s
  · exact exists_draft_aggregate q haggregation hwrapped s

/-- The aggregate of different or limited rows has the references of its argument, with every column
moved onto the rows. So all its qualifiers are the symbol of the rows exactly if those of its
wildcards are. It is taken over a column of the rows exactly if its argument is written as a column
of that name, whatever the projection calls the item that equals the argument. -/
theorem Query.references_aggregate {q : Query} {a : Aggregation} {s : Setting}
    (haggregation : q.aggregation = some a) (hwrapped : (q.distinct || q.isPaged) = true)
    (hsuccess : (Drafted.draft q s).failure = none) :
    let argument := a.argument.getD .allColumns
    (Drafted.draft q s).itemReferences = argument.mentions.map (·.movedOnto aggregateSymbol) ∧
    ((∀ r ∈ (Drafted.draft q s).itemReferences, r.qualifier? = some aggregateSymbol) ↔
      ∀ source, Reference.wildcard source ∈ argument.mentions → source = some aggregateSymbol) ∧
    ∀ column, (Drafted.draft q s).firstArgument? =
        some (Sign.column ⟨column, some aggregateSymbol⟩) ↔
      ∃ f, argument.soleColumn? s.dialect = some f ∧ f.name = column := by
  intro argument
  obtain ⟨rows, hrows, hdraft⟩ := exists_drafted_aggregate haggregation hwrapped s
  rw [hdraft] at hsuccess ⊢
  have hitems := (a.mentions_draft_relocate aggregateSymbol s).itemReferences_eq hrows hsuccess
  refine ⟨hitems, ?_, fun column => ?_⟩
  · rw [hitems]
    exact Reference.forall_qualifier?_movedOnto_iff
  · rw [a.draft_relocate] at hsuccess ⊢
    rw [Draft.append_assoc _ (.text " FROM ")] at hsuccess ⊢
    have hargument := Draft.failure_argument hsuccess
    obtain ⟨parts, hreads, -⟩ := ((argument.relocate aggregateSymbol).mentions_draft s).1 hargument
    rw [Draft.firstArgument?_eq hreads (.lead trivial hrows) hsuccess, Option.some.injEq,
      Expression.signs_draft_eq_column_iff hargument, Expression.soleColumn?_relocate,
      Option.map_eq_some_iff]
    refine exists_congr fun f => and_congr_right fun _ => ?_
    simp [Field.withSource]

/-- The sum of the different values of a column, which may be called something else. -/
def Query.distinctSum (alias? : Option String) : Query :=
  let values := ((Query.ofTable "T").project (.ofField ⟨"A", none⟩) alias?).withDistinct
  values.aggregate ⟨.sum, some (.ofField ⟨"A", none⟩)⟩

/-- A column under its own name. -/
theorem Query.references_aggregate_distinctSum :
    let draft := Drafted.draft (distinctSum none) (.outermost .postgreSql .standard .bound)
    draft.failure = none ∧
      (∀ r ∈ draft.itemReferences, r.qualifier? = some aggregateSymbol) ∧
      draft.firstArgument? = some (Sign.column ⟨"A", some aggregateSymbol⟩) := by
  intro draft
  have hsuccess : draft.failure = none := rfl
  obtain ⟨-, hqualifiers, hargument⟩ :=
    references_aggregate (q := distinctSum none) rfl rfl hsuccess
  refine ⟨hsuccess, hqualifiers.mpr fun source hmem => ?_, (hargument "A").mpr ⟨_, rfl, rfl⟩⟩
  cases List.mem_singleton.mp hmem

/-- A column that is called something else, and is looked for under its own name. -/
theorem Query.text_distinctSum :
    renderInline (distinctSum (some "x")) .sqlServer .standard =
        .ok "SELECT SUM([agg_t].[A]) FROM (SELECT DISTINCT [A] AS [x] FROM [T]) agg_t" ∧
      (∃ item ∈ (distinctSum (some "x")).selection,
        (item.expression == .ofField ⟨"A", none⟩) = true ∧ item.outputName? = some "x") ∧
      (Drafted.draft (distinctSum (some "x"))
          (.outermost .sqlServer .standard .inline)).firstArgument? =
        some (Sign.column ⟨"A", some aggregateSymbol⟩) :=
  ⟨by decide +kernel, ⟨_, List.mem_singleton.mpr rfl, by decide +kernel, rfl⟩, by decide +kernel⟩

end DialectSql
