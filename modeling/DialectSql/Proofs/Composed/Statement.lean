import DialectSql.Proofs.Composed
import DialectSql.Rendering

/-!
# Composed statements

Queries, set operations, sources and conditions are composed drafts in every setting, whatever is in
their clauses. So is a change that is not refused at once.

## Main definitions

* `AnyDraft` — composed drafts of any texts
* `Clauses.Composed` — what is known of the clauses of a query

## Main results

* `Query.composed_clausesDraft` — a query from its clauses
* `Query.composed_draft`, `QuerySet.composed_draft`, `Source.composed_draft`,
  `Criteria.composed_draft` — whole statements
* `Query.exists_clausesDraft` — a query with a clause of its own
* `Change.composed_headDraft`, `Change.composed_insertDraft`, … — the parts of changes
-/

namespace DialectSql

open Draft

/-- Composed drafts of any texts. -/
abbrev AnyDraft (d : Dialect) (a : Draft) : Prop := a.Composed d fun _ => True

/-- No word is kept out of a statement. -/
theorem OperandDraft.any {d : Dialect} {a : Draft} (h : OperandDraft d a) : AnyDraft d a :=
  h.mono fun _ _ => trivial

variable {s : Setting} {d : Dialect} {a b : Draft}

/-! ## Clauses -/

/-- The clauses of a query that hold statements are composed in every setting of the dialect. -/
structure Clauses.Composed (d : Dialect) (c : Clauses) : Prop where
  /-- What the query reads. -/
  source : ∀ s : Setting, s.dialect = d → AnyDraft d (c.source s)
  /-- The condition on the rows that are read. -/
  filter : ∀ f ∈ c.filter, ∀ s : Setting, s.dialect = d → AnyDraft d (f s)
  /-- The condition on groups. -/
  having : ∀ f ∈ c.having, ∀ s : Setting, s.dialect = d → AnyDraft d (f s)

theorem composed_whereDraft {filter limit : Option Draft} (hfilter : ∀ a ∈ filter, AnyDraft d a)
    (hlimit : ∀ a ∈ limit, AnyDraft d a) : AnyDraft d (whereDraft filter limit) := by
  cases filter with
  | none =>
    cases limit with
    | none => exact .empty
    | some l => exact .lead trivial (hlimit l rfl)
  | some f =>
    cases limit with
    | none => exact .lead trivial (hfilter f rfl)
    | some l => exact .separated (.lead trivial (.parens (hfilter f rfl))) trivial (hlimit l rfl)

theorem composed_orderDraft (s : Setting) (orders : List Order) :
    AnyDraft s.dialect (orderDraft s orders) :=
  .ite .empty (.lead trivial (.items (fun o _ => (o.composed_draft s).any) trivial))

namespace Query

variable (q : Query)

theorem composed_headDraft (top : Option UInt64) : AnyDraft d (q.headDraft top) := by
  refine .append (.append (.text trivial) (.ite (.text trivial) .empty)) ?_
  cases top with
  | none => exact .empty
  | some count => exact .text trivial

theorem composed_projectionDraft : AnyDraft s.dialect (q.projectionDraft s) :=
  .ite (.text trivial)
    (.items (fun p _ => p.composed_draft (fun _ _ => trivial) trivial s) trivial)

/-- The projected number of a row, counted by some orders. -/
theorem composed_rowNumberDraft (s : Setting) (column : String) (orders : List Order) :
    AnyDraft s.dialect (rowNumberDraft column (overDraft s orders)) := by
  have horders : AnyDraft s.dialect (overDraft s orders) :=
    .ite (.parens (.text trivial)) (.items (fun o _ => (o.composed_draft s).any) trivial)
  exact .append (.separated (.lead trivial (.parens .empty)) trivial
    (.parens (.lead trivial horders))) (.text trivial)

section Clauses

variable {q} {c : Clauses} (hc : c.Composed s.dialect)
include hc

theorem composed_filter : ∀ a ∈ c.filter.map (· s), AnyDraft s.dialect a := by
  intro a ha
  obtain ⟨f, hf, rfl⟩ := Option.map_eq_some_iff.mp ha
  exact hc.filter f hf s rfl

theorem composed_bodyDraft {limit : Option Draft} (hlimit : ∀ a ∈ limit, AnyDraft s.dialect a) :
    AnyDraft s.dialect (q.bodyDraft c limit s) := by
  have hgroup : AnyDraft s.dialect (if q.groupBy.isEmpty then .empty
      else .text " GROUP BY " ++ .list (q.groupBy.map (·.draft s))) :=
    .ite .empty (.lead trivial (.items (fun e _ => (e.composed_draft s).any) trivial))
  refine .append (.append (.append (.lead trivial (hc.source s rfl))
    (composed_whereDraft (composed_filter hc) hlimit)) hgroup) ?_
  split
  · next f hf => exact .lead trivial (hc.having f hf s rfl)
  · exact .empty

theorem composed_unpagedDraft (top : Option UInt64) {limit : Option Draft}
    (hlimit : ∀ a ∈ limit, AnyDraft s.dialect a) :
    AnyDraft s.dialect (q.unpagedDraft c top limit s) :=
  .append (.append (.append (q.composed_headDraft top) q.composed_projectionDraft)
    (composed_bodyDraft hc hlimit)) (composed_orderDraft s q.orders)

/-- A query that limits nothing by itself. -/
theorem composed_whole (top : Option UInt64) : AnyDraft s.dialect (q.unpagedDraft c top none s) :=
  composed_unpagedDraft hc top (by simp)

theorem composed_numberedDraft (column : String) :
    AnyDraft s.dialect (q.numberedDraft c column s) := by
  have hhead : AnyDraft s.dialect (q.headDraft none) := q.composed_headDraft none
  unfold numberedDraft
  split
  · have hrows : AnyDraft s.dialect
        (q.headDraft none ++ q.projectionDraft s.nested ++ q.bodyDraft c none s.nested) :=
      .append (.append hhead (composed_projectionDraft (s := s.nested) q))
        (composed_bodyDraft (s := s.nested) hc (by simp))
    exact .append (.separated (.lead trivial (composed_rowNumberDraft s column _)) trivial
      (.parens hrows)) (.text trivial)
  · exact .append (.append (.append hhead q.composed_projectionDraft)
      (composed_rowNumberDraft s column _)) (composed_bodyDraft hc (by simp))

theorem composed_numberingDraft : AnyDraft s.dialect (q.numberingDraft c s) := by
  unfold numberingDraft
  split
  · exact composed_whole hc _
  · dsimp only
    refine .append (.append (.separated (.lead trivial ?_) trivial
      (.parens (composed_numberedDraft hc _))) (.text trivial)) (.ite .empty (.text trivial))
    split
    · exact .text trivial
    · exact .empty

theorem composed_pseudoColumnDraft : AnyDraft s.dialect (q.pseudoColumnDraft c s) := by
  have hcap : ∀ cap, AnyDraft s.dialect (rowNumCap cap) := fun _ => .text trivial
  unfold pseudoColumnDraft
  split
  · exact composed_whole hc none
  · dsimp only
    refine .append (.lead trivial (.parens (.append (.append (.lead trivial (.parens
      (composed_whole hc none))) (.text trivial)) ?_))) (.text trivial)
    split
    · exact .lead trivial (hcap _)
    · exact .empty
  · next take _ _ =>
    split
    · exact .separated (.lead trivial (.parens (composed_whole hc none))) trivial (hcap _)
    · refine composed_unpagedDraft hc none fun a ha => ?_
      cases ha
      exact hcap _

theorem composed_pagedDraft : AnyDraft s.dialect (q.pagedDraft c s) := by
  unfold pagedDraft
  split
  · exact composed_numberingDraft hc
  · exact composed_pseudoColumnDraft hc
  · refine .append (composed_whole hc none) ?_
    generalize RowLimiting.limitClause? _ q.skip q.take = clause?
    cases clause? with
    | none => exact .empty
    | some clause => cases clause <;> first | exact .empty | exact .text trivial

theorem composed_aggregateDraft (a : Aggregation) :
    AnyDraft s.dialect (q.aggregateDraft c a s) := by
  have hexpression : ∀ e : Expression, AnyDraft s.dialect (e.draft s) :=
    fun e => (e.composed_draft s).any
  have hrows : AnyDraft s.dialect (q.pagedDraft c s.nested) :=
    composed_pagedDraft (s := s.nested) hc
  unfold aggregateDraft
  split
  · exact .append (.separated (.lead trivial (hexpression _)) trivial (.parens hrows))
      (.text trivial)
  · exact .append (.separated (.lead trivial (hexpression _)) trivial (hc.source s rfl))
      (composed_whereDraft (composed_filter hc) (by simp))

/-- A query is composed if its clauses are. -/
theorem composed_clausesDraft : AnyDraft s.dialect (q.clausesDraft c s) := by
  unfold clausesDraft
  split
  · exact composed_aggregateDraft hc _
  · exact composed_pagedDraft hc

end Clauses

end Query

/-! ## Sources and set operations -/

theorem composed_wrappedOperand (h : AnyDraft d a) : AnyDraft d (wrappedOperand a) :=
  .append (.lead trivial (.parens h)) (.text trivial)

/-- A set operation is composed if its operands are. The dialect may lack its operator. -/
theorem QuerySet.composed_operandsDraft (operator : SetOperator) (orders : List Order)
    (hl : AnyDraft s.dialect a) (hr : AnyDraft s.dialect b) :
    AnyDraft s.dialect (operandsDraft s operator orders a b) := by
  unfold operandsDraft Draft.ofExcept
  split
  · exact .append (.separated hl trivial hr) (composed_orderDraft s orders)
  · next e he =>
    unfold SetOperator.keyword at he
    cases operator <;> cases hd : s.dialect <;>
      simp [hd, Dialect.supportsIntersectExcept] at he <;> subst he
    · exact .missing (by decide)
    · exact .missing (by decide)

theorem Table.composed_draft (t : Table) : AnyDraft d t.draft := by
  unfold draft
  split
  · exact .separated (.quoted _) trivial (.quoted _)
  · exact .quoted _

theorem composed_derivedDraft (h : AnyDraft d a) (symbol : String) :
    AnyDraft d (derivedDraft a symbol) :=
  .separated (.parens h) trivial (.quoted symbol)

theorem Criteria.composed_compoundDraft (op : Connective) {children : List Draft}
    (h : ∀ a ∈ children, AnyDraft d a) : AnyDraft d (compoundDraft op children) := by
  have hparens : ∀ a ∈ children.map Draft.parens, AnyDraft d a :=
    List.forall_mem_map.mpr fun a ha => .parens (h a ha)
  cases op with
  | not => exact .lead trivial (.joinWith hparens trivial)
  | and | or => exact .joinWith hparens trivial

/-! ## Statements -/

mutual

/-- A condition is composed. -/
theorem Criteria.composed_draft : ∀ (c : Criteria) (s : Setting), AnyDraft s.dialect (c.draft s)
  | .expression e, s => (e.composed_draft s).any
  | .compound op children, s =>
    Criteria.composed_compoundDraft op (Criteria.composed_draftList children s)
  | .inSelect subject query _, s =>
    .separated (subject.composed_draft s).any trivial (.parens (query.composed_draft s.nested))

/-- The conditions of a list are composed. -/
theorem Criteria.composed_draftList :
    ∀ (cs : List Criteria) (s : Setting), ∀ a ∈ Criteria.draftList cs s, AnyDraft s.dialect a
  | [], _ => by simp [Criteria.draftList]
  | c :: cs, s => by
    rw [Criteria.draftList, List.forall_mem_cons]
    exact ⟨c.composed_draft s, Criteria.composed_draftList cs s⟩

/-- An optional condition is composed in every setting. -/
theorem Criteria.composed_draftOption (d : Dialect) :
    ∀ c? : Option Criteria, ∀ f ∈ Criteria.draftOption c?, ∀ s : Setting, s.dialect = d →
      AnyDraft d (f s)
  | none => by simp [Criteria.draftOption]
  | some c => by
    rintro f ⟨⟩ s rfl
    exact c.composed_draft s

/-- A relation is composed. -/
theorem Relation.composed_draft : ∀ (r : Relation) (s : Setting), AnyDraft s.dialect (r.draft s)
  | .table t, _ => t.composed_draft
  | .select query _, s => composed_derivedDraft (query.composed_draft s.nested) _
  | .set set _, s => composed_derivedDraft (set.composed_draft s.nested) _

/-- A source is composed. -/
theorem Source.composed_draft : ∀ (r : Source) (s : Setting), AnyDraft s.dialect (r.draft s)
  | .single r, s => r.composed_draft s
  | .joined kind left right on, s => by
    have hr : AnyDraft s.dialect (right.draft s) := right.composed_draft s
    rw [Source.draft]
    exact .separated (.separated (left.composed_draft s) trivial (.ite (.parens hr) hr)) trivial
      (on.composed_draft s)

/-- A query is composed. -/
theorem Query.composed_draft : ∀ (q : Query) (s : Setting), AnyDraft s.dialect (q.draft s)
  | ⟨source, criteria, selection, distinct, orders, skip, take, aggregation, groupBy, having⟩,
    s => by
    have hsource : ∀ t : Setting, t.dialect = s.dialect → AnyDraft s.dialect (source.draft t) :=
      fun t ht => ht ▸ source.composed_draft t
    have hclauses : Clauses.Composed s.dialect
        { source := fun s => source.draft s
          filter := Criteria.draftOption criteria
          having := Criteria.draftOption having } :=
      ⟨hsource, Criteria.composed_draftOption s.dialect criteria,
        Criteria.composed_draftOption s.dialect having⟩
    have hplain := fun q => Query.composed_clausesDraft (q := q) hclauses
    cases source with
    | joined kind left right on => simpa [Query.draft] using hplain _
    | single r =>
      cases r with
      | table t => simpa [Query.draft] using hplain _
      | select query alias? => simpa [Query.draft] using hplain _
      | set set alias? =>
        rw [Query.draft]
        exact .ite (set.composed_draft s) (hplain _)

/-- An operand of a set operation is composed. -/
theorem SetOperand.composed_draft :
    ∀ (o : SetOperand) (s : Setting), AnyDraft s.dialect (o.draft s)
  | .query q, s => by
    rw [SetOperand.draft]
    exact .ite (q.composed_draft s) (composed_wrappedOperand (q.composed_draft s.nested))
  | .set set, s => composed_wrappedOperand (set.composed_draft s.nested)

/-- A set operation is composed. -/
theorem QuerySet.composed_draft : ∀ (q : QuerySet) (s : Setting), AnyDraft s.dialect (q.draft s)
  | ⟨operator, left, right, orders⟩, s =>
    QuerySet.composed_operandsDraft operator orders (left.composed_draft s) (right.composed_draft s)

end

/-- A query that is more than the set operation it reads is written from its clauses. -/
theorem Query.exists_clausesDraft {q : Query} (h : q.isBare = false) (s : Setting) :
    ∃ c : Clauses, c.Composed s.dialect ∧ q.draft s = q.clausesDraft c s := by
  obtain ⟨source, criteria, selection, distinct, orders, skip, take, aggregation, groupBy,
    having⟩ := q
  have hsource : ∀ t : Setting, t.dialect = s.dialect → AnyDraft s.dialect (source.draft t) :=
    fun t ht => ht ▸ source.composed_draft t
  have hclauses : Clauses.Composed s.dialect
      { source := fun s => source.draft s
        filter := Criteria.draftOption criteria
        having := Criteria.draftOption having } :=
    ⟨hsource, Criteria.composed_draftOption s.dialect criteria,
      Criteria.composed_draftOption s.dialect having⟩
  refine ⟨_, hclauses, ?_⟩
  rcases source with (_ | _ | _) | _ <;> simp [draft, h]

/-! ## Changes -/

theorem Setting.composed_changeName (s : Setting) (name : String) :
    AnyDraft d (s.changeName name) := by
  unfold changeName
  split
  · exact .bare name
  · exact .quoted name

namespace Assignment

theorem composed_valueDraft (a : Assignment) (s : Setting) :
    AnyDraft s.dialect (a.valueDraft s) := by
  obtain ⟨v, hvalue⟩ | ⟨e, -, hvalue⟩ := a.valueDraft_cases s
  · rw [hvalue]
    exact .constant v trivial
  · rw [hvalue]
    exact (e.composed_draft s).any

/-- An item of a SET list is composed. -/
theorem composed_draft (a : Assignment) (s : Setting) : AnyDraft s.dialect (a.draft s) := by
  have hcolumn : AnyDraft s.dialect (a.columnDraft s) := s.composed_changeName _
  have hvalue := a.composed_valueDraft s
  rw [draft_eq_ite]
  split
  · exact .separated hcolumn trivial (.separated hcolumn trivial hvalue)
  · exact .separated hcolumn trivial hvalue

end Assignment

namespace Change

variable (c : Change)

theorem composed_headDraft : AnyDraft s.dialect (c.headDraft s) := by
  unfold headDraft
  split
  · split
    · exact .separated (s.composed_changeName _) trivial (s.composed_changeName _)
    · exact s.composed_changeName _
  · exact Source.composed_draft _ s

theorem composed_filterDraft : AnyDraft s.dialect (c.filterDraft s) := by
  refine composed_whereDraft (fun a ha => ?_) (by simp)
  obtain ⟨f, hf, rfl⟩ := Option.map_eq_some_iff.mp ha
  exact Criteria.composed_draftOption s.dialect c.criteria f hf s rfl

theorem composed_insertDraft (table : Table) : AnyDraft s.dialect (c.insertDraft s table) := by
  have hnothing : AnyDraft s.dialect (insertNothing s.dialect) := by
    unfold insertNothing
    split
    · exact .separated (.lead trivial (.parens .empty)) trivial (.parens .empty)
    · exact .text trivial
  have hpairs : ∀ f : Draft × Draft → Draft,
      (∀ a : Assignment, AnyDraft s.dialect (f (a.pair s))) →
      AnyDraft s.dialect (Draft.list ((c.assignments.map (·.pair s)).map f)).parens := by
    intro f hf
    refine .parens (.items (fun p hp => ?_) trivial)
    obtain ⟨a, -, rfl⟩ := List.mem_map.mp hp
    exact hf a
  unfold insertDraft
  refine .append (.lead trivial (s.composed_changeName _)) (.ite hnothing ?_)
  exact .append (.append (.lead trivial (hpairs _ fun a => s.composed_changeName _))
    (.text trivial)) (hpairs _ fun a => a.composed_valueDraft s)

/-- What an UPDATE assigns, and to which rows. -/
theorem composed_assigned (h : AnyDraft s.dialect a) :
    AnyDraft s.dialect (.text "UPDATE " ++ a ++ .text " SET " ++
      .list (c.assignments.map (·.draft s))) :=
  .separated (.lead trivial h) trivial (.items (fun a _ => a.composed_draft s) trivial)

end Change

end DialectSql
