import DialectSql.Proofs.RowNumber.Walk
import DialectSql.Rendering

/-!
# Columns of row numbers

A wrapper that numbers rows names the column of the numbers by the subqueries around it, and so a
star never meets the column of a query and one of its FROM under the same name. Siblings stand below
the same number of subqueries, and the columns of two derived tables that are joined can have the
same name.

## Main definitions

* `Draft.queries` — what can be a query in a draft
* `Clauses.Sourced` — what is known of the clauses of a query

## Main results

* `Query.selects_draft`, `QuerySet.selects_draft` — the columns of nested queries and set operations
* `Statement.nodup_exposed` — the columns that a star meets in a query of a statement are different,
  except where derived tables are joined that share one
-/

namespace DialectSql

open Text Draft

variable {s : Setting} {d : Dialect} {k : Nat} {a b : Draft}

/-! ## Clauses -/

/-- What is known of the clauses of a query that hold statements: the FROM numbers its columns
further in, and the conditions are operands. -/
structure Clauses.Sourced (d : Dialect) (c : Clauses) : Prop where
  /-- What the query reads. -/
  source : ∀ s : Setting, s.dialect = d → Reaches d (s.depth + 1) .source [] (c.source s)
  /-- The condition on the rows that are read. -/
  filter : ∀ f ∈ c.filter, ∀ s : Setting, s.dialect = d → Quiet (f s)
  /-- The condition on groups. -/
  having : ∀ f ∈ c.having, ∀ s : Setting, s.dialect = d → Quiet (f s)

theorem Clauses.Sourced.quiet_filter {c : Clauses} (hc : c.Sourced s.dialect) :
    ∀ a ∈ c.filter.map (· s), Quiet a := by
  intro a ha
  obtain ⟨f, hf, rfl⟩ := Option.map_eq_some_iff.mp ha
  exact hc.filter f hf s rfl

theorem closes_whereDraft {filter limit : Option Draft} (hfilter : ∀ a ∈ filter, Quiet a)
    (hlimit : ∀ a ∈ limit, Settled a) : Closes (whereDraft filter limit) := by
  have hkeyword : Rests (.text " WHERE ") := .text rfl
  cases filter with
  | none =>
    cases limit with
    | none => exact .empty
    | some l => exact (hkeyword.append (hlimit l rfl)).closes
  | some f =>
    cases limit with
    | none => exact (hkeyword.append (hfilter f rfl).settled).closes
    | some l =>
      have hparens : Settled f.parens := (Quiet.parens (hfilter f rfl).fresh).settled
      exact (((hkeyword.append hparens).append (.text _)).append (hlimit l rfl)).closes

theorem closes_orderDraft (s : Setting) (orders : List Order) : Closes (orderDraft s orders) := by
  have horders : Quiet (.list (orders.map (·.draft s))) :=
    .items fun o _ => (o.composed_draft s).quiet
  have hkeyword : Rests (.text " ORDER BY ") := .text rfl
  unfold orderDraft
  split
  · exact .empty
  · exact (hkeyword.append horders.settled).closes

/-- The limit of numbered rows in front of the projection is no column. -/
theorem moves_top (d : Dialect) (k count : Nat) :
    Moves d k .head .head [] (.text ("TOP " ++ natural count ++ " ")) := by
  have hwords : words ("TOP " ++ natural count ++ " ") = ["TOP", natural count] := by
    rw [words_append_of_opensApart rfl, words_append_of_closesApart rfl, words_natural]
    rfl
  have hnumber : Place.head.behindWord (natural count) = .head := by
    simp [Place.behindWord, natural_ne (w := "FROM") rfl, natural_ne (w := "AS") rfl,
      natural_ne (w := "ROWNUM") rfl]
  have hafter : Place.head.after ((["TOP", natural count].map Leaf.word).map .leaf) = .head :=
    hnumber
  have hmoves := Moves.text hwords d k .head
  rw [hafter] at hmoves
  exact hmoves

namespace Query

variable {q : Query} {c : Clauses}

theorem moves_headDraft (top : Option UInt64) : Moves d k .start .head [] (q.headDraft top) := by
  have hselect : Moves d k .start .head [] (.text "SELECT ") := Moves.text rfl d k .start
  have hdistinct : Moves d k .head .head [] (if q.distinct then .text "DISTINCT " else .empty) := by
    split
    · exact Moves.text rfl d k .head
    · exact .empty
  unfold headDraft
  cases top with
  | none => exact (hselect.append hdistinct).append .empty
  | some count => exact (hselect.append hdistinct).append (moves_top d k count.toNat)

/-- The names of projected columns are identifiers. -/
theorem moves_projectionDraft (s : Setting) : Moves d k .head .head [] (q.projectionDraft s) := by
  have hitem : ∀ p : Projection, Moves d k .head .head [] (p.draft s) := by
    intro p
    have hexpression : Moves d k .head .head [] (p.expression.draft s) :=
      (p.expression.composed_draft s).quiet.moves rfl d k
    have has : Moves d k .head .naming [] (.text " AS ") := Moves.text rfl d k .head
    unfold Projection.draft
    split
    · exact (hexpression.append has).append (.quoted _ d k .naming)
    · exact hexpression
  unfold projectionDraft
  split
  · exact Moves.text rfl d k .head
  · exact .list (List.forall_mem_map.mpr fun p _ => hitem p)

/-- FROM, WHERE, GROUP BY and HAVING. -/
theorem reaches_bodyDraft (hc : c.Sourced s.dialect) {limit : Option Draft}
    (hlimit : ∀ a ∈ limit, Settled a) :
    Reaches s.dialect (s.depth + 1) .head [] (q.bodyDraft c limit s) := by
  have hgroup : Closes (if q.groupBy.isEmpty then .empty
      else .text " GROUP BY " ++ .list (q.groupBy.map (·.draft s))) := by
    have hitems : Quiet (.list (q.groupBy.map (·.draft s))) :=
      .items fun e _ => (e.composed_draft s).quiet
    have hkeyword : Rests (.text " GROUP BY ") := .text rfl
    split
    · exact .empty
    · exact (hkeyword.append hitems.settled).closes
  have hfrom : Moves s.dialect (s.depth + 1) .head .source [] (.text " FROM ") :=
    Moves.text rfl _ _ .head
  have hkeyword : Rests (.text " HAVING ") := .text rfl
  unfold bodyDraft
  refine (((Reaches.behind hfrom (hc.source s rfl)).closed
    (closes_whereDraft hc.quiet_filter hlimit)).closed hgroup).closed ?_
  split
  · next f hf => exact (hkeyword.append (hc.having f hf s rfl).settled).closes
  · exact .empty

/-- A query without wrappers has no column of its own. -/
theorem reaches_unpagedDraft (hc : c.Sourced s.dialect) (top : Option UInt64) {limit : Option Draft}
    (hlimit : ∀ a ∈ limit, Settled a) :
    Reaches s.dialect (s.depth + 1) .start [] (q.unpagedDraft c top limit s) := by
  have hselect := (moves_headDraft (q := q) (d := s.dialect) (k := s.depth + 1) top).append
    (moves_projectionDraft (q := q) s)
  exact (Reaches.behind hselect (reaches_bodyDraft hc hlimit)).closed (closes_orderDraft s q.orders)

theorem selects_unpagedDraft (hc : c.Sourced s.dialect) (top : Option UInt64) {limit : Option Draft}
    (hlimit : ∀ a ∈ limit, Settled a) :
    Selects s.dialect (s.depth + 1) (q.unpagedDraft c top limit s) :=
  (reaches_unpagedDraft hc top hlimit).selects

/-- The projected number of a row names a column. -/
theorem moves_rowNumberDraft (hd : s.dialect.rowLimiting = .numbering) (k : Nat)
    (orders : List Order) :
    Moves s.dialect k .head .head [rowNumberWord s.dialect s.depth]
      (rowNumberDraft (rowNumberName "rownum" s) (overDraft s orders)) := by
  have hover : Settled (overDraft s orders) := by
    have hnull : Fresh (.text "SELECT NULL") := ReadsAs.leaves (.text _) (.of_named_nil rfl)
    have horders : Quiet (.list (orders.map (·.draft s))) :=
      .items fun o _ => (o.composed_draft s).quiet
    unfold overDraft
    split
    · exact (Quiet.parens hnull).settled
    · exact horders.settled
  have horder : Fresh (.text "ORDER BY " ++ overDraft s orders) := hover.fresh rfl
  have hnumber : Quiet (.text ", ROW_NUMBER" ++ empty.parens ++ .text " OVER " ++
      (.text "ORDER BY " ++ overDraft s orders : Draft).parens) :=
    (((Quiet.text rfl).append (.parens Quiet.empty.fresh)).append (.text rfl)).append
      (.parens horder)
  -- The window is between parentheses, so only the AS names a column.
  have hwords : words (" AS " ++ rowNumberName "rownum" s) =
      ["AS", rowNumberWord s.dialect s.depth] := by
    rw [words_append_of_closesApart rfl, (words_rowNumberName s).1 hd]
    rfl
  have hcolumn : Moves s.dialect k .head .head [rowNumberWord s.dialect s.depth]
      (.text (" AS " ++ rowNumberName "rownum" s)) := Moves.text hwords _ k .head
  exact (hnumber.moves rfl _ k).append hcolumn

/-- Rows with their numbers: a query with a column of its own. -/
theorem reaches_numberedDraft (hd : s.dialect.rowLimiting = .numbering)
    (hc : c.Sourced s.dialect) :
    Reaches s.dialect (s.depth + 1) .start [rowNumberWord s.dialect s.depth]
      (q.numberedDraft c (rowNumberName "rownum" s) s) := by
  have hselect : ∀ (t : Setting) (k : Nat),
      Moves s.dialect k .start .head [] (q.headDraft none ++ q.projectionDraft t) :=
    fun t _ => (moves_headDraft none).append (moves_projectionDraft t)
  unfold numberedDraft
  split
  -- The rows further in are a subquery deeper than the number.
  · have hstar : Moves s.dialect (s.depth + 1) .start .head [] (.text "SELECT *") :=
      Moves.text rfl _ _ .start
    have hfrom : Moves s.dialect (s.depth + 1) .head .source [] (.text " FROM ") :=
      Moves.text rfl _ _ .head
    have hrows : Selects s.dialect (s.depth + 1)
        (q.headDraft none ++ q.projectionDraft s.nested ++ q.bodyDraft c none s.nested) :=
      (Reaches.behind (hselect s.nested _)
        (reaches_bodyDraft (s := s.nested) hc (by simp))).selects.mono (Nat.le_succ _)
    exact ((hstar.append (moves_rowNumberDraft hd _ _)).append hfrom).wrapper hrows _
  · exact Reaches.behind ((hselect s _).append (moves_rowNumberDraft hd _ q.orders))
      (reaches_bodyDraft hc (by simp))

theorem selects_numberingDraft (hd : s.dialect.rowLimiting = .numbering)
    (hc : c.Sourced s.dialect) : Selects s.dialect s.depth (q.numberingDraft c s) := by
  unfold numberingDraft
  split
  · exact (selects_unpagedDraft hc q.take (by simp)).mono (Nat.le_succ _)
  · have hselect : Moves s.dialect s.depth .start .head [] (.text "SELECT ") :=
      Moves.text rfl _ _ .start
    have hfrom : Moves s.dialect s.depth .head .source [] (.text "* FROM ") :=
      Moves.text rfl _ _ .head
    -- The wrapper itself names no column: its star takes up that of the numbered rows.
    have hrows := (reaches_numberedDraft (q := q) hd hc).selects_numbered
    dsimp only
    refine ((Moves.wrapper ((hselect.append (?htop : Moves _ _ _ .head [] _)).append hfrom)
      hrows _).closed ?_).selects
    case htop =>
      split
      · exact moves_top _ _ _
      · exact .empty
    split
    · exact .empty
    · exact .text _

theorem selects_pseudoColumnDraft (hd : s.dialect.rowLimiting = .pseudoColumn)
    (hc : c.Sourced s.dialect) : Selects s.dialect s.depth (q.pseudoColumnDraft c s) := by
  have hwhole : Selects s.dialect (s.depth + 1) (q.unpagedDraft c none none s) :=
    selects_unpagedDraft hc none (by simp)
  have hstar : ∀ k, Moves s.dialect k .start .source [] (.text "SELECT * FROM ") :=
    fun k => Moves.text rfl _ k .start
  unfold pseudoColumnDraft
  split
  · exact hwhole.mono (Nat.le_succ _)
  · have hwords : words ("SELECT " ++ pagingSymbol ++ ".*, ROWNUM " ++
        rowNumberName "paging_rownumber" s ++ " FROM ") =
        ["SELECT", "PAGING_T", "ROWNUM", rowNumberWord s.dialect s.depth, "FROM"] := by
      rw [words_append_of_opensApart rfl, words_append_of_closesApart rfl,
        (words_rowNumberName s).2 hd]
      rfl
    have hcolumn : Moves s.dialect (s.depth + 1) .start .source [rowNumberWord s.dialect s.depth]
        (.text ("SELECT " ++ pagingSymbol ++ ".*, ROWNUM " ++ rowNumberName "paging_rownumber" s ++
          " FROM ")) := Moves.text hwords _ _ .start
    dsimp only
    -- The rows are numbered in the inner one of two wrappers and skipped in the outer one.
    refine ((hstar _).wrapper ?_ _).selects
    refine ((hcolumn.wrapper hwhole _).closed ?_).selects_numbered
    split
    · exact (Closes.text _).append (.text _)
    · exact .empty
  · split
    · exact (((hstar _).wrapper hwhole _).closed (.text _)).selects.mono (Nat.le_succ _)
    · refine (selects_unpagedDraft hc none fun a ha => ?_).mono (Nat.le_succ _)
      cases ha
      exact .text _

theorem selects_pagedDraft (hc : c.Sourced s.dialect) :
    Selects s.dialect s.depth (q.pagedDraft c s) := by
  unfold pagedDraft
  split
  · next hd => exact selects_numberingDraft hd hc
  · next hd => exact selects_pseudoColumnDraft hd hc
  · refine ((selects_unpagedDraft hc none (by simp)).closed ?_).mono (Nat.le_succ _)
    generalize RowLimiting.limitClause? _ q.skip q.take = clause?
    cases clause? with
    | none => exact .empty
    | some clause => cases clause <;> first | exact .empty | exact .text _

theorem selects_aggregateDraft (hc : c.Sourced s.dialect) (a : Aggregation) :
    Selects s.dialect s.depth (q.aggregateDraft c a s) := by
  have hselect : ∀ e : Expression, Moves s.dialect (s.depth + 1) .start .source []
      (.text "SELECT " ++ e.draft s ++ .text " FROM ") := by
    intro e
    have hkeyword : Moves s.dialect (s.depth + 1) .start .head [] (.text "SELECT ") :=
      Moves.text rfl _ _ .start
    have hfrom : Moves s.dialect (s.depth + 1) .head .source [] (.text " FROM ") :=
      Moves.text rfl _ _ .head
    exact (hkeyword.append ((e.composed_draft s).quiet.moves rfl _ _)).append hfrom
  have hrows : Selects s.dialect (s.depth + 1) (q.pagedDraft c s.nested) :=
    selects_pagedDraft (s := s.nested) hc
  unfold aggregateDraft
  split
  · exact ((hselect _).wrapper hrows _).selects.mono (Nat.le_succ _)
  · exact ((Reaches.behind (hselect _) (hc.source s rfl)).closed
      (closes_whereDraft hc.quiet_filter (by simp))).selects.mono (Nat.le_succ _)

/-- A query from its clauses. -/
theorem selects_clausesDraft (hc : c.Sourced s.dialect) :
    Selects s.dialect s.depth (q.clausesDraft c s) := by
  unfold clausesDraft
  split
  · exact selects_aggregateDraft hc _
  · exact selects_pagedDraft hc

end Query

/-! ## Sources and set operations -/

/-- What is known of a source: behind a FROM and between parentheses alike it moves a reader to
where a join or the next clause can stand. -/
def Sourced (d : Dialect) (k : Nat) (a : Draft) : Prop :=
  ∀ p : Place, p.isFrom = true →
    ∃ q : Place, (q = .source ∨ q = .condition) ∧ Moves d k p q [] a

theorem Sourced.reaches (h : Sourced d k a) {p : Place} (hp : p.isFrom = true) :
    Reaches d k p [] a := by
  obtain ⟨q, hq, hmoves⟩ := h p hp
  rcases hq with rfl | rfl
  · exact ⟨.source, rfl, hmoves⟩
  · exact ⟨.condition, rfl, hmoves⟩

theorem Sourced.settled (h : Sourced d k a) : Settled a := by
  obtain ⟨q, -, hmoves⟩ := h .source rfl
  exact hmoves.settled

/-- Tables have no columns of row numbers. -/
theorem Table.sourced_draft (t : Table) : Sourced d k t.draft := by
  have hquoted : ∀ (name : String) (p : Place), p.isFrom = true →
      Moves d k p .source [] (.quoted name) := by
    intro name p hp
    cases p with
    | start => exact .quoted name d k .start
    | source => exact .quoted name d k .source
    | head | naming | condition | rest => cases hp
  intro p hp
  refine ⟨.source, .inl rfl, ?_⟩
  unfold draft
  split
  · have hblank : Moves d k .source .source [] (.text " ") := Moves.text rfl d k .source
    exact ((hquoted _ p hp).append hblank).append (hquoted _ .source rfl)
  · exact hquoted _ p hp

/-- A subquery as a source. -/
theorem sourced_derivedDraft (h : Selects d k a) (symbol : String) :
    Sourced d k (derivedDraft a symbol) := by
  have hblank : Moves d k .source .source [] (.text " ") := Moves.text rfl d k .source
  have hsymbol : Moves d k .source .source [] (.quoted symbol) := .quoted symbol d k .source
  intro p hp
  exact ⟨.source, .inl rfl, ((h.derived hp).append hblank).append hsymbol⟩

/-- Two sources in a join, the second one between parentheses or not. -/
theorem sourced_join (kind : JoinKind) (isJoined : Bool) {on : Draft} (hl : Sourced d k a)
    (hr : Sourced d k b) (hon : Quiet on) :
    Sourced d k (a ++ .text (" " ++ kind.symbol ++ " ") ++ (if isJoined then b.parens else b) ++
      .text " ON " ++ on) := by
  have hkind : ∀ q : Place, q = .source ∨ q = .condition →
      Moves d k q .source [] (.text (" " ++ kind.symbol ++ " ")) := by
    rintro q (rfl | rfl)
    · cases kind <;> exact Moves.text rfl d k .source
    · cases kind <;> exact Moves.text rfl d k .condition
  have hword : ∀ q : Place, q = .source ∨ q = .condition →
      Moves d k q .condition [] (.text " ON ") := by
    rintro q (rfl | rfl)
    · exact Moves.text rfl d k .source
    · exact Moves.text rfl d k .condition
  have hright : ∃ q : Place, (q = .source ∨ q = .condition) ∧
      Moves d k .source q [] (if isJoined then b.parens else b) := by
    cases isJoined with
    | true => exact ⟨.source, .inl rfl, (hr.reaches (p := .start) rfl).selects.derived rfl⟩
    | false => exact hr .source rfl
  -- A join may stand on the left of another, behind whose condition the reader is then.
  intro p hp
  obtain ⟨q, hq, hmoves⟩ := hl p hp
  obtain ⟨r, hr, hmoves'⟩ := hright
  exact ⟨.condition, .inr rfl, ((((hmoves.append (hkind q hq)).append hmoves').append
    (hword r hr)).append (hon.moves rfl d k))⟩

theorem selects_wrappedOperand (h : Selects d k a) : Selects d k (wrappedOperand a) := by
  have hstar : Moves d k .start .source [] (.text "SELECT * FROM ") := Moves.text rfl d k .start
  exact (hstar.wrapper h _).selects

/-- A set operation has the columns of its first operand. -/
theorem QuerySet.selects_operandsDraft (operator : SetOperator) (orders : List Order)
    (hl : Selects s.dialect k a) (hr : Selects s.dialect k b) :
    Selects s.dialect k (operandsDraft s operator orders a b) := by
  unfold operandsDraft Draft.ofExcept
  split
  · next keyword hkeyword =>
    have hoperator : Rests (.text (" " ++ keyword ++ " ")) := by
      refine .text ?_
      unfold SetOperator.keyword at hkeyword
      revert hkeyword
      cases operator <;> cases s.dialect <;> rintro ⟨⟩ <;> rfl
    have hright : Closes (.text (" " ++ keyword ++ " ") ++ (b ++ orderDraft s orders)) :=
      (hoperator.append (hr.fresh.settled.append (closes_orderDraft s orders).settled)).closes
    dsimp only
    rw [Draft.append_assoc, Draft.append_assoc]
    exact hl.closed hright
  · exact .fail _

/-- Conditions under a connective, each in parentheses. -/
theorem Criteria.quiet_compoundDraft (op : Connective) {children : List Draft}
    (h : ∀ a ∈ children, Quiet a) : Quiet (compoundDraft op children) := by
  have hparens : ∀ a ∈ children.map Draft.parens, Quiet a :=
    List.forall_mem_map.mpr fun a ha => .parens (h a ha).fresh
  cases op with
  | not => exact (Quiet.text rfl).append (.joinWith rfl hparens)
  | and | or => exact .joinWith rfl hparens

/-! ## Statements -/

mutual

/-- A condition is an operand. -/
theorem Criteria.quiet_draft : ∀ (c : Criteria) (s : Setting), Quiet (c.draft s)
  | .expression e, s => (e.composed_draft s).quiet
  | .compound op children, s =>
    Criteria.quiet_compoundDraft op (Criteria.quiet_draftList children s)
  | .inSelect subject query op, s => by
    have hsubject : Quiet (subject.draft s) := (subject.composed_draft s).quiet
    have hop : isOperand (" " ++ op.symbol ++ " ") = true := by cases op <;> rfl
    exact hsubject.separated hop (.parens (query.selects_draft s.nested).fresh)

/-- The conditions of a list are operands. -/
theorem Criteria.quiet_draftList :
    ∀ (cs : List Criteria) (s : Setting), ∀ a ∈ Criteria.draftList cs s, Quiet a
  | [], _ => by simp [Criteria.draftList]
  | c :: cs, s => by
    rw [Criteria.draftList, List.forall_mem_cons]
    exact ⟨c.quiet_draft s, Criteria.quiet_draftList cs s⟩

/-- An optional condition is an operand in every setting. -/
theorem Criteria.quiet_draftOption :
    ∀ c? : Option Criteria, ∀ f ∈ Criteria.draftOption c?, ∀ s : Setting, Quiet (f s)
  | none => by simp [Criteria.draftOption]
  | some c => by
    rintro f ⟨⟩ s
    exact c.quiet_draft s

/-- A relation numbers its columns a subquery further in. -/
theorem Relation.sourced_draft :
    ∀ (r : Relation) (s : Setting), Sourced s.dialect (s.depth + 1) (r.draft s)
  | .table t, _ => t.sourced_draft
  | .select query _, s => sourced_derivedDraft (query.selects_draft s.nested) _
  | .set set _, s => sourced_derivedDraft (set.selects_draft s.nested) _

/-- A source numbers its columns a subquery further in. -/
theorem Source.sourced_draft :
    ∀ (r : Source) (s : Setting), Sourced s.dialect (s.depth + 1) (r.draft s)
  | .single r, s => r.sourced_draft s
  | .joined kind left right on, s =>
    sourced_join kind right.isJoined (left.sourced_draft s) (right.sourced_draft s)
      (on.quiet_draft s)

/-- The columns of a query are numbered from its own depth on. -/
theorem Query.selects_draft :
    ∀ (q : Query) (s : Setting), Selects s.dialect s.depth (q.draft s)
  | ⟨source, criteria, selection, distinct, orders, skip, take, aggregation, groupBy, having⟩,
    s => by
    have hsource : ∀ t : Setting, t.dialect = s.dialect →
        Reaches s.dialect (t.depth + 1) .source [] (source.draft t) :=
      fun t ht => ht ▸ (source.sourced_draft t).reaches rfl
    have hclauses : Clauses.Sourced s.dialect
        { source := fun s => source.draft s
          filter := Criteria.draftOption criteria
          having := Criteria.draftOption having } :=
      ⟨hsource, fun f hf t _ => Criteria.quiet_draftOption criteria f hf t,
        fun f hf t _ => Criteria.quiet_draftOption having f hf t⟩
    have hplain := fun q => Query.selects_clausesDraft (q := q) hclauses
    cases source with
    | joined kind left right on => simpa [Query.draft] using hplain _
    | single r =>
      cases r with
      | table t => simpa [Query.draft] using hplain _
      | select query alias? => simpa [Query.draft] using hplain _
      | set set alias? =>
        rw [Query.draft]
        split
        · exact set.selects_draft s
        · exact hplain _

/-- The columns of an operand are numbered from the depth of the set operation on. -/
theorem SetOperand.selects_draft :
    ∀ (o : SetOperand) (s : Setting), Selects s.dialect s.depth (o.draft s)
  | .query q, s => by
    rw [SetOperand.draft]
    split
    · exact q.selects_draft s
    · exact (selects_wrappedOperand (q.selects_draft s.nested)).mono (Nat.le_succ _)
  | .set set, s => by
    rw [SetOperand.draft]
    exact (selects_wrappedOperand (set.selects_draft s.nested)).mono (Nat.le_succ _)

/-- The columns of a set operation are numbered from its own depth on. -/
theorem QuerySet.selects_draft :
    ∀ (q : QuerySet) (s : Setting), Selects s.dialect s.depth (q.draft s)
  | ⟨operator, left, right, orders⟩, s => by
    rw [QuerySet.draft]
    exact QuerySet.selects_operandsDraft operator orders (left.selects_draft s)
      (right.selects_draft s)

end

/-! ## Changes -/

theorem Setting.quiet_changeName (s : Setting) (name : String) : Quiet (s.changeName name) := by
  unfold changeName
  split
  · exact .bare name
  · exact .quoted name

namespace Assignment

theorem quiet_valueDraft (a : Assignment) (s : Setting) : Quiet (a.valueDraft s) := by
  obtain ⟨v, hvalue⟩ | ⟨e, -, hvalue⟩ := a.valueDraft_cases s
  · rw [hvalue]
    exact (OperandDraft.constant (d := s.dialect) v).quiet
  · rw [hvalue]
    exact (e.composed_draft s).quiet

theorem quiet_draft (a : Assignment) (s : Setting) : Quiet (a.draft s) := by
  have hcolumn : Quiet (a.columnDraft s) := s.quiet_changeName _
  have hvalue := a.quiet_valueDraft s
  rw [draft_eq_ite]
  split
  · exact hcolumn.separated rfl (hcolumn.separated rfl hvalue)
  · exact hcolumn.separated rfl hvalue

end Assignment

namespace Change

variable (c : Change)

theorem settled_headDraft (s : Setting) : Settled (c.headDraft s) := by
  unfold headDraft
  split
  · split
    · exact ((s.quiet_changeName _).separated rfl (s.quiet_changeName _)).settled
    · exact (s.quiet_changeName _).settled
  · exact (Source.sourced_draft _ s).settled

theorem settled_filterDraft (s : Setting) : Settled (c.filterDraft s) := by
  refine (closes_whereDraft (fun a ha => ?_) (by simp)).settled
  obtain ⟨f, hf, rfl⟩ := Option.map_eq_some_iff.mp ha
  exact Criteria.quiet_draftOption c.criteria f hf s

theorem fresh_insertDraft (s : Setting) (table : Table) : Fresh (c.insertDraft s table) := by
  have hnone : Settled Draft.empty.parens := (Quiet.parens Quiet.empty.fresh).settled
  have hnothing : Settled (insertNothing s.dialect) := by
    unfold insertNothing
    split
    · exact (((Settled.text _).append hnone).append (.text _)).append hnone
    · exact .text _
  have hlist : ∀ f : Draft × Draft → Draft, (∀ a : Assignment, Quiet (f (a.pair s))) →
      Settled (Draft.list ((c.assignments.map (·.pair s)).map f)).parens := by
    intro f hf
    refine (Quiet.parens (Quiet.items fun p hp => ?_).fresh).settled
    obtain ⟨a, -, rfl⟩ := List.mem_map.mp hp
    exact hf a
  have hlists := (((Settled.text " ").append (hlist (·.1) fun a => s.quiet_changeName _)).append
    (.text " VALUES ")).append (hlist (·.2) fun a => a.quiet_valueDraft s)
  unfold insertDraft
  rw [Draft.append_assoc]
  refine Settled.fresh rfl ((s.quiet_changeName _).settled.append ?_)
  split
  · exact hnothing
  · exact hlists

theorem fresh_updateDraft (s : Setting) : Fresh (c.updateDraft s) := by
  have hassigned : Settled (.list (c.assignments.map (·.draft s))) :=
    (Quiet.items fun a _ => a.quiet_draft s).settled
  have hfilter := c.settled_filterDraft s
  unfold updateDraft
  split
  · exact (Quiet.fail _).fresh
  · split
    · exact (Quiet.fail _).fresh
    · dsimp only
      split
      · simp only [Draft.append_assoc]
        exact Settled.fresh rfl ((s.quiet_changeName _).settled.append ((Settled.text _).append
          (hassigned.append ((Settled.text _).append
            ((c.source.sourced_draft s).settled.append hfilter)))))
      · simp only [Draft.append_assoc]
        exact Settled.fresh rfl ((c.settled_headDraft s).append ((Settled.text _).append
          (hassigned.append hfilter)))

theorem fresh_deleteDraft (s : Setting) : Fresh (c.deleteDraft s) := by
  have hfilter := c.settled_filterDraft s
  unfold deleteDraft
  split
  · exact (Quiet.fail _).fresh
  · split
    · simp only [Draft.append_assoc]
      exact Settled.fresh rfl ((s.quiet_changeName _).settled.append ((Settled.text _).append
        ((c.source.sourced_draft s).settled.append hfilter)))
    · simp only [Draft.append_assoc]
      exact Settled.fresh rfl ((c.settled_headDraft s).append hfilter)

/-- A change names no columns of row numbers. -/
theorem fresh_draft (s : Setting) : Fresh (c.draft s) := by
  unfold draft
  cases c.target with
  | error e => exact (Quiet.fail e).fresh
  | ok table =>
    simp only [Draft.ofExcept]
    split
    · exact c.fresh_insertDraft s table
    · exact c.fresh_updateDraft s
    · exact c.fresh_deleteDraft s

end Change

/-! ## The columns of a statement -/

/-- A draft as a reader sees it, and what stands in it between parentheses: all its queries are
among these. -/
def Draft.queries (a : Draft) : List (List (Part Leaf)) :=
  a.outline Piece.leaves :: Part.groupsIn (a.outline Piece.leaves)

/-- The queries of a draft have columns of their own, as those further in have. -/
theorem Draft.Fresh.queries (h : Fresh a) (hfailure : a.failure = none) {group : List (Part Leaf)}
    (hgroup : group ∈ a.queries) : ∀ g ∈ group :: Part.groupsIn group, Part.Fresh g := by
  obtain ⟨ps, hreads, hown, hfresh⟩ := h
  rw [Draft.queries, hreads.outline_eq hfailure] at hgroup
  intro g hg
  exact List.forall_mem_cons.mpr ⟨hown, hfresh⟩ g (Part.groupsIn_subset_of_mem hgroup hg)

/-- The columns that a star can meet in a query of a statement are different exactly if those of
each derived table in its FROM are, and no two of these share one. So they are different wherever no
FROM joins derived tables. -/
theorem Statement.nodup_exposed {t : Statement} {s : Setting}
    (h : (Drafted.draft t s).failure = none) :
    ∀ group ∈ (Drafted.draft t s).queries,
      ((Part.exposedIn .start group).Nodup ↔
        (∀ inner ∈ Part.derivedIn .start group, (Part.exposedIn .start inner).Nodup) ∧
          (Part.derivedIn .start group).Pairwise fun inner inner' =>
            (Part.exposedIn .start inner).Disjoint (Part.exposedIn .start inner')) ∧
      (Part.Unjoined group → (Part.exposedIn .start group).Nodup) := by
  have hdraft : ∀ t : Statement, Fresh (t.draft s) := by
    intro t
    cases t with
    | query q => exact (q.selects_draft s).fresh
    | set q => exact (q.selects_draft s).fresh
    | change c => exact c.fresh_draft s
  have hfresh : Fresh (Drafted.draft t s) := hdraft _
  intro group hgroup
  have hqueries := hfresh.queries h hgroup
  exact ⟨(hqueries group List.mem_cons_self).nodup_iff, fun hunjoined => hunjoined.nodup hqueries⟩

/-- Two tables whose rows are skipped and joined, with some of the joined rows skipped again. -/
def Statement.skippedJoin : Statement :=
  let rows : String → UInt64 → String → Source := fun table count symbol =>
    .ofQuery ((Query.ofTable table).withSkip count) symbol
  let join : Source := .joined .inner (rows "A" 1 "a") (rows "B" 2 "b")
    (.expression (.comparison .equal (.ofField ⟨"X", some "a"⟩) (.ofField ⟨"X", some "b"⟩)))
  .query ((Query.ofSource join).withSkip 3)

/-- The star on a join meets the columns of both members, which have the same name. -/
theorem Statement.text_skippedJoin :
    renderInline skippedJoin .sqlServer .standard =
        .ok ("SELECT * FROM (SELECT *, ROW_NUMBER() OVER (ORDER BY (SELECT NULL)) AS rownum " ++
          "FROM (SELECT * FROM (SELECT *, ROW_NUMBER() OVER (ORDER BY (SELECT NULL)) " ++
          "AS rownum_1 FROM [A]) paging_t WHERE rownum_1 > 1) [a] " ++
          "INNER JOIN (SELECT * FROM (SELECT *, ROW_NUMBER() OVER (ORDER BY (SELECT NULL)) " ++
          "AS rownum_1 FROM [B]) paging_t WHERE rownum_1 > 2) [b] " ++
          "ON [a].[X] = [b].[X]) paging_t WHERE rownum > 3 ORDER BY rownum") ∧
      ["ROWNUM", "ROWNUM_1", "ROWNUM_1"] ∈
        (Drafted.draft skippedJoin (.outermost .sqlServer .standard .inline)).queries.map
          (Part.exposedIn .start) ∧
      ¬["ROWNUM", "ROWNUM_1", "ROWNUM_1"].Nodup := by
  refine ⟨?_, ?_, by decide⟩
  · decide +kernel
  · decide +kernel

/-- Rows that are skipped behind others that are skipped. -/
def Statement.skippedTwice : Statement :=
  .query ((Query.ofSource (.ofQuery ((Query.ofTable "T").withSkip 10) "s")).withSkip 2)

theorem Statement.nodup_exposed_skippedTwice :
    Part.exposedIn .start ((Drafted.draft skippedTwice
        (.outermost .oracle .standard .bound)).outline Piece.leaves) =
      ["PAGING_ROWNUMBER", "PAGING_ROWNUMBER_1"] ∧
      (Part.exposedIn .start ((Drafted.draft skippedTwice
        (.outermost .oracle .standard .bound)).outline Piece.leaves)).Nodup :=
  ⟨by decide +kernel, (nodup_exposed rfl _ List.mem_cons_self).2 (by decide +kernel)⟩

end DialectSql
