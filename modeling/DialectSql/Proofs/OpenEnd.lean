import DialectSql.Proofs.OpenEnd.Mark
import DialectSql.Rendering

/-!
# Open ends

The dialect that numbers rows refuses a subquery with an open end: one that is closed by an ORDER BY
without a TOP. Which subqueries of a text have an open end is said of the tree: the wrappers that
number rows never have one, and a nested query or set operation has one exactly if it is ordered and
not limited.

## Main definitions

* `Query.endsOpen`, `QuerySet.endsOpen` — whether a query or set operation has an open end if it is
  nested
* `Query.hasOpenEnd`, `Statement.hasOpenEnd`, … — whether something nested further in has one

## Main results

* `Query.marked_draft`, `QuerySet.marked_draft` — nested queries and set operations
* `Statement.hasOpenEnd_draft` — whether a statement has a subquery with an open end
-/

namespace DialectSql

open Text Draft

/-! ## Nested statements -/

/-- Whether a query that is written from its clauses is closed by an order without a limit. -/
def Query.ordersUnlimited (q : Query) : Bool :=
  q.aggregation.isNone && !q.orders.isEmpty && !q.isPaged

mutual

/-- Whether a query has an open end if it is nested. A query that adds nothing to a set operation
is written as that set operation. -/
def Query.endsOpen : Query → Bool
  | ⟨source, criteria, selection, distinct, orders, skip, take, aggregation, groupBy, having⟩ =>
    let query : Query :=
      ⟨source, criteria, selection, distinct, orders, skip, take, aggregation, groupBy, having⟩
    match source with
    | .single (.set set _) => if query.isBare then set.endsOpen else query.ordersUnlimited
    | _ => query.ordersUnlimited

/-- Whether an operand that stands beside its operator brings an order with it. -/
def SetOperand.endsOpen : SetOperand → Bool
  | .query q => if q.orders.isEmpty && !q.isPaged then q.endsOpen else false
  | .set _ => false

/-- Whether a set operation has an open end if it is nested. -/
def QuerySet.endsOpen : QuerySet → Bool
  | ⟨_, left, right, orders⟩ => left.endsOpen || right.endsOpen || !orders.isEmpty

end

/-- Whether the rows below an aggregate are numbered or dropped further in, so that they are ordered
there. -/
def Query.aggregatesOrdered (q : Query) : Bool :=
  q.aggregation.isSome && !q.orders.isEmpty && !q.isPaged && q.distinct

/-- Whether a query has a condition on groups in writing. -/
def Query.writesHaving (q : Query) : Bool := q.aggregation.isNone || q.distinct || q.isPaged

mutual

/-- Whether something nested in a condition has an open end. -/
def Criteria.hasOpenEnd : Criteria → Bool
  | .expression _ => false
  | .compound _ children => Criteria.listHasOpenEnd children
  | .inSelect _ query _ => query.endsOpen || query.hasOpenEnd

/-- Whether something nested in one of some conditions has an open end. -/
def Criteria.listHasOpenEnd : List Criteria → Bool
  | [] => false
  | c :: cs => c.hasOpenEnd || Criteria.listHasOpenEnd cs

/-- Whether something nested in an optional condition has an open end. -/
def Criteria.optionHasOpenEnd : Option Criteria → Bool
  | none => false
  | some c => c.hasOpenEnd

/-- Whether a relation or something nested in it has an open end. -/
def Relation.hasOpenEnd : Relation → Bool
  | .table _ => false
  | .select query _ => query.endsOpen || query.hasOpenEnd
  | .set set _ => set.endsOpen || set.hasOpenEnd

/-- Whether something nested in a source has an open end. -/
def Source.hasOpenEnd : Source → Bool
  | .single r => r.hasOpenEnd
  | .joined _ left right on => left.hasOpenEnd || right.hasOpenEnd || on.hasOpenEnd

/-- Whether something nested in a query has an open end. -/
def Query.hasOpenEnd : Query → Bool
  | ⟨source, criteria, selection, distinct, orders, skip, take, aggregation, groupBy, having⟩ =>
    let query : Query :=
      ⟨source, criteria, selection, distinct, orders, skip, take, aggregation, groupBy, having⟩
    let clauses := source.hasOpenEnd || Criteria.optionHasOpenEnd criteria ||
      query.writesHaving && Criteria.optionHasOpenEnd having || query.aggregatesOrdered
    match source with
    | .single (.set set _) => if query.isBare then set.hasOpenEnd else clauses
    | _ => clauses

/-- Whether an operand, or something nested in it, has an open end. -/
def SetOperand.hasOpenEnd : SetOperand → Bool
  | .query q =>
    if q.orders.isEmpty && !q.isPaged then q.hasOpenEnd else q.endsOpen || q.hasOpenEnd
  | .set set => set.endsOpen || set.hasOpenEnd

/-- Whether something nested in a set operation has an open end. -/
def QuerySet.hasOpenEnd : QuerySet → Bool
  | ⟨_, left, right, _⟩ => left.hasOpenEnd || right.hasOpenEnd

end

/-- Whether something nested in a change has an open end. An INSERT writes no source. -/
def Change.hasOpenEnd (c : Change) : Bool :=
  match c.kind with
  | .insert => false
  | .update | .delete => c.source.hasOpenEnd || Criteria.optionHasOpenEnd c.criteria

/-- Whether something nested in a statement has an open end. -/
def Statement.hasOpenEnd : Statement → Bool
  | query q => q.hasOpenEnd
  | set q => q.hasOpenEnd
  | change c => c.hasOpenEnd

/-! ## Clauses -/

/-- What is known of the clauses of a query that hold statements: whether something nested in them
has an open end. -/
structure Clauses.Marked (c : Clauses) (source filter having : Bool) : Prop where
  /-- What the query reads. -/
  source : ∀ s : Setting, s.dialect = .sqlServer → Unmarked (c.source s) source
  /-- The condition on the rows that are read. -/
  filter : ∀ s : Setting, s.dialect = .sqlServer →
    Unmarked (whereDraft (c.filter.map (· s)) none) filter
  /-- The condition on groups. -/
  having : ∀ s : Setting, s.dialect = .sqlServer →
    Unmarked (match c.having with
      | some having => .text " HAVING " ++ having s
      | none => .empty) having

/-- An ORDER BY clause, if there is something to order by. -/
theorem marked_orderDraft (s : Setting) (orders : List Order) :
    Marked (orderDraft s orders) false (!orders.isEmpty) false false := by
  have horders : Unmarked (.list (orders.map (·.draft s))) false :=
    .items fun o _ => ((o.composed_draft s).mono fun _ => isInterior_of_isOperand).unmarked
  unfold orderDraft
  cases hempty : orders.isEmpty with
  | true => exact .empty
  | false =>
    have hkeyword : Marked (.text " ORDER BY ") false true false false := Marked.text _
    exact hkeyword.append horders

namespace Query

variable {q : Query} {s : Setting} {c : Clauses} {source filter having : Bool}

theorem marked_headDraft (top : Option UInt64) :
    Marked (q.headDraft top) true false top.isSome false := by
  have hselect : Marked (.text "SELECT ") true false false false := Marked.text _
  have hdistinct : Unmarked (if q.distinct then .text "DISTINCT " else .empty) false := by
    split
    · exact .interior rfl
    · exact .empty
  unfold headDraft
  cases top with
  | none => exact (hselect.append hdistinct).append .empty
  | some count => exact (hselect.append hdistinct).append (marked_top count.toNat)

theorem unmarked_projectionDraft : Unmarked (q.projectionDraft s) false := by
  unfold projectionDraft
  split
  · exact .interior rfl
  · exact .items fun p _ => (p.composed_draft (fun _ => isInterior_of_isOperand) rfl s).unmarked

theorem unmarked_bodyDraft (hs : s.dialect = .sqlServer) (hc : c.Marked source filter having) :
    Unmarked (q.bodyDraft c none s) (source || filter || having) := by
  have hgroup : Unmarked (if q.groupBy.isEmpty then .empty
      else .text " GROUP BY " ++ .list (q.groupBy.map (·.draft s))) false := by
    split
    · exact .empty
    · exact Unmarked.lead rfl (Unmarked.items fun e _ => unmarked_expression e s)
  have hfrom : Unmarked (.text " FROM " ++ c.source s) source := .lead rfl (hc.source s hs)
  unfold bodyDraft
  refine (((hfrom.append (hc.filter s hs)).append hgroup).append (hc.having s hs)).of_eq rfl rfl
    rfl ?_
  rw [Bool.or_false]

/-- A query without limits but TOP. -/
theorem marked_unpagedDraft (hs : s.dialect = .sqlServer) (hc : c.Marked source filter having)
    (top : Option UInt64) :
    Marked (q.unpagedDraft c top none s) true (!q.orders.isEmpty) top.isSome
      (source || filter || having) := by
  unfold unpagedDraft
  refine ((((marked_headDraft top).append unmarked_projectionDraft).append
    (unmarked_bodyDraft hs hc)).append (marked_orderDraft s q.orders)).of_eq ?_ ?_ ?_ ?_ <;> simp

/-- The projected number of a row. The order between its parentheses is that of no subquery. -/
theorem unmarked_rowNumberDraft (orders : List Order) :
    Unmarked (rowNumberDraft (rowNumberName "rownum" s) (overDraft s orders)) false := by
  have hover : Unmarked (overDraft s orders) false := by
    have hnull : Marked (.text "SELECT NULL") true false false false := Marked.text _
    unfold overDraft
    split
    · exact hnull.parens
    · exact .items fun o _ => ((o.composed_draft s).mono fun _ => isInterior_of_isOperand).unmarked
  have horder : Marked (.text "ORDER BY ") false true false false := Marked.text _
  have hnumber : Unmarked (.text ", ROW_NUMBER" ++ empty.parens) false :=
    .lead rfl Marked.empty.parens
  have halias : Unmarked (.text (" AS " ++ rowNumberName "rownum" s)) false := .column rfl s
  exact (hnumber.separated rfl (horder.append hover).parens).append halias

/-- The rows that are numbered have no order of their own. -/
theorem marked_numberedDraft (hs : s.dialect = .sqlServer) (hc : c.Marked source filter having) :
    Marked (q.numberedDraft c (rowNumberName "rownum" s) s) true false false
      (source || filter || having) := by
  have hhead : ∀ s, Marked (q.headDraft none ++ q.projectionDraft s) true false false false :=
    fun s => (marked_headDraft none).append unmarked_projectionDraft
  unfold numberedDraft
  split
  · have hselect : Marked (.text "SELECT *") true false false false := Marked.text _
    have hrows : Marked (q.headDraft none ++ q.projectionDraft s.nested ++
        q.bodyDraft c none s.nested) true false false (source || filter || having) :=
      (hhead s.nested).append (unmarked_bodyDraft (s := s.nested) hs hc)
    exact (((hselect.append (unmarked_rowNumberDraft _)).append (.interior rfl)).append
      hrows.parens).append (.interior rfl) |>.of_eq rfl rfl rfl (by simp)
  · exact (((hhead s).append (unmarked_rowNumberDraft q.orders)).append
      (unmarked_bodyDraft hs hc)).of_eq rfl rfl rfl (by simp)

/-- Limits by TOP, or by a wrapper whose order has a limit with it where it is nested. -/
theorem marked_numberingDraft (hs : s.dialect = .sqlServer) (hc : c.Marked source filter having) :
    ∃ order top, Marked (q.numberingDraft c s) true order top (source || filter || having) ∧
      (q.isPaged = false → order = !q.orders.isEmpty ∧ top = false) ∧
      (0 < s.depth → (order && !top) = (!q.orders.isEmpty && !q.isPaged)) := by
  unfold numberingDraft isPaged
  cases hskip : q.skip with
  | none =>
    refine ⟨_, _, marked_unpagedDraft hs hc q.take, ?_, ?_⟩ <;> simp +contextual
  | some skip =>
    have hselect : Marked (.text "SELECT ") true false false false := Marked.text _
    have horder : Marked (if 0 < s.depth && q.take.isNone then .empty
        else .text (" ORDER BY " ++ rowNumberName "rownum" s)) false
          (!(decide (0 < s.depth) && q.take.isNone)) false false := by
      cases decide (0 < s.depth) && q.take.isNone with
      | true => exact .empty
      | false => exact .column rfl s
    have hnumbered := (marked_numberedDraft (q := q) (s := s) hs hc).parens
    dsimp only
    refine ⟨_, _, (((((hselect.append (?htop : Marked _ false false q.take.isSome false)).append
      (.interior rfl)).append hnumbered).append (unmarked_skipped s skip.toNat)).append
        horder).of_eq rfl rfl rfl (by simp), ?_, ?_⟩
    case htop =>
      cases q.take with
      | none => exact .empty
      | some take => exact marked_top take.toNat
    · simp
    -- Where it is nested, the wrapper has an order exactly if it has a limit.
    · intro hdepth
      cases q.take <;> simp [hdepth]

/-- A query collapsed to one row has no order. The rows below it may have one. -/
theorem marked_aggregateDraft (hs : s.dialect = .sqlServer) (hc : c.Marked source filter having)
    (a : Aggregation) :
    Marked (q.aggregateDraft c a s) true false false (source || filter ||
      (q.distinct || q.isPaged) && having || !q.orders.isEmpty && !q.isPaged && q.distinct) := by
  have hselect : ∀ e : Expression,
      Marked (.text "SELECT " ++ e.draft s) true false false false := by
    intro e
    have hkeyword : Marked (.text "SELECT ") true false false false := Marked.text _
    exact hkeyword.append (unmarked_expression e s)
  unfold aggregateDraft
  split
  · next hrows =>
    have hpaged : q.pagedDraft c s.nested = q.numberingDraft c s.nested := by
      unfold pagedDraft
      rw [show s.nested.dialect = .sqlServer from hs]
      rfl
    obtain ⟨order, top, hmarked, -, hends⟩ :=
      marked_numberingDraft (q := q) (s := s.nested) hs hc
    have hopen : (order && !top) = (!q.orders.isEmpty && !q.isPaged && q.distinct) := by
      rw [hends (Nat.succ_pos _)]
      -- Rows that are not limited are wrapped because they are different.
      cases hpaging : q.isPaged <;> simp_all
    rw [hpaged]
    refine (((hselect _).append (.interior rfl)).append hmarked.parens).append (.interior rfl)
      |>.of_eq rfl rfl rfl ?_
    rw [Bool.true_and, hopen, hrows]
    cases source <;> cases filter <;> cases having <;> simp
  · next hrows =>
    refine (((hselect _).append (.interior rfl)).append (hc.source s hs)).append (hc.filter s hs)
      |>.of_eq rfl rfl rfl ?_
    cases hdistinct : q.distinct <;> simp_all

/-- A query from its clauses, where it is nested and where it stands beside a set operator. -/
theorem marked_clausesDraft (hs : s.dialect = .sqlServer) (hc : c.Marked source filter having) :
    ∃ order top, Marked (q.clausesDraft c s) true order top
        (source || filter || q.writesHaving && having || q.aggregatesOrdered) ∧
      (q.orders.isEmpty = true → q.isPaged = false → order = q.ordersUnlimited ∧ top = false) ∧
      (0 < s.depth → (order && !top) = q.ordersUnlimited) := by
  unfold clausesDraft writesHaving aggregatesOrdered ordersUnlimited
  cases q.aggregation with
  | some a =>
    -- An aggregate has neither orders nor limits outside of its rows.
    refine ⟨false, false, (marked_aggregateDraft hs hc a).of_eq rfl rfl rfl ?_, ?_, ?_⟩ <;> simp
  | none =>
    have hpaged : q.pagedDraft c s = q.numberingDraft c s := by
      unfold pagedDraft
      rw [hs]
      rfl
    obtain ⟨order, top, hmarked, hplain, hends⟩ := marked_numberingDraft (q := q) hs hc
    rw [hpaged]
    refine ⟨order, top, hmarked.of_eq rfl rfl rfl (by simp), fun horders hpaging => ?_,
      fun hdepth => ?_⟩
    · obtain ⟨rfl, rfl⟩ := hplain hpaging
      simp [horders]
    · rw [hends hdepth]
      simp

end Query

/-! ## Sources and set operations -/

section Parts

variable {a b : Draft} {s : Setting} {order top inner order' top' inner' : Bool}

/-- A subquery as a source. -/
theorem unmarked_derivedDraft (h : Marked a true order top inner) (symbol : String) :
    Unmarked (derivedDraft a symbol) (order && !top || inner) := by
  have hsymbol : Unmarked (.quoted symbol) false := ⟨_, .quoted _, rfl, rfl, rfl, rfl⟩
  exact (h.parens.separated rfl hsymbol).of_eq rfl rfl rfl (Bool.or_false _)

/-- An operand in a subquery. -/
theorem marked_wrappedOperand (h : Marked a true order top inner) :
    Marked (wrappedOperand a) true false false (order && !top || inner) := by
  have hselect : Marked (.text "SELECT * FROM ") true false false false := Marked.text _
  exact ((hselect.append h.parens).append (.interior rfl)).of_eq rfl rfl rfl (by simp)

/-- A set operation brings the orders of its operands with it, and its own. -/
theorem QuerySet.marked_operandsDraft (hs : s.dialect = .sqlServer) (operator : SetOperator)
    (orders : List Order) (hl : Marked a true order false inner)
    (hr : Marked b true order' false inner') :
    Marked (operandsDraft s operator orders a b) true (order || order' || !orders.isEmpty) false
      (inner || inner') := by
  have hkeyword : ∃ keyword, operator.keyword s.dialect = .ok keyword ∧
      Unmarked (.text (" " ++ keyword ++ " ")) false := by
    rw [hs]
    cases operator <;> exact ⟨_, rfl, Marked.text _⟩
  obtain ⟨keyword, hok, hmarked⟩ := hkeyword
  unfold operandsDraft
  rw [hok]
  exact (((hl.append hmarked).append hr).append (marked_orderDraft s orders)).of_eq rfl (by simp)
    rfl (by simp)

theorem Table.unmarked_draft (t : Table) : Unmarked t.draft false := by
  have hquoted : ∀ name, Unmarked (.quoted name) false := fun _ =>
    ⟨_, .quoted _, rfl, rfl, rfl, rfl⟩
  unfold draft
  split
  · exact (hquoted _).separated rfl (hquoted _)
  · exact hquoted _

theorem JoinKind.isInterior_symbol (kind : JoinKind) :
    isInterior (" " ++ kind.symbol ++ " ") = true := by
  cases kind <;> rfl

end Parts

/-! ## Statements -/

mutual

/-- A condition has an open end in its subqueries alone. -/
theorem Criteria.unmarked_draft :
    ∀ (c : Criteria) (s : Setting), s.dialect = .sqlServer → Unmarked (c.draft s) c.hasOpenEnd
  | .expression e, s, _ => unmarked_expression e s
  | .compound op children, s, hs => by
    rw [Criteria.draft, Criteria.hasOpenEnd]
    cases op with
    | not => exact .lead rfl (Criteria.unmarked_draftList children s hs rfl)
    | and | or => exact Criteria.unmarked_draftList children s hs rfl
  | .inSelect subject query op, s, hs => by
    obtain ⟨order, top, hmarked, -, hends⟩ := Query.marked_draft query s.nested hs
    have hop : isInterior (" " ++ op.symbol ++ " ") = true := by cases op <;> rfl
    rw [Criteria.draft, Criteria.hasOpenEnd, ← hends (Nat.succ_pos _)]
    exact ((unmarked_expression subject s).separated hop hmarked.parens).of_eq rfl rfl rfl (by simp)

/-- Conditions in parentheses, with a text between them. -/
theorem Criteria.unmarked_draftList :
    ∀ (cs : List Criteria) (s : Setting), s.dialect = .sqlServer → ∀ {separator : String},
      isInterior separator = true →
      Unmarked (.joinWith separator ((Criteria.draftList cs s).map Draft.parens))
        (Criteria.listHasOpenEnd cs)
  | [], _, _, _, _ => .empty
  | [c], s, hs, _, _ => by
    rw [Criteria.listHasOpenEnd, Criteria.listHasOpenEnd, Bool.or_false]
    exact (c.unmarked_draft s hs).parens
  | c :: d :: cs, s, hs, separator, hseparator => by
    rw [Criteria.listHasOpenEnd]
    exact (c.unmarked_draft s hs).parens.separated hseparator
      (Criteria.unmarked_draftList (d :: cs) s hs hseparator)

/-- An optional condition behind a keyword. -/
theorem Criteria.unmarked_draftOption :
    ∀ (c? : Option Criteria) (s : Setting), s.dialect = .sqlServer → ∀ {keyword : String},
      isInterior keyword = true →
      Unmarked (match Criteria.draftOption c? with
        | some condition => .text keyword ++ condition s
        | none => .empty) (Criteria.optionHasOpenEnd c?)
  | none, _, _, _, _ => .empty
  | some c, s, hs, _, hkeyword => .lead hkeyword (c.unmarked_draft s hs)

/-- A relation. -/
theorem Relation.unmarked_draft :
    ∀ (r : Relation) (s : Setting), s.dialect = .sqlServer → Unmarked (r.draft s) r.hasOpenEnd
  | .table t, _, _ => t.unmarked_draft
  | .select query alias?, s, hs => by
    obtain ⟨order, top, hmarked, -, hends⟩ := Query.marked_draft query s.nested hs
    rw [Relation.draft, Relation.hasOpenEnd, ← hends (Nat.succ_pos _)]
    exact unmarked_derivedDraft hmarked _
  | .set set alias?, s, hs => by
    have hmarked := QuerySet.marked_draft set s.nested hs
    rw [Relation.draft, Relation.hasOpenEnd]
    exact (unmarked_derivedDraft hmarked _).of_eq rfl rfl rfl (by simp)

/-- A source. -/
theorem Source.unmarked_draft :
    ∀ (r : Source) (s : Setting), s.dialect = .sqlServer → Unmarked (r.draft s) r.hasOpenEnd
  | .single r, s, hs => r.unmarked_draft s hs
  | .joined kind left right on, s, hs => by
    have hl := left.unmarked_draft s hs
    have hr := right.unmarked_draft s hs
    have hright : Unmarked (if right.isJoined then (right.draft s).parens else right.draft s)
        right.hasOpenEnd := by
      split
      · exact hr.parens
      · exact hr
    rw [Source.draft, Source.hasOpenEnd]
    exact (hl.separated kind.isInterior_symbol hright).separated rfl (on.unmarked_draft s hs)

/-- A query. -/
theorem Query.marked_draft :
    ∀ (q : Query) (s : Setting), s.dialect = .sqlServer →
      ∃ order top, Marked (q.draft s) true order top q.hasOpenEnd ∧
        (q.orders.isEmpty = true → q.isPaged = false → order = q.endsOpen ∧ top = false) ∧
        (0 < s.depth → (order && !top) = q.endsOpen)
  | ⟨source, criteria, selection, distinct, orders, skip, take, aggregation, groupBy, having⟩, s,
    hs => by
    have hfilter : ∀ t : Setting, t.dialect = .sqlServer →
        Unmarked (whereDraft ((Criteria.draftOption criteria).map (· t)) none)
          (Criteria.optionHasOpenEnd criteria) := by
      intro t ht
      have hkeyword : isInterior " WHERE " = true := rfl
      have hcondition := Criteria.unmarked_draftOption criteria t ht hkeyword
      cases criteria <;> exact hcondition
    have hclauses : Clauses.Marked
        { source := fun s => source.draft s
          filter := Criteria.draftOption criteria
          having := Criteria.draftOption having }
        source.hasOpenEnd (Criteria.optionHasOpenEnd criteria)
        (Criteria.optionHasOpenEnd having) :=
      ⟨fun t ht => source.unmarked_draft t ht, hfilter,
        fun t ht => Criteria.unmarked_draftOption having t ht rfl⟩
    have hwritten := Query.marked_clausesDraft (s := s) hs hclauses
      (q := ⟨source, criteria, selection, distinct, orders, skip, take, aggregation, groupBy,
        having⟩)
    -- A query that adds nothing to a set operation ends as that does.
    cases source with
    | joined kind left right on =>
      simpa [Query.draft, Query.endsOpen, Query.hasOpenEnd] using hwritten
    | single r =>
      cases r with
      | table t => simpa [Query.draft, Query.endsOpen, Query.hasOpenEnd] using hwritten
      | select query alias? => simpa [Query.draft, Query.endsOpen, Query.hasOpenEnd] using hwritten
      | set set alias? =>
        rw [Query.draft, Query.endsOpen, Query.hasOpenEnd]
        dsimp only
        split
        · exact ⟨_, _, set.marked_draft s hs, fun _ _ => ⟨rfl, rfl⟩, fun _ => by simp⟩
        · exact hwritten

/-- An operand of a set operation. -/
theorem SetOperand.marked_draft :
    ∀ (o : SetOperand) (s : Setting), s.dialect = .sqlServer →
      Marked (o.draft s) true o.endsOpen false o.hasOpenEnd
  | .query q, s, hs => by
    rw [SetOperand.draft, SetOperand.endsOpen, SetOperand.hasOpenEnd]
    split
    · next hbeside =>
      rw [Bool.and_eq_true, Bool.not_eq_true'] at hbeside
      obtain ⟨order, top, hmarked, hplain, -⟩ := q.marked_draft s hs
      obtain ⟨rfl, rfl⟩ := hplain hbeside.1 hbeside.2
      exact hmarked
    · obtain ⟨order, top, hmarked, -, hends⟩ := q.marked_draft s.nested hs
      rw [← hends (Nat.succ_pos _)]
      exact marked_wrappedOperand hmarked
  | .set set, s, hs => by
    rw [SetOperand.draft, SetOperand.endsOpen, SetOperand.hasOpenEnd]
    exact (marked_wrappedOperand (set.marked_draft s.nested hs)).of_eq rfl rfl rfl (by simp)

/-- A set operation. -/
theorem QuerySet.marked_draft :
    ∀ (q : QuerySet) (s : Setting), s.dialect = .sqlServer →
      Marked (q.draft s) true q.endsOpen false q.hasOpenEnd
  | ⟨operator, left, right, orders⟩, s, hs => by
    rw [QuerySet.draft, QuerySet.endsOpen, QuerySet.hasOpenEnd]
    exact QuerySet.marked_operandsDraft hs operator orders (left.marked_draft s hs)
      (right.marked_draft s hs)

end

/-! ## Changes -/

theorem Setting.unmarked_changeName (s : Setting) (name : String) :
    Unmarked (s.changeName name) false := by
  unfold changeName
  split
  · exact ⟨_, .bare _, rfl, rfl, rfl, rfl⟩
  · exact ⟨_, .quoted _, rfl, rfl, rfl, rfl⟩

namespace Assignment

variable (a : Assignment) (s : Setting)

theorem unmarked_valueDraft : Unmarked (a.valueDraft s) false := by
  obtain ⟨v, hvalue⟩ | ⟨e, -, hvalue⟩ := a.valueDraft_cases s
  · rw [hvalue]
    exact unmarked_expression (.constant v) s
  · rw [hvalue]
    exact unmarked_expression e s

theorem unmarked_draft : Unmarked (a.draft s) false := by
  have hcolumn : Unmarked (a.columnDraft s) false := s.unmarked_changeName _
  have hvalue := a.unmarked_valueDraft s
  rw [draft_eq_ite]
  split
  · exact hcolumn.separated rfl (hcolumn.separated rfl hvalue)
  · exact hcolumn.separated rfl hvalue

end Assignment

namespace Change

variable {s : Setting} (c : Change) (hs : s.dialect = .sqlServer)
include hs

theorem unmarked_headDraft : Unmarked (c.headDraft s) c.source.hasOpenEnd := by
  unfold headDraft
  split
  · next t ht =>
    have hnone : c.source.hasOpenEnd = false := by
      rw [ht, Source.hasOpenEnd, Relation.hasOpenEnd]
    rw [hnone]
    split
    · exact (s.unmarked_changeName _).separated rfl (s.unmarked_changeName _)
    · exact s.unmarked_changeName _
  · exact c.source.unmarked_draft s hs

theorem unmarked_filterDraft :
    Unmarked (c.filterDraft s) (Criteria.optionHasOpenEnd c.criteria) := by
  have hkeyword : isInterior " WHERE " = true := rfl
  have hcondition := Criteria.unmarked_draftOption c.criteria s hs hkeyword
  unfold filterDraft
  cases h : c.criteria <;> rw [h] at hcondition <;> exact hcondition

omit hs in
/-- An INSERT writes no subqueries. -/
theorem unmarked_insertDraft (table : Table) : Unmarked (c.insertDraft s table) false := by
  have hlist : ∀ f : Draft × Draft → Draft, (∀ a : Assignment, Unmarked (f (a.pair s)) false) →
      Unmarked (Draft.list ((c.assignments.map (·.pair s)).map f)).parens false := by
    intro f hf
    refine Marked.parens (Unmarked.items fun p hp => ?_)
    obtain ⟨a, -, rfl⟩ := List.mem_map.mp hp
    exact hf a
  have hhead : Unmarked (.text "INSERT INTO " ++ s.changeName table.name) false :=
    .lead rfl (s.unmarked_changeName _)
  have hnone : Unmarked empty.parens false := Marked.empty.parens
  have hlists : Unmarked (if c.assignments.isEmpty then insertNothing s.dialect
      else
        let pairs := c.assignments.map (·.pair s)
        .text " " ++ (Draft.list (pairs.map (·.1))).parens ++ .text " VALUES " ++
          (Draft.list (pairs.map (·.2))).parens) false := by
    split
    · unfold insertNothing
      split
      · exact .introduced rfl hnone rfl hnone
      · exact .interior rfl
    · exact .introduced rfl (hlist _ fun a => s.unmarked_changeName a.column.name) rfl
        (hlist _ fun a => a.unmarked_valueDraft s)
  exact hhead.append hlists

theorem unmarked_updateDraft : Unmarked (c.updateDraft s)
    (c.source.hasOpenEnd || Criteria.optionHasOpenEnd c.criteria) := by
  have hassigned : Unmarked (.list (c.assignments.map (·.draft s))) false :=
    .items fun a _ => a.unmarked_draft s
  have hset : ∀ {a : Draft} {inner : Bool}, Unmarked a inner → Unmarked (.text "UPDATE " ++ a ++
      .text " SET " ++ .list (c.assignments.map (·.draft s))) inner := fun ha =>
    (Unmarked.introduced rfl ha rfl hassigned).of_eq rfl rfl rfl (Bool.or_false _)
  have hfilter := c.unmarked_filterDraft hs
  unfold updateDraft
  split
  · exact .fail _ _
  · split
    · exact .fail _ _
    · exact ((hset (s.unmarked_changeName _)).separated rfl (c.source.unmarked_draft s hs)).append
        hfilter

theorem unmarked_deleteDraft : Unmarked (c.deleteDraft s)
    (c.source.hasOpenEnd || Criteria.optionHasOpenEnd c.criteria) := by
  have hfilter := c.unmarked_filterDraft hs
  unfold deleteDraft
  split
  · exact .fail _ _
  · have hhead : Unmarked (if c.namesDeleted s.dialect then
        .text "DELETE " ++ s.changeName c.source.leftmost.symbol ++ .text " FROM " ++
          c.source.draft s
      else .text "DELETE FROM " ++ c.headDraft s) c.source.hasOpenEnd := by
      split
      · exact .introduced rfl (s.unmarked_changeName _) rfl (c.source.unmarked_draft s hs)
      · exact .lead rfl (c.unmarked_headDraft hs)
    exact hhead.append hfilter

/-- A change. -/
theorem unmarked_draft : Unmarked (c.draft s) c.hasOpenEnd := by
  unfold draft hasOpenEnd
  cases c.target with
  | error e => exact .fail _ _
  | ok table =>
    cases hkind : c.kind with
    | insert => simpa only [Draft.ofExcept, hkind] using c.unmarked_insertDraft table
    | update => simpa only [Draft.ofExcept, hkind] using c.unmarked_updateDraft hs
    | delete => simpa only [Draft.ofExcept, hkind] using c.unmarked_deleteDraft hs

end Change

/-- A statement has a subquery with an open end exactly if with its implied orders some nested query
or set operation in it is ordered and not limited, or the rows below an aggregate are. -/
theorem Statement.hasOpenEnd_draft {t : Statement} {s : Setting} (hs : s.dialect = .sqlServer)
    (h : (Drafted.draft t s).failure = none) :
    (Drafted.draft t s).hasOpenEnd = t.implyOrders.hasOpenEnd := by
  have himplied : Drafted.draft t s = t.implyOrders.draft s := by
    have hnumbers : s.numbersRows = true := by rw [Setting.numbersRows, hs]; rfl
    change (if s.numbersRows then t.implyOrders else t).draft s = _
    rw [if_pos hnumbers]
  rw [himplied] at h ⊢
  cases t with
  | query q =>
    obtain ⟨order, top, hmarked, -⟩ := q.implyOrders.marked_draft s hs
    exact hmarked.hasOpenEnd_eq h
  | set q => exact (q.implyOrders.marked_draft s hs).hasOpenEnd_eq h
  | change c => exact (c.implyOrders.unmarked_draft hs).hasOpenEnd_eq h

/-- The rows of a nested query that is ordered, all of them or those behind some that are
skipped. -/
def Statement.nestedOrder (skip : Option UInt64) : Statement :=
  .query (.ofSource (.ofQuery
    { (Query.ofTable "T").orderBy ⟨.ofField ⟨"A", none⟩, .asc⟩ with skip := skip } "s"))

/-- The order of a nested query is written although there is no limit. -/
theorem Statement.text_nestedOrder :
    renderInline (nestedOrder none) .sqlServer .standard =
        .ok "SELECT * FROM (SELECT * FROM [T] ORDER BY [A] ASC) [s]" ∧
      (Drafted.draft (nestedOrder none) (.outermost .sqlServer .standard .inline)).hasOpenEnd =
        true :=
  ⟨rfl, by decide⟩

theorem Statement.hasOpenEnd_nestedOrder :
    (Drafted.draft (nestedOrder none) (.outermost .sqlServer .standard .bound)).hasOpenEnd = true ∧
      (Drafted.draft (nestedOrder (some 5)) (.outermost .sqlServer .standard .bound)).hasOpenEnd =
        false :=
  ⟨(hasOpenEnd_draft rfl rfl).trans (by decide), (hasOpenEnd_draft rfl rfl).trans (by decide)⟩

end DialectSql
