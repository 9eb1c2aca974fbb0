import DialectSql.Proofs.Frame
import DialectSql.Rendering

/-!
# Grouping

Databases read a set operation from left to right, so an operand may stand beside an operator only
if it is a single SELECT. Ordered and limited queries and nested set operations are put into
subqueries for this. A query that adds nothing to a set operation is not: it is written as that set
operation, also where it is an operand itself. Every other operand is a single SELECT.

## Main definitions

* `SetOperand.isSetWrapper` — operands that add nothing to a set operation in a subquery
* `SetOperand.drafted`, `SetOperand.text` — an operand as it stands in a statement

## Main results

* `SetOperand.frame_draft` — the frame of an operand
* `QuerySet.grouping` — the parts of a set operation, and which of them are single SELECTs
-/

namespace DialectSql

open Text

/-- How the constants of a setting are written. -/
def Setting.writer (s : Setting) : Writer :=
  match s.mode with
  | .inline => literals s.dialect
  | .bound => placeholders s.dialect s.config.parameterBase

namespace SetOperand

/-- Whether an operand is a query that adds nothing to the set operation that it reads. -/
def isSetWrapper : SetOperand → Bool
  | query q => q.isSetWrapper
  | set _ => false

/-- An operand with its implied orders in a setting. -/
def drafted (o : SetOperand) (s : Setting) : Draft :=
  (if s.numbersRows then o.implyOrders else o).draft s

/-- The text of an operand whose constants are counted from `index` on. -/
def text (o : SetOperand) (s : Setting) (index : Nat) : String :=
  (o.drafted s).written s.dialect s.writer index

end SetOperand

/-- A query that adds nothing to a set operation has no orders and no limits. -/
theorem Query.orders_isEmpty_of_isSetWrapper {q : Query} (h : q.isSetWrapper = true) :
    (q.orders.isEmpty && !q.isPaged) = true := by
  have hbare : q.isBare = true := by
    unfold isSetWrapper at h
    split at h
    · exact h
    · cases h
  simp only [isBare, Bool.and_eq_true] at hbare
  obtain ⟨⟨⟨⟨⟨-, horders⟩, hskip⟩, htake⟩, -⟩, -⟩ := hbare
  simp [horders, isPaged, Option.isNone_iff_eq_none.mp hskip, Option.isNone_iff_eq_none.mp htake]

/-! ## Implied orders -/

/-- A query that skips rows adds something to what it reads. -/
theorem Query.isSetWrapper_of_skip {q : Query} (h : q.skip.isSome = true) :
    q.isSetWrapper = false := by
  have hbare : q.isBare = false := by
    rw [isBare, Option.isNone_eq_false_iff.mpr h]
    simp
  unfold isSetWrapper
  split
  · exact hbare
  · rfl

/-- With its implied order a query adds as much to a set operation as without. -/
theorem Query.isSetWrapper_implyOrder (q : Query) : q.implyOrder.isSetWrapper = q.isSetWrapper := by
  unfold implyOrder
  split
  · next hskip =>
    rw [Bool.and_eq_true] at hskip
    dsimp only
    split
    -- Bubbling changes the orders and the source of a query but not what it skips.
    · have hnode : q.bubbleSourceOrder.node.skip.isSome = true := by
        obtain ⟨source, criteria, selection, distinct, orders, skip, take, aggregation, groupBy,
          having⟩ := q
        exact hskip.1
      rw [isSetWrapper_of_skip hnode, isSetWrapper_of_skip hskip.1]
    · rfl
  · rfl

/-- With its implied orders a query adds as much to a set operation as without. -/
theorem Query.isSetWrapper_implyOrders (q : Query) :
    q.implyOrders.isSetWrapper = q.isSetWrapper := by
  obtain ⟨source, criteria, selection, distinct, orders, skip, take, aggregation, groupBy,
    having⟩ := q
  rw [implyOrders, isSetWrapper_implyOrder]
  -- Orders are implied further in. Which clauses there are stays the same.
  have hbare : isBare ⟨source.implyOrders, Criteria.implyOrdersOption criteria, selection, distinct,
      orders, skip, take, aggregation, groupBy, Criteria.implyOrdersOption having⟩ =
      isBare ⟨source, criteria, selection, distinct, orders, skip, take, aggregation, groupBy,
        having⟩ := by
    cases criteria <;> cases having <;> rfl
  unfold isSetWrapper
  cases source with
  | joined kind left right on => rfl
  | single r =>
    cases r with
    | table t => rfl
    | select query alias? => rfl
    | set r alias? => exact hbare

namespace SetOperand

@[simp] theorem isSetWrapper_implyOrders (o : SetOperand) :
    o.implyOrders.isSetWrapper = o.isSetWrapper := by
  cases o with
  | query q => exact q.isSetWrapper_implyOrders
  | set r => rfl

end SetOperand

/-! ## Frames of operands -/

namespace QuerySet

variable {s : Setting}

/-- A set operation that can be written consists of its operands, the keyword of its operator and
its orders. -/
theorem operandsDraft_eq {operator : SetOperator} {orders : List Order} {left right : Draft}
    (h : (operandsDraft s operator orders left right).failure = none) :
    ∃ keyword, operator.keyword s.dialect = .ok keyword ∧
      operandsDraft s operator orders left right =
        left ++ .text (" " ++ keyword ++ " ") ++ right ++ orderDraft s orders := by
  unfold operandsDraft at h ⊢
  cases hkeyword : operator.keyword s.dialect with
  | error e =>
    rw [hkeyword] at h
    cases h
  | ok keyword => exact ⟨keyword, rfl, rfl⟩

end QuerySet

/-- The keyword of a set operator combines queries. -/
theorem SetOperator.exists_frameOf_keyword {operator : SetOperator} {d : Dialect} {keyword : String}
    (h : operator.keyword d = .ok keyword) :
    ∃ word, frameOf (" " ++ keyword ++ " ").toList = [word] ∧ word ≠ "SELECT" := by
  cases operator <;> cases d <;> cases h <;> exact ⟨_, rfl, by decide⟩

section Frames

variable {s : Setting}

theorem admitsSymbols_true : AdmitsSymbols fun _ => True := .of_words fun _ _ => trivial

/-- A set operation has a word in its frame that is no SELECT. -/
theorem QuerySet.frame_ne (r : QuerySet) (h : (r.draft s).failure = none) :
    (r.draft s).frame ≠ ["SELECT"] := by
  obtain ⟨operator, left, right, orders⟩ := r
  rw [draft] at h ⊢
  obtain ⟨keyword, hkeyword, hdraft⟩ := operandsDraft_eq h
  -- The keyword of the operator stands outside of parentheses, whatever the operands are.
  obtain ⟨word, hword, hne⟩ := SetOperator.exists_frameOf_keyword hkeyword
  rw [hdraft, Draft.append_assoc, Draft.append_assoc] at h ⊢
  obtain ⟨hleft, -⟩ := Draft.failure_append_eq_none h
  have hphrase : AnyPhrase (fun _ => True) (fun _ => False) false false (left.draft s) :=
    left.phrase_draft admitsSymbols_true s fun _ _ => trivial
  intro hframe
  rw [hphrase.frame_append h, Draft.frame_append rfl (Draft.balanced_text _), Draft.frame_text,
    hword] at hframe
  have hmem : word ∈ ["SELECT"] := by
    rw [← hframe]
    simp
  exact hne (List.mem_singleton.mp hmem)

/-- A query that adds nothing to a set operation is written as that set operation. -/
theorem Query.exists_draft_of_isSetWrapper {q : Query} (h : q.isSetWrapper = true) :
    ∃ r : QuerySet, ∀ s, q.draft s = r.draft s := by
  obtain ⟨source, criteria, selection, distinct, orders, skip, take, aggregation, groupBy,
    having⟩ := q
  cases source with
  | joined kind left right on => cases h
  | single relation =>
    cases relation with
    | table t => cases h
    | select query alias? => cases h
    | set r alias? =>
      refine ⟨r, fun s => ?_⟩
      rw [draft]
      exact if_pos h

/-- A query without orders and limits that adds something to what it reads is a SELECT in front of
an interior phrase. -/
theorem Query.select_draft {q : Query} (hwrapper : q.isSetWrapper = false)
    (horders : q.orders.isEmpty = true) (hpaged : q.isPaged = false) (s : Setting) :
    SelectPhrase (fun _ => True) (fun _ => False) (isInterior · = true) (q.draft s) := by
  obtain ⟨source, criteria, selection, distinct, orders, skip, take, aggregation, groupBy,
    having⟩ := q
  rw [isPaged, Bool.or_eq_false_iff, Option.isSome_eq_false_iff, Option.isSome_eq_false_iff,
    Option.isNone_iff_eq_none, Option.isNone_iff_eq_none] at hpaged
  have hclauses : Clauses.Phrases (fun _ => True) (fun _ => False)
      { source := fun s => source.draft s
        filter := Criteria.draftOption criteria
        having := Criteria.draftOption having } :=
    ⟨fun s => Source.phrase_draft admitsSymbols_true source s fun _ _ => trivial,
      Criteria.phrase_draftOption admitsSymbols_true criteria fun _ _ => trivial,
      Criteria.phrase_draftOption admitsSymbols_true having fun _ _ => trivial⟩
  have hselect := Query.select_clausesDraft (s := s) admitsSymbols_true
    (Query.clauseNames_of_names fun _ _ => trivial) hclauses (List.isEmpty_iff.mp horders) hpaged.1
    hpaged.2
  -- Only around a set operation a query could be written as anything else.
  cases source with
  | joined kind left right on => simpa [draft] using hselect
  | single relation =>
    cases relation with
    | table t => simpa [draft] using hselect
    | select query alias? => simpa [draft] using hselect
    | set r alias? =>
      rw [draft, if_neg (by simpa [isSetWrapper] using hwrapper)]
      exact hselect

/-- An operand that is put into a subquery is a single SELECT. -/
theorem frame_wrappedOperand {T : String → Prop} {opens closes : Bool} {d : Draft}
    (hd : Phrase (fun _ => True) (fun _ => False) T opens closes d)
    (h : (wrappedOperand d).failure = none) : (wrappedOperand d).frame = ["SELECT"] :=
  hd.select_wrappedOperand.frame_eq h

/-- An operand is a single SELECT unless it adds nothing to the set operation that it reads. -/
theorem SetOperand.frame_draft (o : SetOperand) (h : (o.draft s).failure = none) :
    (o.draft s).frame = ["SELECT"] ↔ o.isSetWrapper = false := by
  cases o with
  | set r =>
    have hphrase : AnyPhrase (fun _ => True) (fun _ => False) false false (r.draft s.nested) :=
      r.phrase_draft admitsSymbols_true s.nested fun _ _ => trivial
    exact iff_of_true (frame_wrappedOperand hphrase h) rfl
  | query q =>
    rw [draft] at h ⊢
    by_cases hbeside : (q.orders.isEmpty && !q.isPaged) = true
    · rw [if_pos hbeside] at h ⊢
      rw [Bool.and_eq_true, Bool.not_eq_true'] at hbeside
      -- Beside the operator stands the query itself, or the set operation that it is written as.
      cases hwrapper : q.isSetWrapper with
      | true =>
        obtain ⟨r, hr⟩ := Query.exists_draft_of_isSetWrapper hwrapper
        rw [hr] at h ⊢
        exact iff_of_false (r.frame_ne h) (by simp [isSetWrapper, hwrapper])
      | false =>
        exact iff_of_true ((q.select_draft hwrapper hbeside.1 hbeside.2 s).frame_eq h) hwrapper
    · rw [if_neg hbeside] at h ⊢
      have hphrase : AnyPhrase (fun _ => True) (fun _ => False) false false (q.draft s.nested) :=
        q.phrase_draft admitsSymbols_true s.nested fun _ _ => trivial
      -- What is put into a subquery has orders or limits, and so it adds something.
      have hwrapper : q.isSetWrapper = false := by
        refine Bool.eq_false_iff.mpr fun hwrapper => hbeside ?_
        exact Query.orders_isEmpty_of_isSetWrapper hwrapper
      exact iff_of_true (frame_wrappedOperand hphrase h) hwrapper

/-- With its implied orders an operand is a single SELECT unless it adds nothing to the set
operation that it reads. -/
theorem SetOperand.frame_drafted (o : SetOperand) (h : (o.drafted s).failure = none) :
    (o.drafted s).frame = ["SELECT"] ↔ o.isSetWrapper = false := by
  unfold drafted at h ⊢
  rw [SetOperand.frame_draft _ h]
  split
  · rw [isSetWrapper_implyOrders]
  · rfl

end Frames

/-! ## Set operations in writing -/

/-- Of no constant a frame word is seen, if the names of parameters are words. -/
theorem Setting.exists_passes_writer {s : Setting}
    (hbase : s.mode = .bound → Config.isParameterBase s.config.parameterBase = true) (index : Nat)
    (v : Value) : ∃ seen, Passes s.dialect (s.writer index v).toList seen ∧ frameOf seen = [] := by
  unfold writer
  cases hmode : s.mode with
  | inline => exact v.exists_passes_literal s.dialect
  | bound => exact s.dialect.exists_passes_parameterName (hbase hmode) index

/-- The frame of an operand is seen in its text, if no identifier ends its quotes early. -/
theorem SetOperand.frame_text {o : SetOperand} {s : Setting}
    (hnames : ∀ n ∈ o.names, s.dialect.identifierQuotes.2 ∉ n.toList)
    (hbase : s.mode = .bound → Config.isParameterBase s.config.parameterBase = true)
    (h : (o.drafted s).failure = none) (index : Nat) :
    frame s.dialect (o.text s index) = (o.drafted s).frame := by
  have hsymbols : AdmitsSymbols fun n => s.dialect.identifierQuotes.2 ∉ n.toList :=
    .of_separator (by cases s.dialect <;> decide)
  have hphrase : AnyPhrase (fun n => s.dialect.identifierQuotes.2 ∉ n.toList) (fun _ => False) false
      false (o.drafted s) := by
    unfold drafted
    split
    · exact SetOperand.phrase_draft hsymbols _ s (o.names_implyOrders hsymbols hnames)
    · exact SetOperand.phrase_draft hsymbols o s hnames
  exact (hphrase.shows_written (fun _ => id) (fun _ => id) (Setting.exists_passes_writer hbase) h
    index).frame_eq

/-- A set operation that can be written consists of its operands with their implied orders, the
keyword of its operator and its own orders. -/
theorem QuerySet.drafted_eq {r : QuerySet} {s : Setting} (h : (Drafted.draft r s).failure = none) :
    ∃ keyword, r.operator.keyword s.dialect = .ok keyword ∧
      Drafted.draft r s = r.left.drafted s ++ .text (" " ++ keyword ++ " ") ++ r.right.drafted s ++
        orderDraft s r.orders := by
  obtain ⟨operator, left, right, orders⟩ := r
  have hdrafted : Drafted.draft (⟨operator, left, right, orders⟩ : QuerySet) s =
      operandsDraft s operator orders (left.drafted s) (right.drafted s) := by
    change (if s.numbersRows then implyOrders _ else _ : QuerySet).draft s = _
    unfold SetOperand.drafted
    split
    · rw [implyOrders, draft]
    · rw [draft]
  rw [hdrafted] at h ⊢
  exact operandsDraft_eq h

/-- A set operation is written as its operands, with the keyword of its operator between them and
its orders behind them. An operand is a single SELECT, without an operator, orders or limits outside
of its parentheses, exactly if it is no query that adds nothing to a set operation. This is seen in
the text of the operand, if no identifier ends its quotes early and the parameters have valid names.
-/
theorem QuerySet.grouping {r : QuerySet} {s : Setting} (index : Nat)
    (h : (Drafted.draft r s).failure = none) :
    ∃ keyword, r.operator.keyword s.dialect = .ok keyword ∧
      (Drafted.draft r s).written s.dialect s.writer index =
        r.left.text s index ++ " " ++ keyword ++ " " ++
          r.right.text s (index + (r.left.drafted s).constants.length) ++
          (orderDraft s r.orders).written s.dialect s.writer (index +
            (r.left.drafted s).constants.length + (r.right.drafted s).constants.length) ∧
      ∀ o ∈ [r.left, r.right],
        ((o.drafted s).frame = ["SELECT"] ↔ o.isSetWrapper = false) ∧
        ((∀ n ∈ o.names, s.dialect.identifierQuotes.2 ∉ n.toList) →
          (s.mode = .bound → Config.isParameterBase s.config.parameterBase = true) →
          ∀ i, frame s.dialect (o.text s i) = (o.drafted s).frame) := by
  obtain ⟨keyword, hkeyword, hdraft⟩ := drafted_eq h
  rw [hdraft] at h ⊢
  obtain ⟨hoperands, -⟩ := Draft.failure_append_eq_none h
  obtain ⟨hfront, hright⟩ := Draft.failure_append_eq_none hoperands
  obtain ⟨hleft, -⟩ := Draft.failure_append_eq_none hfront
  refine ⟨keyword, hkeyword, ?_, fun o ho => ?_⟩
  · rw [Draft.written_append hoperands, Draft.written_append hfront, Draft.written_append hleft,
      Draft.constants_append hfront, Draft.constants_append hleft, Draft.written_text]
    have hnone : (Draft.text (" " ++ keyword ++ " ")).constants = [] := rfl
    rw [hnone, List.append_nil, List.length_append, ← Nat.add_assoc, ← String.append_assoc,
      ← String.append_assoc]
    rfl
  · have hok : (o.drafted s).failure = none := by
      rcases List.mem_pair.mp ho with rfl | rfl
      · exact hleft
      · exact hright
    exact ⟨o.frame_drafted hok, fun hnames hbase => SetOperand.frame_text hnames hbase hok⟩

/-- What is in the first table and in neither of two others, which a query around a set operation
puts together. -/
def QuerySet.difference : QuerySet :=
  .combine .except (.query (.ofTable "A"))
    (.query (.ofSource (.single (.set (.combine .union (.query (.ofTable "B"))
      (.query (.ofTable "C"))) none))))

/-- The second operand stands beside the operator as two queries, of which a database subtracts the
first and adds the second. -/
theorem QuerySet.text_difference :
    renderInline difference .postgreSql .standard =
        .ok "SELECT * FROM \"A\" EXCEPT SELECT * FROM \"B\" UNION SELECT * FROM \"C\"" ∧
      frame .postgreSql (difference.right.text (.outermost .postgreSql .standard .inline) 0) =
        ["SELECT", "UNION", "SELECT"] :=
  ⟨rfl, rfl⟩

theorem QuerySet.grouping_difference :
    frame .postgreSql (difference.left.text (.outermost .postgreSql .standard .bound) 0) =
        ["SELECT"] ∧
      (difference.right.drafted (.outermost .postgreSql .standard .bound)).frame ≠ ["SELECT"] := by
  obtain ⟨keyword, -, -, hoperands⟩ :=
    grouping (r := difference) (s := .outermost .postgreSql .standard .bound) 0 rfl
  obtain ⟨hleft, htext⟩ := hoperands difference.left (by simp)
  obtain ⟨hright, -⟩ := hoperands difference.right (by simp)
  refine ⟨?_, fun hframe => ?_⟩
  · rw [← hleft.mpr rfl]
    exact htext (by decide) (fun _ => rfl) 0
  · cases hright.mp hframe

end DialectSql
