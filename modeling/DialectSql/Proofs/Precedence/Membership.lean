import DialectSql.Proofs.Precedence.Reading
import DialectSql.Proofs.Width

/-!
# Left sides of membership tests

In front of a list of values, a left side that is an operator between operands is written between
parentheses. In front of a subquery it is written bare, so that the test is read as one of its last
operand where its operator binds less tightly than the membership.

## Main definitions

* `Membership.test` — a membership test from its left side and what is between its parentheses
* `Membership.IsReadOf` — whether a membership test is read as one of the whole left side

## Main results

* `Criteria.written_inSelect`, `Expression.written_membership` — the two membership tests in writing
* `Draft.Spells.isReadOf_iff` — the left sides of which a membership test is read
* `Membership.subjects_eq_iff` — which left sides the two tests write and read alike
-/

namespace DialectSql

open Text

/-! ## Writing -/

/-- A membership test from its left side and what is between its parentheses. -/
def Membership.test (op : Membership) (left inner : String) : String :=
  left ++ (" " ++ op.symbol ++ " ") ++ ("(" ++ inner ++ ")")

section Writing

variable {s : Setting} {e : Expression} {op : Membership} (index : Nat)

/-- A left side and a keyword are written in front of what is between parentheses. -/
theorem Draft.written_test {left inner : Draft}
    (h : (left ++ .text (" " ++ op.symbol ++ " ") ++ inner.parens).failure = none) :
    (left ++ .text (" " ++ op.symbol ++ " ") ++ inner.parens).written s.dialect s.writer index =
      op.test (left.written s.dialect s.writer index)
        (inner.written s.dialect s.writer (index + left.constants.length)) := by
  obtain ⟨hfront, hparens⟩ := failure_append_eq_none h
  obtain ⟨hleft, -⟩ := failure_append_eq_none hfront
  rw [failure_parens] at hparens
  rw [written_append hfront, written_append hleft, written_parens hparens, written_text,
    constants_append_text hleft, Membership.test]

/-- The left side of a test on a subquery is written as it stands alone. -/
theorem Criteria.written_inSelect {q : Query}
    (h : (Drafted.draft (Criteria.inSelect e q op) s).failure = none) :
    (Drafted.draft (Criteria.inSelect e q op) s).written s.dialect s.writer index =
      op.test (e.text s index) ((Drafted.draft q s.nested).written s.dialect s.writer
        (index + (e.draft s).constants.length)) := by
  rw [drafted_inSelect] at h ⊢
  exact Draft.written_test index h

/-- The left side of a test on a list is written as an operand. -/
theorem Expression.written_membership {values : List Value} (hvalues : values ≠ [])
    (h : (Drafted.draft (membership op e values) s).failure = none) :
    (Drafted.draft (membership op e values) s).written s.dialect s.writer index =
      op.test (e.operandText (e.text s index)) ((Draft.list (values.map .constant)).written
        s.dialect s.writer (index + (e.draft s).constants.length)) := by
  have hempty : values.isEmpty = false := by simpa using hvalues
  have hdraft : Drafted.draft (membership op e values) s =
      e.asOperand (e.draft s) ++ .text (" " ++ op.symbol ++ " ") ++
        (Draft.list (values.map .constant)).parens := by
    change membershipDraft op e (e.draft s) values = _
    rw [membershipDraft, hempty, if_neg Bool.false_ne_true]
  rw [hdraft] at h ⊢
  have hsubject : (e.draft s).failure = none := by
    rw [← failure_asOperand e]
    exact (Draft.failure_append_eq_none (Draft.failure_append_eq_none h).1).1
  rw [Draft.written_test index h, written_asOperand e hsubject, constants_asOperand e hsubject]
  rfl

/-- An operand is written as it stands alone exactly if it is no operator between operands. -/
theorem Expression.operandText_eq_self_iff (e : Expression) (sql : String) :
    sql = e.operandText sql ↔ e.isCompound = false := by
  unfold operandText
  constructor
  · intro h
    by_contra hcompound
    rw [if_pos (by simpa using hcompound)] at h
    -- The parentheses are two characters more.
    have hlength := congrArg String.length h
    have hparenthesis : "(".length = 1 ∧ ")".length = 1 := ⟨rfl, rfl⟩
    rw [String.length_append, String.length_append, hparenthesis.1, hparenthesis.2] at hlength
    omega
  · intro h
    rw [if_neg (by simp [h])]

end Writing

/-! ## Reading -/

/-- Whether a membership test is read as one of the whole left side. What is between the parentheses
plays no role, so NULL stands for it. -/
def Membership.IsReadOf (op : Membership) (d : Dialect) (left : String) (t : Term) : Prop :=
  Text.read d (op.test left "NULL") = some (.binary op.symbol t (.group (.operand "NULL")))

/-- A membership test is read as one of a left side exactly if that respects the levels and binds as
tightly as the test. -/
theorem Draft.Spells.isReadOf_iff {s : Setting} {x : Draft} {a : Sketch} (op : Membership)
    (h : x.Spells s.dialect s.writer a) (hx : x.failure = none) (index : Nat) :
    op.IsReadOf s.dialect (x.written s.dialect s.writer index) (a.term index) ↔
      binaryLevel op.symbol ≤ (a.term index).level ∧ (a.term index).Levelled := by
  -- The left side is asked for, so the list is any.
  have hnull : (Draft.text "NULL").Spells s.dialect s.writer (.leaf (.operand "NULL")) :=
    .text (scans_word rfl (by decide) rfl)
  have hoperator : 2 < binaryLevel op.symbol := by simp
  have htest := Draft.Spells.operation hoperator h hnull.parens
  have hfailure : (x ++ .text (" " ++ op.symbol ++ " ") ++ (Draft.text "NULL").parens).failure =
      none := by
    rw [Draft.failure_append, Draft.failure_append, hx]
    rfl
  obtain ⟨-, hscans⟩ := htest hfailure
  have hwritten : (x ++ .text (" " ++ op.symbol ++ " ") ++ (Draft.text "NULL").parens).written
      s.dialect s.writer index = op.test (x.written s.dialect s.writer index) "NULL" := by
    rw [Draft.written_test index hfailure, Draft.written_text]
  unfold Membership.IsReadOf
  rw [← hwritten, (hscans index).read_eq]
  refine Lexeme.read_lexemes_iff.trans ?_
  simp [Sketch.binary, Sketch.group, Sketch.leaf, Term.Levelled, Term.level]

/-- A membership test on a list and one on a subquery write their left sides alike exactly if these
are no operators between operands. Such an operator stands between parentheses in front of a list
and bare in front of a subquery. There the test is read as one of the whole left side only if the
operator binds as tightly as the test, which AND and OR do not; in front of a list it is always read
so, unless the left side is a negation. This holds in every dialect and mode in which both tests can
be written; for the reading no identifier ends its quotes early and the parameters have valid
names. -/
theorem Membership.subjects_eq_iff {op : Membership} {e : Expression} {q : Query}
    {values : List Value} {s : Setting} (hvalues : values ≠ [])
    (hquery : (Drafted.draft (Criteria.inSelect e q op) s).failure = none)
    (hlist : (Drafted.draft (Expression.membership op e values) s).failure = none) (index : Nat) :
    ∃ left left' : String,
      (Drafted.draft (Criteria.inSelect e q op) s).written s.dialect s.writer index =
        op.test left ((Drafted.draft q s.nested).written s.dialect s.writer
          (index + (e.draft s).constants.length)) ∧
      (Drafted.draft (Expression.membership op e values) s).written s.dialect s.writer index =
        op.test left' ((Draft.list (values.map .constant)).written s.dialect s.writer
          (index + (e.draft s).constants.length)) ∧
      (left = left' ↔ e.isCompound = false) ∧
      (e.isCompound = true → left' = "(" ++ left ++ ")") ∧
      ((∀ n ∈ e.names, s.dialect.identifierQuotes.2 ∉ n.toList) →
        (s.mode = .bound → Config.isParameterBase s.config.parameterBase = true) →
        (op.IsReadOf s.dialect left ((e.sketch s).term index) ↔
          binaryLevel op.symbol ≤ ((e.sketch s).term index).level ∧ e.isGrouped s = true) ∧
        (op.IsReadOf s.dialect left' ((e.operandSketch (e.sketch s)).term index) ↔
          e.isNegation = false ∧ e.isGrouped s = true)) := by
  have hsubject : (e.draft s).failure = none := by
    rw [Criteria.drafted_inSelect] at hquery
    exact (Draft.failure_append_eq_none (Draft.failure_append_eq_none hquery).1).1
  refine ⟨e.text s index, e.operandText (e.text s index), Criteria.written_inSelect index hquery,
    Expression.written_membership index hvalues hlist, e.operandText_eq_self_iff _,
    fun hcompound => if_pos hcompound, fun hnames hbase => ?_⟩
  have hspells := Expression.spells_draft (Setting.spells_writer hbase) e hnames
  have hfits := e.fits_sketch (s := s)
  have hoperand := (e.failure_asOperand (e.draft s)).trans hsubject
  constructor
  · refine (hspells.isReadOf_iff op hsubject index).trans (and_congr_right fun _ => ?_)
    exact (and_iff_right (Nat.zero_le _)).symm.trans (hfits index)
  · have hwritten : (e.asOperand (e.draft s)).written s.dialect s.writer index =
        e.operandText (e.text s index) := e.written_asOperand hsubject index
    rw [← hwritten]
    refine ((e.spells_asOperand hspells).isReadOf_iff op hoperand index).trans ?_
    have htight := Expression.fits_operandSketch (k := binaryLevel op.symbol) hfits (by simp)
      (by simp)
    refine (htight index).trans ?_
    simp [Expression.isTight]

/-- Two conditions that both hold. -/
def Expression.bothFlags : Expression :=
  .logic .and (.field ⟨"A", none⟩ none) (.field ⟨"B", none⟩ none)

/-- The rows of one column. -/
def Query.oneColumn : Query := (Query.ofTable "T").project (.ofField ⟨"C", none⟩) none

/-- In front of a subquery the test is read as one of the second condition alone. -/
theorem Membership.text_bothFlags :
    renderInline (Criteria.inSelect .bothFlags .oneColumn .isIn) .postgreSql .standard =
        .ok "\"A\" AND \"B\" IN (SELECT \"C\" FROM \"T\")" ∧
      renderInline (Expression.membership .isIn .bothFlags [.int 1]) .postgreSql .standard =
        .ok "(\"A\" AND \"B\") IN (1)" ∧
      Text.read .postgreSql "\"A\" AND \"B\" IN (NULL)" = some (.binary "AND" (.operand "\"A\"")
        (.binary "IN" (.operand "\"B\"") (.group (.operand "NULL")))) :=
  ⟨rfl, rfl, rfl⟩

/-- The left sides differ, and only the one in front of the list is read as a whole. -/
theorem Membership.subjects_eq_iff_bothFlags :
    ∃ left left' : String, left ≠ left' ∧
      ¬ isIn.IsReadOf .postgreSql left (.binary "AND" (.operand "\"A\"") (.operand "\"B\"")) ∧
      isIn.IsReadOf .postgreSql left'
        (.group (.binary "AND" (.operand "\"A\"") (.operand "\"B\""))) := by
  have hquery : (Drafted.draft (Criteria.inSelect .bothFlags .oneColumn .isIn)
      (.outermost .postgreSql .standard .bound)).failure = none := rfl
  have hlist : (Drafted.draft (Expression.membership .isIn .bothFlags [.int 1])
      (.outermost .postgreSql .standard .bound)).failure = none := rfl
  obtain ⟨left, left', -, -, hleft, -, hread⟩ :=
    subjects_eq_iff (List.cons_ne_nil _ _) hquery hlist 0
  obtain ⟨hbare, hgrouped⟩ := hread (by decide) (fun _ => rfl)
  refine ⟨left, left', fun heq => ?_, fun h => ?_, hgrouped.mpr ⟨rfl, rfl⟩⟩
  · cases hleft.mp heq
  · exact absurd (hbare.mp h).1 (by decide)

end DialectSql
