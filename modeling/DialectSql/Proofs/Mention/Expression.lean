import DialectSql.Proofs.Forms
import DialectSql.Proofs.Mention
import DialectSql.Proofs.NaturalOrder.Lift

/-!
# Mentions of expressions

Almost all references of an expression are mentioned where it is written. A membership test in an
empty list and the current time are written without their operands. Some expressions are written as
a column and nothing else, which a column is, and where bits are no conditions a test of one for
truth.

## Main definitions

* `Expression.mentions` — the references of an expression that are written
* `Expression.soleColumn?` — the column as which an expression is written, if that is all of it

## Main results

* `Expression.mentions_sublist` — what is mentioned is referred to
* `Expression.mentions_draft` — what is read from an expression
* `Expression.signs_draft_eq_column_iff` — when a column is read from it and nothing else
* `Expression.mentions_relocate` — moving an expression moves what it mentions
-/

namespace DialectSql

open Text

namespace Expression

open Draft

mutual

/-- The references of an expression that are written, from left to right. -/
def mentions : Expression → List Reference
  | constant _ => []
  | field f _ => [.field f]
  | arithmetic _ left right => left.mentions ++ right.mentions
  | comparison _ left right => left.mentions ++ right.mentions
  | logic _ left right => left.mentions ++ right.mentions
  | bitwise _ left right => left.mentions ++ right.mentions
  | unary _ operand => operand.mentions
  | like subject pattern _ => subject.mentions ++ pattern.mentions
  | membership _ subject values => if values.isEmpty then [] else subject.mentions
  | call function args _ => if function = .now then [] else mentionsList args
  | wildcard source => if source.isSome then [.wildcard source] else []

/-- The references of a list of expressions that are written. -/
def mentionsList : List Expression → List Reference
  | [] => []
  | e :: es => e.mentions ++ mentionsList es

end

/-- The column as which an expression is written in a dialect, if that is all of it: its own, or the
one that is tested for truth where a test of truth is its subject. -/
def soleColumn? (d : Dialect) : Expression → Option Field
  | field f _ => some f
  | comparison op left right =>
    if d ≠ .sqlServer then none
    else if right.affirms op then left.field?
    else if left.affirms op then right.field?
    else none
  | _ => none

mutual

/-- What an expression mentions is among its references, in the same order. -/
theorem mentions_sublist : ∀ e : Expression, e.mentions.Sublist e.references
  | constant _ => .refl _
  | field _ _ => .refl _
  | arithmetic _ left right | comparison _ left right | logic _ left right
  | bitwise _ left right | like left right _ =>
    (mentions_sublist left).append (mentions_sublist right)
  | unary _ operand => mentions_sublist operand
  | membership _ subject values => by
    rw [mentions]
    split
    · exact List.nil_sublist _
    · exact mentions_sublist subject
  | call function args _ => by
    rw [mentions]
    split
    · exact List.nil_sublist _
    · exact mentionsList_sublist args
  | wildcard source? => by
    rw [mentions]
    split
    · exact .refl _
    · exact List.nil_sublist _

theorem mentionsList_sublist :
    ∀ es : List Expression, (mentionsList es).Sublist (referencesList es)
  | [] => .refl _
  | e :: es => (mentions_sublist e).append (mentionsList_sublist es)

end

variable {s : Setting} {a : Draft} {refs refs' : List Reference}

/-! ### Nodes -/

/-- An operand is mentioned in parentheses or without. -/
theorem mentions_asOperand (e : Expression) (h : Mentions refs a) :
    Mentions refs (e.asOperand a) := by
  unfold asOperand
  split
  · exact h.parens.mentions
  · exact h

/-- An operand that is no column is more than one. -/
theorem mixed_asOperand {e : Expression} (h : Mentions refs a)
    (hmixed : e.soleColumn? s.dialect = none → Mixed refs a) (hfield : e.field? = none) :
    Mixed refs (e.asOperand a) := by
  unfold asOperand
  split
  · exact h.parens
  · next hcompound =>
    refine hmixed ?_
    cases e with
    | field => cases hfield
    | comparison => exact absurd rfl hcompound
    | _ => rfl

theorem mentions_of_isNullConstant {e : Expression} (h : e.isNullConstant = true) :
    e.mentions = [] := by
  unfold isNullConstant at h
  split at h
  · rfl
  · cases h

theorem mentions_of_boolConstant? {e : Expression} {truth : Bool}
    (h : e.boolConstant? = some truth) : e.mentions = [] := by
  cases e with
  | constant => rfl
  | _ => cases h

theorem mixed_plainComparison (op : Comparison) {left right : Draft} (hl : Mentions refs left)
    (hr : Mentions refs' right) : Mixed (refs ++ refs') (plainComparison op left right) := by
  refine hl.separated ?_ hr
  cases op <;> rfl

/-- A test of truth is its subject only if that is what the test asks for. -/
theorem mentions_booleanTest (equality truth : Bool) (h : Mentions refs a) :
    Mentions refs (booleanTest equality truth a) ∧
      ((equality == truth) = false ∨ Mixed refs a → Mixed refs (booleanTest equality truth a)) := by
  unfold booleanTest
  cases hsame : equality == truth with
  | true => exact ⟨h, fun hmixed => hmixed.resolve_left (by simp)⟩
  | false =>
    have hnot : Mixed refs (.text "NOT " ++ a) := h.lead rfl
    exact ⟨hnot.mentions, fun _ => hnot⟩

/-- A comparison mentions what its sides mention, and it is more than a column unless it is written
as one of its sides. -/
theorem mentions_comparisonDraft (op : Comparison) (left right : Expression)
    {leftDraft rightDraft : Draft} (hl : Mentions left.mentions (left.asOperand leftDraft))
    (hr : Mentions right.mentions (right.asOperand rightDraft))
    (hl' : left.field? = none → Mixed left.mentions (left.asOperand leftDraft))
    (hr' : right.field? = none → Mixed right.mentions (right.asOperand rightDraft)) :
    Mentions (comparison op left right).mentions
        (comparisonDraft s op left right leftDraft rightDraft) ∧
      ((comparison op left right).soleColumn? s.dialect = none →
        Mixed (comparison op left right).mentions
          (comparisonDraft s op left right leftDraft rightDraft)) := by
  have hplain := mixed_plainComparison op hl hr
  rw [mentions]
  have hnull : ∀ test ∈ [" IS NULL", " IS NOT NULL"], isFiller test = true := by decide
  have hwrites := writesComparison s op left right leftDraft rightDraft
  generalize comparisonDraft s op left right leftDraft rightDraft = draft at hwrites ⊢
  -- A side that is not written is a constant, and mentions nothing.
  cases hwrites with
  | nullRight htest hright =>
    rw [mentions_of_isNullConstant hright, List.append_nil]
    exact (hl.followed (hnull _ htest)).mentions_and
  | nullLeft htest hleft =>
    rw [mentions_of_isNullConstant hleft, List.nil_append]
    exact (hr.followed (hnull _ htest)).mentions_and
  | @truthRight equality truth hdialect hequality hright =>
    obtain ⟨hmentions, htest⟩ := mentions_booleanTest equality truth hl
    rw [mentions_of_boolConstant? hright, List.append_nil]
    refine ⟨hmentions, fun hsole => htest ?_⟩
    cases hsame : equality == truth with
    | false => exact .inl rfl
    | true =>
      refine .inr (hl' ?_)
      simpa [soleColumn?, hdialect, affirms, hright, hequality, hsame] using hsole
  | @truthLeft equality truth hdialect hequality hright hleft =>
    obtain ⟨hmentions, htest⟩ := mentions_booleanTest equality truth hr
    rw [mentions_of_boolConstant? hleft, List.nil_append]
    refine ⟨hmentions, fun hsole => htest ?_⟩
    cases hsame : equality == truth with
    | false => exact .inl rfl
    | true =>
      refine .inr (hr' ?_)
      simpa [soleColumn?, hdialect, affirms, hright, hleft, hequality, hsame] using hsole
  | operator => exact hplain.mentions_and

/-- A bitwise operation that a dialect has is an operator or a function. -/
theorem mixed_bitwiseDraft (op : Bitwise) (left right : Expression) {leftDraft rightDraft : Draft}
    (hl : Mentions refs leftDraft) (hr : Mentions refs' rightDraft) :
    Mixed (refs ++ refs') (bitwiseDraft s op left right leftDraft rightDraft) := by
  have hsymbols : ∀ symbol ∈ ["&", "|", "^", "#"], isFiller (" " ++ symbol ++ " ") = true := by
    decide
  have hwrites := writesBitwise s op left right leftDraft rightDraft
  generalize bitwiseDraft s op left right leftDraft rightDraft = draft at hwrites ⊢
  cases hwrites with
  | operator hsymbol =>
    exact (mentions_asOperand left hl).separated (hsymbols _ hsymbol) (mentions_asOperand right hr)
  | function => exact (hl.separated rfl hr).mentions.call rfl
  | missing => exact .fail _ _

theorem mixed_arithmeticDraft (op : Arithmetic) (left right : Expression)
    {leftDraft rightDraft : Draft} (hl : Mentions refs leftDraft)
    (hr : Mentions refs' rightDraft) :
    Mixed (refs ++ refs') (arithmeticDraft s op left right leftDraft rightDraft) := by
  have hsymbol : ∀ op : Arithmetic, isFiller (" " ++ op.symbol ++ " ") = true := by
    intro op
    cases op <;> rfl
  unfold arithmeticDraft
  split
  · exact (hl.separated rfl hr).mentions.call rfl
  · exact (mentions_asOperand left hl).separated (hsymbol _) (mentions_asOperand right hr)

theorem mixed_unaryDraft (op : Unary) (operand : Expression) (h : Mentions refs a) :
    Mixed refs (unaryDraft op operand a) := by
  cases op with
  | not => exact h.call rfl
  | negate => exact h.call rfl
  | bitNot => exact (mentions_asOperand operand h).lead rfl

/-- A pattern mentions the same with its wildcards or without. -/
theorem mentions_patternDraft (pattern : Expression) (mode : LikeMode)
    (h : Mentions pattern.mentions a) :
    Mentions pattern.mentions (patternDraft s pattern a mode) := by
  have hpattern := mentions_asOperand pattern h
  -- A wildcard is one more operand that mentions nothing.
  have hany : ∀ {p : Prop} [Decidable p], ∃ rs : List (List Reference), rs.flatten = [] ∧
      List.Forall₂ Mentions rs (if p then [anyRunLiteral] else []) := by
    intro p _
    split
    · exact ⟨[[]], rfl, .cons (Mixed.text rfl).mentions .nil⟩
    · exact ⟨[], rfl, .nil⟩
  obtain ⟨front, hfront, hfront'⟩ := hany (p := mode.leading = true)
  obtain ⟨back, hback, hback'⟩ := hany (p := mode.trailing = true)
  have hconcatenation := mentions_concatenation s.dialect
    (List.rel_append (List.rel_append hfront' (.cons hpattern .nil)) hback')
  rw [List.flatten_append, List.flatten_append, hfront, hback, List.nil_append, List.append_nil,
    List.flatten_cons, List.flatten_nil, List.append_nil] at hconcatenation
  unfold patternDraft
  dsimp only
  split
  · exact (Mixed.constant _).mentions
  · split
    · exact hpattern
    · exact hconcatenation

theorem mixed_membershipDraft (op : Membership) (subject : Expression) (values : List Value)
    (h : Mentions refs a) : Mixed (if values.isEmpty then [] else refs)
      (membershipDraft op subject a values) := by
  have hvalues : Mentions [] (Draft.list (values.map .constant)) := by
    have hlist : Mentions (values.flatMap fun _ => []) (Draft.list (values.map .constant)) :=
      .items fun v _ => (Mixed.constant v).mentions
    rwa [List.flatMap_eq_nil_iff.mpr fun _ _ => rfl] at hlist
  unfold membershipDraft
  split
  · refine .text ?_
    cases op <;> rfl
  · have hall := (mentions_asOperand subject h).separated (t := " " ++ op.symbol ++ " ")
      (by cases op <;> rfl) hvalues.parens.mentions
    rwa [List.append_nil] at hall

theorem mixed_nowDraft (dialect : Dialect) : Mixed [] (nowDraft dialect) := by
  cases dialect with
  | sqlServer | mySql | postgreSql => exact Mentions.empty.call rfl
  | sqlite => exact (Mixed.text rfl).mentions.call rfl
  | oracle | oledb | other => exact .text rfl

theorem mixed_callDraft (function : Builtin) {args : List Draft} (distinct : Bool)
    (h : Mentions refs (Draft.list args)) :
    Mixed (if function = .now then [] else refs) (callDraft s function args distinct) := by
  have hbody : Mentions refs
      ((if distinct then .text "DISTINCT " else .empty) ++ Draft.list args : Draft) := by
    split
    · exact (h.lead rfl).mentions
    · exact Mentions.empty.append h
  -- The current time is written without arguments.
  by_cases hnow : function = .now
  · rw [hnow, if_pos rfl]
    exact mixed_nowDraft _
  · rw [if_neg hnow]
    unfold callDraft
    dsimp only
    split
    · exact absurd rfl hnow
    · exact (hbody.call rfl).mentions.call rfl
    · refine hbody.call ?_
      unfold builtinName
      split <;> rfl

/-- A wildcard mentions its source. -/
theorem mixed_wildcard (source? : Option String) :
    Mixed (wildcard source?).mentions ((wildcard source?).draft s) := by
  cases source? with
  | none => exact .text rfl
  | some source =>
    exact fun _ => ⟨_, (Reads.quoted source).append (.text ".*"), .wildcard source, rfl⟩

/-! ### Expressions -/

mutual

/-- An expression is written with what it mentions, and it is more than a column unless it is
written as one. -/
theorem mentions_draft (s : Setting) : ∀ e : Expression, Mentions e.mentions (e.draft s) ∧
    (e.soleColumn? s.dialect = none → Mixed e.mentions (e.draft s))
  | constant v => (Mixed.constant v).mentions_and
  | field f _ => ⟨f.mentions_draft, fun h => by cases h⟩
  | arithmetic op left right =>
    (mixed_arithmeticDraft op left right (mentions_draft s left).1
      (mentions_draft s right).1).mentions_and
  | comparison op left right => by
    obtain ⟨hl, hl'⟩ := mentions_draft s left
    obtain ⟨hr, hr'⟩ := mentions_draft s right
    exact mentions_comparisonDraft op left right (mentions_asOperand left hl)
      (mentions_asOperand right hr) (mixed_asOperand hl hl') (mixed_asOperand hr hr')
  | logic op left right => by
    have hl := mentions_asOperand left (mentions_draft s left).1
    have hr := mentions_asOperand right (mentions_draft s right).1
    refine Mixed.mentions_and (hl.separated ?_ hr)
    cases op <;> rfl
  | bitwise op left right =>
    (mixed_bitwiseDraft op left right (mentions_draft s left).1
      (mentions_draft s right).1).mentions_and
  | unary op operand => (mixed_unaryDraft op operand (mentions_draft s operand).1).mentions_and
  | like subject pattern mode => by
    have hsubject := mentions_asOperand subject (mentions_draft s subject).1
    have hpattern := mentions_patternDraft (s := s) pattern mode (mentions_draft s pattern).1
    exact (hsubject.separated rfl hpattern).mentions_and
  | membership op subject values =>
    (mixed_membershipDraft op subject values (mentions_draft s subject).1).mentions_and
  | call function args distinct =>
    (mixed_callDraft function distinct (mentions_draftList s args)).mentions_and
  | wildcard source? => (mixed_wildcard source?).mentions_and

/-- Arguments are written with what they mention. -/
theorem mentions_draftList (s : Setting) :
    ∀ es : List Expression, Mentions (mentionsList es) (Draft.list (draftList s es))
  | [] => .empty
  | [e] => by
    have hfirst := (mentions_draft s e).1
    rwa [mentionsList, mentionsList, List.append_nil]
  | e :: e' :: es =>
    ((mentions_draft s e).1.separated rfl (mentions_draftList s (e' :: es))).mentions

end

/-- A comparison asks for a boolean constant only if it is one of equality. -/
theorem eq_of_affirms {op : Comparison} {e : Expression} (h : e.affirms op = true) :
    op = .equal ∧ e = .constant (.bool true) ∨ op = .notEqual ∧ e = .constant (.bool false) := by
  rw [affirms, Option.any_eq_true] at h
  obtain ⟨truth, htruth, hequality⟩ := h
  obtain ⟨value, rfl⟩ : ∃ value, e = constant value := by
    cases e with
    | constant value => exact ⟨value, rfl⟩
    | _ => cases htruth
  obtain rfl : value = .bool truth := by
    cases value <;> cases htruth
    rfl
  cases op <;> cases truth <;> simp [equality?] at hequality ⊢

/-- An expression that is written as a column is that column. -/
theorem draft_of_soleColumn? {e : Expression} {f : Field} (h : e.soleColumn? s.dialect = some f) :
    e.draft s = f.draft := by
  cases e with
  | field f' _ =>
    cases h
    rfl
  | comparison op left right =>
    -- A comparison is written as one of its sides, which is the column then.
    have hfield : ∀ {e : Expression}, e.field? = some f → ∃ type, e = .field f type := by
      intro e he
      cases e <;> cases he
      exact ⟨_, rfl⟩
    rw [soleColumn?] at h
    split at h
    · cases h
    · next hd =>
      have hd : s.dialect = .sqlServer := not_not.mp hd
      split at h
      · next hright =>
        obtain ⟨type, rfl⟩ := hfield h
        rcases eq_of_affirms hright with ⟨rfl, rfl⟩ | ⟨rfl, rfl⟩ <;>
          simp [draft, comparisonDraft, nullTest?, equality?, isNullConstant, boolConstant?, hd,
            booleanTest, asOperand, isCompound, constant?, Value.bool?]
      · split at h
        · next hleft =>
          obtain ⟨type, rfl⟩ := hfield h
          rcases eq_of_affirms hleft with ⟨rfl, rfl⟩ | ⟨rfl, rfl⟩ <;>
            simp [draft, comparisonDraft, nullTest?, equality?, isNullConstant, boolConstant?, hd,
              booleanTest, asOperand, isCompound, constant?, Value.bool?]
        · cases h
  | _ => cases h

/-- An expression has the signs of a column exactly if it is written as that column. -/
theorem signs_draft_eq_column_iff {e : Expression} (hsuccess : (e.draft s).failure = none)
    {f : Field} : (e.draft s).signs = Sign.column f ↔ e.soleColumn? s.dialect = some f := by
  cases hsole : e.soleColumn? s.dialect with
  | none =>
    -- Something in the draft is neither a name nor a point.
    have hmixed := ((mentions_draft s e).2 hsole).isColumn_signs hsuccess
    refine ⟨fun h => ?_, fun h => by cases h⟩
    rw [h, Sign.isColumn_column] at hmixed
    cases hmixed
  | some f' =>
    rw [draft_of_soleColumn? hsole] at hsuccess ⊢
    rw [f'.reads_draft.signs_eq hsuccess, Part.signsIn_map_leaf, Option.some.injEq]
    exact Sign.column_injective.eq_iff

/-! ### Moved expressions -/

mutual

/-- A moved expression mentions the same columns on another source, and the same wildcards. -/
theorem mentions_relocate (target : String) : ∀ e : Expression,
    (e.relocate target).mentions = e.mentions.map (·.movedOnto target)
  | constant _ => rfl
  | field _ _ => rfl
  | arithmetic _ left right | comparison _ left right | logic _ left right
  | bitwise _ left right | like left right _ => by
    have hl := mentions_relocate target left
    have hr := mentions_relocate target right
    simp only [relocate] at hl hr
    simp only [relocate, requalify, mentions, List.map_append, hl, hr]
  | unary _ operand => mentions_relocate target operand
  | membership _ subject values => by
    have hsubject := mentions_relocate target subject
    simp only [relocate] at hsubject
    simp only [relocate, requalify, mentions, hsubject]
    split <;> rfl
  | call function args _ => by
    simp only [relocate, requalify, mentions, mentionsList_relocate target args]
    split <;> rfl
  | wildcard source? => by
    simp only [relocate, requalify, mentions, Requalification.onto]
    split <;> rfl

theorem mentionsList_relocate (target : String) : ∀ es : List Expression,
    mentionsList (requalifyList (.onto (some target)) es) =
      (mentionsList es).map (·.movedOnto target)
  | [] => rfl
  | e :: es => by
    have hfirst := mentions_relocate target e
    simp only [relocate] at hfirst
    simp only [requalifyList, mentionsList, List.map_append, hfirst,
      mentionsList_relocate target es]

end

/-- What a moved expression is written as moves with it. -/
theorem soleColumn?_relocate (d : Dialect) (target : String) (e : Expression) :
    (e.relocate target).soleColumn? d =
      (e.soleColumn? d).map (·.withSource (some target)) := by
  have hfield : ∀ e : Expression, (e.requalify (.onto (some target))).field? =
      e.field?.map (·.withSource (some target)) := fun e => by cases e <;> rfl
  have haffirms : ∀ (op : Comparison) (e : Expression),
      (e.requalify (.onto (some target))).affirms op = e.affirms op := fun _ e => by cases e <;> rfl
  cases e with
  | comparison op left right =>
    simp only [relocate, requalify, soleColumn?, hfield, haffirms]
    split
    · rfl
    · split
      · rfl
      · split <;> rfl
  | _ => rfl

end Expression

end DialectSql
