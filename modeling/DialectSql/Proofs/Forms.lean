import DialectSql.Draft.Expression

/-!
# Forms of expressions

Some nodes of an expression are written in one of several ways, which their operands, the dialect
and the mode of a pattern decide. Here each way is one case, with what holds where it is taken, so
that what is true of drafts is proved by these cases, wherever the decision is made.

## Main definitions

* `Expression.WritesComparison` — the ways in which a comparison is written
* `Expression.WritesBitwise` — the ways in which a bitwise operation is written
* `Expression.WritesPattern` — the ways in which a pattern is written

## Main results

* `Expression.writesComparison`, `Expression.writesBitwise`, `Expression.writesPattern` — there are
  no other ways
-/

namespace DialectSql

namespace Expression

variable (s : Setting)

/-! ## Comparisons -/

/-- The ways in which a comparison is written, from the drafts of its sides as operands. A side that
is not written is a constant. -/
inductive WritesComparison (op : Comparison) (left right : Expression) (a b : Draft) : Draft → Prop
  /-- A test of the left side for NULL. -/
  | nullRight {test : String} (htest : test ∈ [" IS NULL", " IS NOT NULL"])
      (hnull : right.isNullConstant = true) : WritesComparison op left right a b (a ++ .text test)
  /-- A test of the right side for NULL. -/
  | nullLeft {test : String} (htest : test ∈ [" IS NULL", " IS NOT NULL"])
      (hnull : left.isNullConstant = true) : WritesComparison op left right a b (b ++ .text test)
  /-- The left side as a condition, where there are no boolean constants. -/
  | truthRight {equality truth : Bool} (hdialect : s.dialect = .sqlServer)
      (hequality : equality? op = some equality) (hright : right.boolConstant? = some truth) :
      WritesComparison op left right a b (booleanTest equality truth a)
  /-- The right side as a condition, where there are no boolean constants. -/
  | truthLeft {equality truth : Bool} (hdialect : s.dialect = .sqlServer)
      (hequality : equality? op = some equality) (hright : right.boolConstant? = none)
      (hleft : left.boolConstant? = some truth) :
      WritesComparison op left right a b (booleanTest equality truth b)
  | operator : WritesComparison op left right a b (plainComparison op a b)

theorem mem_of_nullTest? {op : Comparison} {test : String} (h : nullTest? op = some test) :
    test ∈ [" IS NULL", " IS NOT NULL"] := by
  cases op <;> cases h <;> decide

/-- A comparison is written in one of its ways. -/
theorem writesComparison (op : Comparison) (left right : Expression)
    (leftDraft rightDraft : Draft) :
    WritesComparison s op left right (left.asOperand leftDraft) (right.asOperand rightDraft)
      (comparisonDraft s op left right leftDraft rightDraft) := by
  unfold comparisonDraft
  dsimp only
  split
  · next test equality htest hequality =>
    have hmem := mem_of_nullTest? htest
    split
    · next hnull => exact .nullRight hmem hnull
    · split
      · next hnull => exact .nullLeft hmem hnull
      · split
        · next hdialect =>
          split
          · next hright => exact .truthRight hdialect hequality hright
          · next hright hleft => exact .truthLeft hdialect hequality hright hleft
          · exact .operator
        · exact .operator
  · exact .operator

/-! ## Bitwise operations -/

/-- The ways in which a bitwise operation is written, from the drafts of its operands. -/
inductive WritesBitwise (op : Bitwise) (left right : Expression) (a b : Draft) : Draft → Prop
  | operator {symbol : String} (hsymbol : symbol ∈ ["&", "|", "^", "#"]) :
      WritesBitwise op left right a b
        (left.asOperand a ++ .text (" " ++ symbol ++ " ") ++ right.asOperand b)
  | function :
      WritesBitwise op left right a b (.text "BITAND" ++ (a ++ .text ", " ++ b).parens)
  /-- The dialect has no such operation. -/
  | missing {feature : Feature} (hmissing : bitwiseForm op s.dialect = .missing feature) :
      WritesBitwise op left right a b (.fail (.unsupported s.dialect feature))

theorem mem_of_bitwiseForm {op : Bitwise} {dialect : Dialect} {symbol : String}
    (h : bitwiseForm op dialect = .operator symbol) : symbol ∈ ["&", "|", "^", "#"] := by
  unfold bitwiseForm at h
  split at h <;> cases h <;> decide

theorem eq_of_bitwiseForm {op : Bitwise} {dialect : Dialect} {name : String}
    (h : bitwiseForm op dialect = .function name) : name = "BITAND" := by
  unfold bitwiseForm at h
  split at h <;> cases h
  rfl

/-- A bitwise operation is written in one of its ways. -/
theorem writesBitwise (op : Bitwise) (left right : Expression) (leftDraft rightDraft : Draft) :
    WritesBitwise s op left right leftDraft rightDraft
      (bitwiseDraft s op left right leftDraft rightDraft) := by
  unfold bitwiseDraft
  cases hform : bitwiseForm op s.dialect with
  | operator symbol => exact .operator (mem_of_bitwiseForm hform)
  | function name =>
    obtain rfl := eq_of_bitwiseForm hform
    exact .function
  | missing feature => exact .missing hform

/-! ## Patterns -/

/-- The ways in which a pattern is written, from its draft. -/
inductive WritesPattern (pattern : Expression) (a : Draft) : Draft → Prop
  /-- A constant that takes its wildcards inside. -/
  | folded (text : String) : WritesPattern pattern a (.constant (.text text))
  /-- A pattern without wildcards. -/
  | exact : WritesPattern pattern a (pattern.asOperand a)
  /-- A pattern with wildcards around it. -/
  | concatenation {operands : List Draft} (hne : operands ≠ [])
      (h : ∀ x ∈ operands, x = anyRunLiteral ∨ x = pattern.asOperand a) :
      WritesPattern pattern a (.concatenation s.dialect operands)

/-- A pattern is written in one of its ways. -/
theorem writesPattern (pattern : Expression) (inner : Draft) (mode : LikeMode) :
    WritesPattern s pattern inner (patternDraft s pattern inner mode) := by
  unfold patternDraft
  dsimp only
  split
  · exact .folded _
  · split
    · exact .exact
    · refine .concatenation (by simp) fun x hx => ?_
      simp only [List.mem_append, List.mem_singleton] at hx
      rcases hx with (hx | rfl) | hx
      · split at hx <;> simp_all
      · exact .inr rfl
      · split at hx <;> simp_all

end Expression

end DialectSql
