import DialectSql.Draft.Expression
import DialectSql.Proofs.Grouping
import DialectSql.Proofs.Precedence.Sketch

/-!
# Sketches of expressions

What the text of an expression is meant to be read as: every operator that is written is applied to
the operands of its node. Tests, functions and constants that a dialect has in place of an operator
are the written form of their nodes.

## Main definitions

* `Expression.comparisonForm` — whether a comparison is written as a test or as an operator
* `Expression.sketch` — the sketch of an expression in a setting

## Main results

* `Expression.arithmeticDraft_eq`, `Expression.comparisonDraft_eq`, `Expression.patternDraft_eq`,
  `Expression.callDraft_eq` — nodes are written in their forms
-/

namespace DialectSql

open Text

/-! ## Forms -/

/-- Whether a dialect has a function for an arithmetic operation. -/
def Arithmetic.isFunction (op : Arithmetic) (d : Dialect) : Bool := op = .modulo ∧ d = .oracle

/-- A side of a comparison. -/
inductive Side
  | left
  | right

/-- What is on a side. -/
def Side.of {α : Type} (left right : α) : Side → α
  | .left => left
  | .right => right

namespace Expression

/-- Arithmetic is written as a function or as an operator. -/
theorem arithmeticDraft_eq (s : Setting) (op : Arithmetic) (left right : Expression)
    (leftDraft rightDraft : Draft) :
    arithmeticDraft s op left right leftDraft rightDraft =
      if op.isFunction s.dialect then .text "MOD" ++ (leftDraft ++ .text ", " ++ rightDraft).parens
      else
        left.asOperand leftDraft ++ .text (" " ++ op.symbol ++ " ") ++
          right.asOperand rightDraft := by
  obtain ⟨dialect, config, mode, depth⟩ := s
  cases op <;> cases dialect <;> rfl

/-- How a comparison is written. -/
inductive ComparisonForm
  /-- As a test of one side for NULL. -/
  | nullTest (negated : Bool) (subject : Side)
  /-- As one side, which is a condition itself. -/
  | truthTest (negated : Bool) (subject : Side)
  | operator

/-- How a comparison is written. -/
def comparisonForm (s : Setting) (op : Comparison) (left right : Expression) : ComparisonForm :=
  match equality? op with
  | none => .operator
  | some equality =>
    if right.isNullConstant then .nullTest (!equality) .left
    else if left.isNullConstant then .nullTest (!equality) .right
    else if s.dialect = .sqlServer then
      match right.boolConstant?, left.boolConstant? with
      | some truth, _ => .truthTest (equality != truth) .left
      | none, some truth => .truthTest (equality != truth) .right
      | none, none => .operator
    else .operator

/-- The operator of a test for NULL. -/
def nullOperator (negated : Bool) : String := if negated then "IS NOT" else "IS"

/-- A comparison is written in its form. -/
theorem comparisonDraft_eq (s : Setting) (op : Comparison) (left right : Expression)
    (leftDraft rightDraft : Draft) :
    comparisonDraft s op left right leftDraft rightDraft =
      let leftOperand := left.asOperand leftDraft
      let rightOperand := right.asOperand rightDraft
      match comparisonForm s op left right with
      | .nullTest negated side =>
        side.of leftOperand rightOperand ++ .text (" " ++ nullOperator negated ++ " " ++ "NULL")
      | .truthTest negated side =>
        if negated then .text "NOT " ++ side.of leftOperand rightOperand
        else side.of leftOperand rightOperand
      | .operator => plainComparison op leftOperand rightOperand := by
  have hisNull : " IS NULL" = " " ++ nullOperator false ++ " " ++ "NULL" := rfl
  have hisNotNull : " IS NOT NULL" = " " ++ nullOperator true ++ " " ++ "NULL" := rfl
  have htruth : ∀ equality truth (subject : Draft), booleanTest equality truth subject =
      if (equality != truth) = true then .text "NOT " ++ subject else subject := by
    intro equality truth subject
    cases equality <;> cases truth <;> rfl
  -- Only comparisons of equality are written as tests.
  cases op with
  | equal | notEqual =>
    simp only [comparisonDraft, comparisonForm, nullTest?, equality?, htruth, hisNull, hisNotNull]
    split
    · rfl
    · split
      · rfl
      · split
        · cases right.boolConstant? <;> cases left.boolConstant? <;> rfl
        · rfl
  | lessThan | lessThanOrEqual | greaterThan | greaterThanOrEqual => rfl

/-- The text of a pattern that takes its wildcards inside, because it is a constant. -/
def foldedPattern? (s : Setting) : Expression → Option String
  | constant (.text t) => if s.dialect = .sqlite then some t else none
  | _ => none

/-- Operands with a wildcard on the sides that a mode says. -/
def surrounded {α : Type} (mode : LikeMode) (wildcard operand : α) : List α :=
  (if mode.leading then [wildcard] else []) ++ [operand] ++
    (if mode.trailing then [wildcard] else [])

/-- A pattern takes its wildcards inside, or has none, or is written as a concatenation. -/
theorem patternDraft_eq (s : Setting) (pattern : Expression) (inner : Draft) (mode : LikeMode) :
    patternDraft s pattern inner mode =
      match foldedPattern? s pattern with
      | some t =>
        .constant (.text ((if mode.leading then "%" else "") ++ t ++
          (if mode.trailing then "%" else "")))
      | none =>
        if mode = .exact then pattern.asOperand inner
        else
          .concatenation s.dialect (surrounded mode anyRunLiteral (pattern.asOperand inner)) := by
  cases hfolded : foldedPattern? s pattern with
  | some t =>
    unfold foldedPattern? at hfolded
    split at hfolded
    · split at hfolded
      · next hdialect =>
        cases hfolded
        simp [patternDraft, hdialect]
      · cases hfolded
    · cases hfolded
  | none =>
    unfold patternDraft
    dsimp only
    split
    · next hdialect => simp [foldedPattern?, hdialect] at hfolded
    · rfl

/-- A call is the current time, or of one function for each end, or of a function by its name. -/
theorem callDraft_eq (s : Setting) (function : Builtin) (args : List Draft) (distinct : Bool) :
    callDraft s function args distinct =
      let body := (if distinct then .text "DISTINCT " else .empty) ++ Draft.list args
      if function = .now then nowDraft s.dialect
      else if function = .trim ∧ s.dialect = .sqlServer then
        .text "LTRIM" ++ (.text "RTRIM" ++ body.parens : Draft).parens
      else .text (builtinName function s.dialect) ++ body.parens := by
  obtain ⟨dialect, config, mode, depth⟩ := s
  cases function <;> cases dialect <;> rfl

/-! ## Sketches -/

/-- The sketch of an operand: in parentheses if the operand is an operator itself. -/
def operandSketch (e : Expression) (a : Sketch) : Sketch := if e.isCompound then a.group else a

/-- Arithmetic from the sketches of its operands. -/
def arithmeticSketch (s : Setting) (op : Arithmetic) (left right : Expression) (a b : Sketch) :
    Sketch :=
  if op.isFunction s.dialect then .call "MOD" (.binary "," a b)
  else .binary op.symbol (left.operandSketch a) (right.operandSketch b)

/-- A comparison from the sketches of its operands. -/
def comparisonSketch (s : Setting) (op : Comparison) (left right : Expression) (a b : Sketch) :
    Sketch :=
  let leftOperand := left.operandSketch a
  let rightOperand := right.operandSketch b
  match comparisonForm s op left right with
  | .nullTest negated side =>
    .binary (nullOperator negated) (side.of leftOperand rightOperand) (.leaf (.operand "NULL"))
  | .truthTest negated side =>
    if negated then .unary "NOT" (side.of leftOperand rightOperand)
    else side.of leftOperand rightOperand
  | .operator => .binary op.symbol leftOperand rightOperand

/-- A bitwise operation from the sketches of its operands. -/
def bitwiseSketch (s : Setting) (op : Bitwise) (left right : Expression) (a b : Sketch) : Sketch :=
  match bitwiseForm op s.dialect with
  | .operator symbol => .binary symbol (left.operandSketch a) (right.operandSketch b)
  | .function name => .call name (.binary "," a b)
  | .missing _ => .leaf (.operand "")

/-- An operation on one operand from its sketch. -/
def unarySketch (op : Unary) (operand : Expression) (a : Sketch) : Sketch :=
  match op with
  | .not => .unary "NOT" a.group
  | .negate => .unary "-" a.group
  | .bitNot => .unary "~" (operand.operandSketch a)

/-- The wildcard of patterns. -/
def anyRunSketch : Sketch := .leaf (.operand "'%'")

/-- A pattern from its sketch, with the wildcards of its mode. -/
def patternSketch (s : Setting) (pattern : Expression) (a : Sketch) (mode : LikeMode) : Sketch :=
  match foldedPattern? s pattern with
  | some t =>
    .constant s.writer (.text ((if mode.leading then "%" else "") ++ t ++
      (if mode.trailing then "%" else "")))
  | none =>
    if mode = .exact then pattern.operandSketch a
    else .concatenation s.dialect (surrounded mode anyRunSketch (pattern.operandSketch a))

/-- The comparison that membership in an empty list stands for. -/
def emptyMembershipTerm : Membership → Term
  | .isIn => .binary "<>" (.operand "1") (.operand "1")
  | .notIn => .binary "=" (.operand "1") (.operand "1")

/-- Membership from the sketch of its subject. -/
def membershipSketch (s : Setting) (op : Membership) (subject : Expression) (a : Sketch)
    (values : List Value) : Sketch :=
  if values.isEmpty then .leaf (emptyMembershipTerm op)
  else
    .binary op.symbol (subject.operandSketch a)
      (Sketch.chain "," (values.map (.constant s.writer))).group

/-- The current time. -/
def nowSketch (d : Dialect) : Sketch :=
  let name := builtinName .now d
  match d with
  | .sqlServer | .mySql | .postgreSql => .call name (.leaf .nothing)
  | .sqlite => .call name (.leaf (.operand "'now'"))
  | .oracle | .oledb | .other => .leaf (.operand name)

/-- A function call from the sketches of its arguments. -/
def callSketch (s : Setting) (function : Builtin) (args : List Sketch) (distinct : Bool) :
    Sketch :=
  let arguments := Sketch.chain "," args
  let body := if distinct then .unary "DISTINCT" arguments else arguments
  if function = .now then nowSketch s.dialect
  else if function = .trim ∧ s.dialect = .sqlServer then .call "LTRIM" (.call "RTRIM" body)
  else .call (builtinName function s.dialect) body

end Expression

/-- The text of a column reference. -/
def Field.text (d : Dialect) (f : Field) : String :=
  match f.source with
  | some source => d.quoteIdentifier source ++ "." ++ d.quoteIdentifier f.name
  | none => d.quoteIdentifier f.name

namespace Expression

mutual

/-- The sketch of an expression in a setting. -/
def sketch (s : Setting) : Expression → Sketch
  | constant value => .constant s.writer value
  | field f _ => .leaf (.operand (f.text s.dialect))
  | arithmetic op left right => arithmeticSketch s op left right (left.sketch s) (right.sketch s)
  | comparison op left right => comparisonSketch s op left right (left.sketch s) (right.sketch s)
  | logic op left right =>
    .binary op.symbol (left.operandSketch (left.sketch s)) (right.operandSketch (right.sketch s))
  | bitwise op left right => bitwiseSketch s op left right (left.sketch s) (right.sketch s)
  | unary op operand => unarySketch op operand (operand.sketch s)
  | like subject pattern mode =>
    .binary "LIKE" (subject.operandSketch (subject.sketch s))
      (patternSketch s pattern (pattern.sketch s) mode)
  | membership op subject values => membershipSketch s op subject (subject.sketch s) values
  | call function args distinct => callSketch s function (sketchList s args) distinct
  | wildcard (some source) => .leaf (.operand (s.dialect.quoteIdentifier source ++ ".*"))
  | wildcard none => .leaf .star

/-- The sketches of expressions in a setting. -/
def sketchList (s : Setting) : List Expression → List Sketch
  | [] => []
  | e :: es => e.sketch s :: sketchList s es

end

end Expression

/-! ## Symbols -/

@[simp] theorem Arithmetic.binaryLevel_symbol (op : Arithmetic) : binaryLevel op.symbol = 7 := by
  cases op <;> rfl

@[simp] theorem Comparison.binaryLevel_symbol (op : Comparison) : binaryLevel op.symbol = 6 := by
  cases op <;> rfl

@[simp] theorem Membership.binaryLevel_symbol (op : Membership) : binaryLevel op.symbol = 6 := by
  cases op <;> rfl

theorem Logic.lt_binaryLevel_symbol (op : Logic) : 2 < binaryLevel op.symbol := by
  cases op <;> decide

namespace Expression

@[simp] theorem binaryLevel_nullOperator (negated : Bool) :
    binaryLevel (nullOperator negated) = 6 := by
  cases negated <;> rfl

theorem binaryLevel_of_bitwiseForm {op : Bitwise} {dialect : Dialect} {symbol : String}
    (h : bitwiseForm op dialect = .operator symbol) : binaryLevel symbol = 7 := by
  have hlevels : ∀ symbol ∈ ["&", "|", "^", "#"], binaryLevel symbol = 7 := by decide
  exact hlevels symbol (mem_of_bitwiseForm h)

end Expression

end DialectSql
