import DialectSql.Draft
import DialectSql.Query.Clause

/-!
# Drafts of expressions

Expressions, orders and projected expressions in the spelling of a dialect.

## Main definitions

* `Expression.draft` — an expression
* `Expression.asOperand` — the draft of an operand, in parentheses where it is an operator itself
* `Order.draft`, `Projection.draft` — the items of an ORDER BY and of a projection
-/

namespace DialectSql

/-- A column with its qualifier. -/
def Field.draft (f : Field) : Draft :=
  match f.source with
  | some source => .quoted source ++ .text "." ++ .quoted f.name
  | none => .quoted f.name

namespace Expression

/-- The draft of an operand: in parentheses if the operand is an operator itself. -/
def asOperand (e : Expression) (draft : Draft) : Draft :=
  if e.isCompound then draft.parens else draft

/-- Whether an expression is the constant NULL. -/
def isNullConstant : Expression → Bool
  | constant .null => true
  | _ => false

/-- The truth value of a boolean constant. -/
def boolConstant? (e : Expression) : Option Bool := e.constant?.bind Value.bool?

/-- Arithmetic from its operands. One dialect has a function for the remainder. -/
def arithmeticDraft (s : Setting) (op : Arithmetic) (left right : Expression)
    (leftDraft rightDraft : Draft) : Draft :=
  match op, s.dialect with
  | .modulo, .oracle => .text "MOD" ++ (leftDraft ++ .text ", " ++ rightDraft).parens
  | op, _ =>
    left.asOperand leftDraft ++ .text (" " ++ op.symbol ++ " ") ++ right.asOperand rightDraft

/-- The test for NULL that a comparison with the constant NULL stands for. -/
def nullTest? : Comparison → Option String
  | .equal => some " IS NULL"
  | .notEqual => some " IS NOT NULL"
  | _ => none

/-- Whether a comparison holds of operands that are equal, where it is one of equality. -/
def equality? : Comparison → Option Bool
  | .equal => some true
  | .notEqual => some false
  | _ => none

/-- A comparison as an operator between its operands. -/
def plainComparison (op : Comparison) (leftOperand rightOperand : Draft) : Draft :=
  leftOperand ++ .text (" " ++ op.symbol ++ " ") ++ rightOperand

/-- The comparison of a subject with a boolean constant where the dialect has no such constants: the
subject itself or its negation. -/
def booleanTest (equality truth : Bool) (subject : Draft) : Draft :=
  if equality == truth then subject else .text "NOT " ++ subject

/-- A comparison from its operands: a test for NULL, a test of truth, or an operator. -/
def comparisonDraft (s : Setting) (op : Comparison) (left right : Expression)
    (leftDraft rightDraft : Draft) : Draft :=
  let leftOperand := left.asOperand leftDraft
  let rightOperand := right.asOperand rightDraft
  match nullTest? op, equality? op with
  | some test, some equality =>
    if right.isNullConstant then leftOperand ++ .text test
    else if left.isNullConstant then rightOperand ++ .text test
    -- Bits are no conditions there, so the other side of a comparison with one is the test.
    else if s.dialect = .sqlServer then
      match right.boolConstant?, left.boolConstant? with
      | some truth, _ => booleanTest equality truth leftOperand
      | none, some truth => booleanTest equality truth rightOperand
      | none, none => plainComparison op leftOperand rightOperand
    else plainComparison op leftOperand rightOperand
  | _, _ => plainComparison op leftOperand rightOperand

/-- How a dialect writes a bitwise operation. -/
inductive BitwiseForm
  /-- As an operator. -/
  | operator (symbol : String)
  /-- As a function of both operands. -/
  | function (name : String)
  /-- Not at all. -/
  | missing (feature : Feature)

/-- How a dialect writes a bitwise operation. -/
def bitwiseForm : Bitwise → Dialect → BitwiseForm
  | .and, .oracle => .function "BITAND"
  | .or, .oracle => .missing .bitwiseOr
  | .xor, .oracle => .missing .bitwiseXor
  | .xor, .sqlite => .missing .bitwiseXor
  | .xor, .postgreSql => .operator "#"
  | .xor, _ => .operator "^"
  | .and, _ => .operator "&"
  | .or, _ => .operator "|"

/-- A bitwise operation from its operands. -/
def bitwiseDraft (s : Setting) (op : Bitwise) (left right : Expression)
    (leftDraft rightDraft : Draft) : Draft :=
  match bitwiseForm op s.dialect with
  | .operator symbol =>
    left.asOperand leftDraft ++ .text (" " ++ symbol ++ " ") ++ right.asOperand rightDraft
  | .function name => .text name ++ (leftDraft ++ .text ", " ++ rightDraft).parens
  | .missing feature => .fail (.unsupported s.dialect feature)

/-- An operation on one operand. -/
def unaryDraft (op : Unary) (operand : Expression) (operandDraft : Draft) : Draft :=
  match op with
  | .not => .text "NOT " ++ operandDraft.parens
  | .negate => .text "-" ++ operandDraft.parens
  | .bitNot => .text "~" ++ operand.asOperand operandDraft

/-- The wildcard of patterns as a text literal. -/
def anyRunLiteral : Draft := .text "'%'"

/-- A pattern with the wildcards of its mode. One dialect takes them inside a constant pattern, the
others as further operands of a concatenation. -/
def patternDraft (s : Setting) (pattern : Expression) (inner : Draft) (mode : LikeMode) : Draft :=
  let around (t : String) : String :=
    (if mode.leading then "%" else "") ++ t ++ (if mode.trailing then "%" else "")
  let operands :=
    (if mode.leading then [anyRunLiteral] else []) ++ [pattern.asOperand inner] ++
      (if mode.trailing then [anyRunLiteral] else [])
  match pattern, s.dialect with
  -- With its wildcards the pattern is still a single constant, and bound as one.
  | constant (.text t), .sqlite => .constant (.text (around t))
  | _, dialect =>
    if mode = .exact then pattern.asOperand inner else .concatenation dialect operands

/-- The test that membership in an empty list stands for. -/
def emptyMembership : Membership → String
  | .isIn => "1<>1"
  | .notIn => "1=1"

/-- Membership in a list of values. -/
def membershipDraft (op : Membership) (subject : Expression) (subjectDraft : Draft)
    (values : List Value) : Draft :=
  -- A list between parentheses needs an item.
  if values.isEmpty then .text (emptyMembership op)
  else
    subject.asOperand subjectDraft ++ .text (" " ++ op.symbol ++ " ") ++
      (Draft.list (values.map .constant)).parens

/-- The name of a function. -/
def builtinName : Builtin → Dialect → String
  | .count, _ => "COUNT"
  | .sum, _ => "SUM"
  | .avg, _ => "AVG"
  | .max, _ => "MAX"
  | .min, _ => "MIN"
  | .upper, _ => "UPPER"
  | .lower, _ => "LOWER"
  | .length, .sqlServer => "LEN"
  | .length, _ => "LENGTH"
  | .trim, _ => "TRIM"
  | .abs, _ => "ABS"
  | .round, _ => "ROUND"
  | .coalesce, _ => "COALESCE"
  | .substring, .oracle => "SUBSTR"
  | .substring, .sqlite => "SUBSTR"
  | .substring, _ => "SUBSTRING"
  | .now, .sqlServer => "GETDATE"
  | .now, .mySql => "NOW"
  | .now, .postgreSql => "NOW"
  | .now, .oracle => "SYSDATE"
  | .now, .sqlite => "datetime"
  | .now, .oledb => "CURRENT_TIMESTAMP"
  | .now, .other => "CURRENT_TIMESTAMP"

/-- The current time, which some dialects have as a keyword and others as a function. -/
def nowDraft (d : Dialect) : Draft :=
  let name := Draft.text (builtinName .now d)
  match d with
  | .sqlServer | .mySql | .postgreSql => name ++ Draft.empty.parens
  | .sqlite => name ++ (Draft.text "'now'").parens
  | .oracle | .oledb | .other => name

/-- A function call from its arguments. -/
def callDraft (s : Setting) (function : Builtin) (args : List Draft) (distinct : Bool) : Draft :=
  let body := (if distinct then .text "DISTINCT " else .empty) ++ Draft.list args
  match function, s.dialect with
  | .now, dialect => nowDraft dialect
  -- Each end has a function of its own.
  | .trim, .sqlServer => .text "LTRIM" ++ (.text "RTRIM" ++ body.parens : Draft).parens
  | function, dialect => .text (builtinName function dialect) ++ body.parens

mutual

/-- An expression in a setting. -/
def draft (s : Setting) : Expression → Draft
  | constant value => .constant value
  | field f _ => f.draft
  | arithmetic op left right => arithmeticDraft s op left right (left.draft s) (right.draft s)
  | comparison op left right => comparisonDraft s op left right (left.draft s) (right.draft s)
  | logic op left right =>
    left.asOperand (left.draft s) ++ .text (" " ++ op.symbol ++ " ") ++
      right.asOperand (right.draft s)
  | bitwise op left right => bitwiseDraft s op left right (left.draft s) (right.draft s)
  | unary op operand => unaryDraft op operand (operand.draft s)
  | like subject pattern mode =>
    subject.asOperand (subject.draft s) ++ .text " LIKE " ++
      patternDraft s pattern (pattern.draft s) mode
  | membership op subject values => membershipDraft op subject (subject.draft s) values
  | call function args distinct => callDraft s function (draftList s args) distinct
  | wildcard (some source) => .quoted source ++ .text ".*"
  | wildcard none => .text "*"

/-- Expressions in a setting. -/
def draftList (s : Setting) : List Expression → List Draft
  | [] => []
  | e :: es => e.draft s :: draftList s es

end

end Expression

/-- An item of an ORDER BY. -/
def Order.draft (s : Setting) (o : Order) : Draft :=
  o.expression.draft s ++ .text (" " ++ o.direction.symbol)

/-- An item of a projection. -/
def Projection.draft (s : Setting) (p : Projection) : Draft :=
  match p.alias? with
  | some name => p.expression.draft s ++ .text " AS " ++ .quoted name
  | none => p.expression.draft s

end DialectSql
