import DialectSql.Named

/-!
# Operators and functions

The closed families from which expressions and criteria are built, with the SQL keyword of each
member and the kind of expression it makes.

## Main definitions

* `ExpressionKind` — the tag of an expression node
* `Arithmetic`, `Comparison`, `Logic`, `Bitwise`, `Unary`, `Membership` — the operators
* `LikeMode` — where wildcards surround a pattern
* `Builtin` — the functions
* `Connective` — what combines criteria
-/

namespace DialectSql

/-- The tag of an expression node. -/
inductive ExpressionKind
  | constant | field | wildcard | function
  | add | subtract | multiply | divide | modulo
  | equal | notEqual | lessThan | lessThanOrEqual | greaterThan | greaterThanOrEqual
  | andAlso | orElse
  | bitAnd | bitOr | bitXor
  | not | negate | bitNot
  | like | member | notMember
  deriving DecidableEq, Repr

instance : Named ExpressionKind where
  all := [.constant, .field, .wildcard, .function, .add, .subtract, .multiply, .divide, .modulo,
    .equal, .notEqual, .lessThan, .lessThanOrEqual, .greaterThan, .greaterThanOrEqual,
    .andAlso, .orElse, .bitAnd, .bitOr, .bitXor, .not, .negate, .bitNot,
    .like, .member, .notMember]
  name
    | .constant => "Constant"
    | .field => "Field"
    | .wildcard => "Wildcard"
    | .function => "Function"
    | .add => "Add"
    | .subtract => "Subtract"
    | .multiply => "Multiply"
    | .divide => "Divide"
    | .modulo => "Modulo"
    | .equal => "Equal"
    | .notEqual => "NotEqual"
    | .lessThan => "LessThan"
    | .lessThanOrEqual => "LessThanOrEqual"
    | .greaterThan => "GreaterThan"
    | .greaterThanOrEqual => "GreaterThanOrEqual"
    | .andAlso => "AndAlso"
    | .orElse => "OrElse"
    | .bitAnd => "BitAnd"
    | .bitOr => "BitOr"
    | .bitXor => "BitXor"
    | .not => "Not"
    | .negate => "Negate"
    | .bitNot => "BitNot"
    | .like => "Like"
    | .member => "In"
    | .notMember => "NotIn"

/-! ## Arithmetic -/

/-- Arithmetic operators. -/
inductive Arithmetic
  | add | subtract | multiply | divide | modulo
  deriving DecidableEq, Repr

namespace Arithmetic

/-- The SQL operator. -/
def symbol : Arithmetic → String
  | add => "+"
  | subtract => "-"
  | multiply => "*"
  | divide => "/"
  | modulo => "%"

/-- The kind of expression an operator makes. -/
def kind : Arithmetic → ExpressionKind
  | add => .add
  | subtract => .subtract
  | multiply => .multiply
  | divide => .divide
  | modulo => .modulo

instance : Named Arithmetic where
  all := [add, subtract, multiply, divide, modulo]
  name op := Named.name op.kind

end Arithmetic

/-! ## Comparison -/

/-- Comparison operators. -/
inductive Comparison
  | equal | notEqual | lessThan | lessThanOrEqual | greaterThan | greaterThanOrEqual
  deriving DecidableEq, Repr

namespace Comparison

/-- The SQL operator. -/
def symbol : Comparison → String
  | equal => "="
  | notEqual => "<>"
  | lessThan => "<"
  | lessThanOrEqual => "<="
  | greaterThan => ">"
  | greaterThanOrEqual => ">="

/-- The kind of expression an operator makes. -/
def kind : Comparison → ExpressionKind
  | equal => .equal
  | notEqual => .notEqual
  | lessThan => .lessThan
  | lessThanOrEqual => .lessThanOrEqual
  | greaterThan => .greaterThan
  | greaterThanOrEqual => .greaterThanOrEqual

instance : Named Comparison where
  all := [equal, notEqual, lessThan, lessThanOrEqual, greaterThan, greaterThanOrEqual]
  name op := Named.name op.kind

end Comparison

/-! ## Logic -/

/-- Boolean operators between two expressions. -/
inductive Logic
  | and | or
  deriving DecidableEq, Repr

namespace Logic

/-- The SQL operator. -/
def symbol : Logic → String
  | and => "AND"
  | or => "OR"

/-- The kind of expression an operator makes. -/
def kind : Logic → ExpressionKind
  | and => .andAlso
  | or => .orElse

instance : Named Logic where
  all := [and, or]
  name
    | and => "And"
    | or => "Or"

end Logic

/-! ## Bits -/

/-- Bitwise operators between two expressions. -/
inductive Bitwise
  | and | or | xor
  deriving DecidableEq, Repr

namespace Bitwise

/-- The kind of expression an operator makes. -/
def kind : Bitwise → ExpressionKind
  | and => .bitAnd
  | or => .bitOr
  | xor => .bitXor

instance : Named Bitwise where
  all := [and, or, xor]
  name
    | and => "And"
    | or => "Or"
    | xor => "Xor"

end Bitwise

/-! ## One operand -/

/-- Operators with one operand. -/
inductive Unary
  /-- Logical negation. -/
  | not
  /-- Change of sign. -/
  | negate
  /-- Bitwise complement. -/
  | bitNot
  deriving DecidableEq, Repr

namespace Unary

/-- The kind of expression an operator makes. -/
def kind : Unary → ExpressionKind
  | not => .not
  | negate => .negate
  | bitNot => .bitNot

instance : Named Unary where
  all := [not, negate, bitNot]
  name op := Named.name op.kind

end Unary

/-! ## Membership -/

/-- Membership tests. -/
inductive Membership
  | isIn | notIn
  deriving DecidableEq, Repr

namespace Membership

/-- The opposite test. -/
def negated : Membership → Membership
  | isIn => notIn
  | notIn => isIn

@[simp] theorem negated_negated (op : Membership) : op.negated.negated = op := by
  cases op <;> rfl

/-- The SQL keyword. -/
def symbol : Membership → String
  | isIn => "IN"
  | notIn => "NOT IN"

/-- The kind of expression a test makes. -/
def kind : Membership → ExpressionKind
  | isIn => .member
  | notIn => .notMember

instance : Named Membership where
  all := [isIn, notIn]
  name op := Named.name op.kind

end Membership

/-! ## Patterns -/

/-- Where wildcards surround a pattern. -/
inductive LikeMode
  /-- The pattern as it is. -/
  | exact
  /-- A wildcard after the pattern. -/
  | startsWith
  /-- A wildcard before the pattern. -/
  | endsWith
  /-- A wildcard on either side. -/
  | contains
  deriving DecidableEq, Repr

namespace LikeMode

instance : Inhabited LikeMode := ⟨exact⟩

/-- The mode with wildcards on the given sides. -/
def ofSides : (leading trailing : Bool) → LikeMode
  | false, false => exact
  | false, true => startsWith
  | true, false => endsWith
  | true, true => contains

/-- Whether a wildcard stands before the pattern. -/
def leading : LikeMode → Bool
  | endsWith | contains => true
  | exact | startsWith => false

/-- Whether a wildcard stands after the pattern. -/
def trailing : LikeMode → Bool
  | startsWith | contains => true
  | exact | endsWith => false

@[simp] theorem leading_ofSides (l t : Bool) : (ofSides l t).leading = l := by
  cases l <;> cases t <;> rfl

@[simp] theorem trailing_ofSides (l t : Bool) : (ofSides l t).trailing = t := by
  cases l <;> cases t <;> rfl

/-- A mode is known by its two sides. -/
@[simp] theorem ofSides_leading_trailing (m : LikeMode) : ofSides m.leading m.trailing = m := by
  cases m <;> rfl

instance : Named LikeMode where
  all := [exact, startsWith, endsWith, contains]
  name
    | exact => "Exact"
    | startsWith => "StartsWith"
    | endsWith => "EndsWith"
    | contains => "Contains"

end LikeMode

/-! ## Functions -/

/-- The functions that every dialect has, under one spelling or another. -/
inductive Builtin
  | count | sum | avg | max | min
  | upper | lower | length | trim | abs | round | coalesce | substring | now
  deriving DecidableEq, Repr

namespace Builtin

/-- Whether a function collapses many rows into one. -/
def isAggregate : Builtin → Bool
  | count | sum | avg | max | min => true
  | _ => false

instance : Named Builtin where
  all := [count, sum, avg, max, min, upper, lower, length, trim, abs, round, coalesce, substring,
    now]
  name
    | count => "Count"
    | sum => "Sum"
    | avg => "Avg"
    | max => "Max"
    | min => "Min"
    | upper => "Upper"
    | lower => "Lower"
    | length => "Length"
    | trim => "Trim"
    | abs => "Abs"
    | round => "Round"
    | coalesce => "Coalesce"
    | substring => "Substring"
    | now => "Now"

end Builtin

/-! ## Criteria -/

/-- What combines criteria into one. -/
inductive Connective
  | and | or | not
  deriving DecidableEq, Repr

namespace Connective

/-- The SQL keyword. -/
def symbol : Connective → String
  | and => "AND"
  | or => "OR"
  | not => "NOT"

instance : Named Connective where
  all := [and, or, not]
  name
    | and => "And"
    | or => "Or"
    | not => "Not"

/-- Whether a combination may have `count` children: one under NOT, two or more otherwise. -/
def allows (op : Connective) (count : Nat) : Bool :=
  match op with
  | not => count == 1
  | and | or => 2 ≤ count

@[simp] theorem allows_not {count : Nat} : not.allows count = true ↔ count = 1 := by
  simp [allows]

/-- Two children or more are needed wherever one is not enough. -/
theorem allows_of_ne_not {op : Connective} (h : op ≠ not) {count : Nat} :
    op.allows count = true ↔ 2 ≤ count := by
  cases op <;> simp_all [allows]

end Connective

end DialectSql
