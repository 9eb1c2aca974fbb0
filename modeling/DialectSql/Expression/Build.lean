import DialectSql.Expression

/-!
# Building expressions

The vocabulary in which applications write expressions.

## Main definitions

* `Expression.column`, `Expression.qualifiedColumn` — columns by name
* `Expression.binary`, `Expression.unaryOf` — nodes from their tag
* `Expression.negation` — negation, which turns a membership test around
* `Expression.matching` — LIKE with the wildcards taken from the pattern
-/

namespace DialectSql.Expression

/-! ## Leaves -/

/-- A constant of any type that is used as values. -/
def value {α : Type} [ToValue α] (a : α) : Expression :=
  constant (toValue a)

/-- The constant NULL. -/
def null : Expression := constant .null

/-- A column reference whose type is not declared. -/
def ofField (f : Field) : Expression := field f none

instance : Coe Field Expression := ⟨ofField⟩

/-- A column reference with a declared type. -/
def typedField (f : Field) (type : ValueType) : Expression := field f (some type)

/-- A column by its name. -/
def column (name : String) : Except Error Expression :=
  (Field.unqualified name).map ofField

/-- A column of a source by its name. -/
def qualifiedColumn (source name : String) : Except Error Expression :=
  (Field.qualified source name).map ofField

/-- All columns of every source. -/
def allColumns : Expression := wildcard none

/-- All columns of a source. -/
def allColumnsOf (source : String) : Expression := wildcard (some source)

/-! ## Calls -/

/-- A function call. -/
def apply (function : Builtin) (args : List Expression) : Expression :=
  call function args false

/-- The number of rows. -/
def countAll : Expression := apply .count [allColumns]

/-- The number of different values of an expression. -/
def countDistinct (e : Expression) : Expression := call .count [e] true

/-! ## Operators -/

/-- Equality with an operand. -/
def eq (left right : Expression) : Expression := comparison .equal left right

/-- Inequality with an operand. -/
def ne (left right : Expression) : Expression := comparison .notEqual left right

/-- A test for NULL, which is written as such. -/
def isNull (e : Expression) : Expression := e.eq null

/-- A test against NULL, which is written as such. -/
def isNotNull (e : Expression) : Expression := e.ne null

/-- An IN test turned into NOT IN and back; nothing for every other node. -/
def flipMembership? : Expression → Option Expression
  | membership op subject values => some (membership op.negated subject values)
  | _ => none

/-- The negation. A membership test is turned around, everything else stands under NOT. -/
def negation (e : Expression) : Expression :=
  e.flipMembership?.getD (unary .not e)

/-- The operator node of a kind, where the kind is that of an operator between two operands. -/
def binary? : ExpressionKind → Option (Expression → Expression → Expression)
  | .add => some (arithmetic .add)
  | .subtract => some (arithmetic .subtract)
  | .multiply => some (arithmetic .multiply)
  | .divide => some (arithmetic .divide)
  | .modulo => some (arithmetic .modulo)
  | .equal => some (comparison .equal)
  | .notEqual => some (comparison .notEqual)
  | .lessThan => some (comparison .lessThan)
  | .lessThanOrEqual => some (comparison .lessThanOrEqual)
  | .greaterThan => some (comparison .greaterThan)
  | .greaterThanOrEqual => some (comparison .greaterThanOrEqual)
  | .andAlso => some (logic .and)
  | .orElse => some (logic .or)
  | .bitAnd => some (bitwise .and)
  | .bitOr => some (bitwise .or)
  | .bitXor => some (bitwise .xor)
  | .like => some (like · · .exact)
  | .constant | .field | .wildcard | .function | .not | .negate | .bitNot | .member
  | .notMember => none

/-- The node of a kind over two operands. -/
def binary (kind : ExpressionKind) (left right : Expression) : Except Error Expression :=
  match binary? kind with
  | some node => .ok (node left right)
  | none => .error (.unknownOperator kind)

/-- The node of a kind over one operand; a negation turns a membership test around. -/
def unaryOf (kind : ExpressionKind) (operand : Expression) : Except Error Expression :=
  match kind with
  | .not => .ok operand.negation
  | .negate => .ok (unary .negate operand)
  | .bitNot => .ok (unary .bitNot operand)
  | kind => .error (.unknownOperator kind)

/-! ## Patterns -/

/-- The wildcard of patterns, which stands for any run of characters. -/
def anyRun : Char := '%'

/-- A pattern without a wildcard at its start and end, and the mode that puts them back. A pattern
of one wildcard counts as starting with it only. -/
def splitPattern (pattern : List Char) : List Char × LikeMode :=
  let leading := pattern.head? == some anyRun
  let rest := if leading then pattern.tail else pattern
  let trailing := rest.getLast? == some anyRun
  (if trailing then rest.dropLast else rest, .ofSides leading trailing)

/-- A match against a pattern. The wildcards at the ends of a constant text are taken off it and
kept in the mode. -/
def matching (subject pattern : Expression) : Expression :=
  match pattern with
  | constant (.text text) =>
    let (text, mode) := splitPattern text.toList
    like subject (constant (.text (String.ofList text))) mode
  | pattern => like subject pattern .exact

/-! ## Membership -/

/-- Membership in a list of values. -/
def inList {α : Type} [ToValue α] (subject : Expression) (values : List α) : Expression :=
  membership .isIn subject (values.map toValue)

/-- Absence from a list of values. -/
def notInList {α : Type} [ToValue α] (subject : Expression) (values : List α) : Expression :=
  membership .notIn subject (values.map toValue)

end DialectSql.Expression
