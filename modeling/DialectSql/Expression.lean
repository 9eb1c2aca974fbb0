import DialectSql.Expression.Operator
import DialectSql.Field
import DialectSql.Value

/-!
# Expressions

Expressions over the columns of a statement. They hold no subqueries: a test against the rows of a
subquery is a criteria of its own.

## Main definitions

* `Expression` — the nodes
* `Expression.beq` — structural equality, with floats compared as numbers
* `Expression.kind` — the tag of a node
* `Expression.type?` — the static type, where it can be inferred
* `Expression.isCompound` — whether a node needs parentheses as an operand
-/

namespace DialectSql

/-- An expression. -/
inductive Expression
  /-- A constant. -/
  | constant (value : Value)
  /-- A column, with its declared type where it is known. -/
  | field (field : Field) (type : Option ValueType)
  /-- Arithmetic on two operands. -/
  | arithmetic (op : Arithmetic) (left right : Expression)
  /-- A comparison of two operands. -/
  | comparison (op : Comparison) (left right : Expression)
  /-- AND or OR of two operands. -/
  | logic (op : Logic) (left right : Expression)
  /-- A bitwise operation on two operands. -/
  | bitwise (op : Bitwise) (left right : Expression)
  /-- An operation on one operand. -/
  | unary (op : Unary) (operand : Expression)
  /-- A match against a pattern, with wildcards around the pattern as the mode says. -/
  | like (subject pattern : Expression) (mode : LikeMode)
  /-- Membership in a list of values. -/
  | membership (op : Membership) (subject : Expression) (values : List Value)
  /-- A function call. -/
  | call (function : Builtin) (args : List Expression) (distinct : Bool)
  /-- All columns, of one source or of every source. -/
  | wildcard (source : Option String)

namespace Expression

mutual

/-- Structural equality; floats inside are compared as numbers. -/
protected def beq : Expression → Expression → Bool
  | constant a, constant b => a == b
  | field f s, field g t => f == g && s == t
  | arithmetic p a b, arithmetic q c d => p == q && a.beq c && b.beq d
  | comparison p a b, comparison q c d => p == q && a.beq c && b.beq d
  | logic p a b, logic q c d => p == q && a.beq c && b.beq d
  | bitwise p a b, bitwise q c d => p == q && a.beq c && b.beq d
  | unary p a, unary q b => p == q && a.beq b
  | like a p m, like b q n => a.beq b && p.beq q && m == n
  | membership p a xs, membership q b ys => p == q && a.beq b && xs == ys
  | call f xs d, call g ys e => f == g && Expression.listBeq xs ys && d == e
  | wildcard s, wildcard t => s == t
  | _, _ => false

/-- Structural equality of argument lists. -/
protected def listBeq : List Expression → List Expression → Bool
  | [], [] => true
  | a :: as, b :: bs => a.beq b && Expression.listBeq as bs
  | _, _ => false

end

instance : BEq Expression := ⟨Expression.beq⟩

/-- The tag of a node. -/
def kind : Expression → ExpressionKind
  | constant _ => .constant
  | field _ _ => .field
  | arithmetic op _ _ => op.kind
  | comparison op _ _ => op.kind
  | logic op _ _ => op.kind
  | bitwise op _ _ => op.kind
  | unary op _ => op.kind
  | like _ _ _ => .like
  | membership op _ _ => op.kind
  | call _ _ _ => .function
  | wildcard _ => .wildcard

/-- What the type of a function call is taken from. -/
inductive ResultType
  /-- A type of its own. -/
  | fixed (type : ValueType)
  /-- The first argument whose type is known. -/
  | ofArguments

/-- What the type of a call of a function is taken from. -/
def resultType : Builtin → ResultType
  | .count | .length => .fixed .integer
  | .avg => .fixed .float
  | .upper | .lower | .trim | .substring => .fixed .string
  | .now => .fixed .dateTime
  | .sum | .max | .min | .abs | .round | .coalesce => .ofArguments

mutual

/-- The static type of an expression, where it can be inferred. -/
def type? : Expression → Option ValueType
  | constant value => value.type?
  | field _ type => type
  | arithmetic _ left right => left.type?.or right.type?
  | bitwise _ left right => left.type?.or right.type?
  | comparison _ _ _ => some .boolean
  | logic _ _ _ => some .boolean
  | like _ _ _ => some .boolean
  | membership _ _ _ => some .boolean
  | unary .not _ => some .boolean
  | unary .negate operand => operand.type?
  | unary .bitNot operand => operand.type?
  | call function args _ =>
    match resultType function with
    | .fixed type => some type
    | .ofArguments => firstType? args
  | wildcard _ => none

/-- The type of the first expression whose type is known. -/
def firstType? : List Expression → Option ValueType
  | [] => none
  | e :: es => e.type?.or (firstType? es)

end

/-- The column of a column reference. -/
def field? : Expression → Option Field
  | field f _ => some f
  | _ => none

/-- The value of a constant. -/
def constant? : Expression → Option Value
  | constant value => some value
  | _ => none

/-- Whether a node is written as an operator between operands, so that it needs parentheses as an
operand of another. -/
def isCompound : Expression → Bool
  | arithmetic _ _ _ | comparison _ _ _ | logic _ _ _ | bitwise _ _ _ | like _ _ _
  | membership _ _ _ => true
  | constant _ | field _ _ | unary _ _ | call _ _ _ | wildcard _ => false

end Expression

end DialectSql
