import DialectSql.Document.Value
import DialectSql.Query.Clause

/-!
# Documents of expressions

The layout of expressions, orders, projected expressions and aggregates in documents.

## Main definitions

* `Expression.encode`, `Expression.decode` and the same for the clauses made of expressions
-/

namespace DialectSql

namespace Expression

/-- An operator with two operands as a record. -/
def binaryRecord (op left right : Json) : Json :=
  .record [.of "op" op, .of "left" left, .of "right" right]

mutual

/-- An expression as an alternative. -/
def encode : Expression → Json
  | constant value => .tagged "Constant" value.encode
  | field f type =>
    .tagged "Field" (.record [.of "field" f.encode, .ifSome "value_type" .named type])
  | arithmetic op left right =>
    .tagged "Arithmetic" (binaryRecord (.named op) left.encode right.encode)
  | comparison op left right =>
    .tagged "Comparison" (binaryRecord (.named op) left.encode right.encode)
  | logic op left right => .tagged "BinaryLogic" (binaryRecord (.named op) left.encode right.encode)
  | bitwise op left right => .tagged "BinaryBit" (binaryRecord (.named op) left.encode right.encode)
  | unary op operand =>
    .tagged "Unary" (.record [.of "op" (.named op), .of "operand" operand.encode])
  | like subject pattern mode =>
    .tagged "Like" (.record [.of "left" subject.encode, .of "pattern" pattern.encode,
      .of "mode" (.named mode)])
  | membership op subject values =>
    .tagged "In" (.record [.of "op" (.named op), .of "left" subject.encode,
      .of "values" (.array (values.map Value.encode))])
  | call function args distinct =>
    .tagged "Function" (.record [.of "function" (.named function),
      .of "args" (.array (encodeList args)), .of "distinct" (.bool distinct)])
  | wildcard source => .tagged "Wildcard" (.record [.ifSome "source" .string source])

/-- Expressions one by one. -/
def encodeList : List Expression → List Json
  | [] => []
  | e :: es => e.encode :: encodeList es

end

/-- The records of two operands. -/
def operands (j : Json) : Reading (j.Part × j.Part) := do
  return (← j.require "left", ← j.require "right")

/-- The operator of a record. -/
def operator {α : Type} [Named α] (j : Json) : Reading α := do
  (← j.require "op").val.toNamed

/-- An expression as an alternative; the names of columns are checked. -/
def decode (j : Json) : Reading Expression := do
  let v ← j.variant
  match v.tag with
  | "Constant" => return constant (← Value.decode (← v.content).val)
  | "Field" =>
    let ⟨body, _⟩ ← v.content
    let f ← Field.decode (← body.require "field").val
    let type ← (← body.optional? "value_type").mapM fun p => p.val.toNamed
    return field f type
  | "Arithmetic" =>
    let ⟨body, _⟩ ← v.content
    let op ← operator body
    let (⟨left, _⟩, ⟨right, _⟩) ← operands body
    return arithmetic op (← decode left) (← decode right)
  | "Comparison" =>
    let ⟨body, _⟩ ← v.content
    let op ← operator body
    let (⟨left, _⟩, ⟨right, _⟩) ← operands body
    return comparison op (← decode left) (← decode right)
  | "BinaryLogic" =>
    let ⟨body, _⟩ ← v.content
    let op ← operator body
    let (⟨left, _⟩, ⟨right, _⟩) ← operands body
    return logic op (← decode left) (← decode right)
  | "BinaryBit" =>
    let ⟨body, _⟩ ← v.content
    let op ← operator body
    let (⟨left, _⟩, ⟨right, _⟩) ← operands body
    return bitwise op (← decode left) (← decode right)
  | "Unary" =>
    let ⟨body, _⟩ ← v.content
    let op ← operator body
    let ⟨operand, _⟩ ← body.require "operand"
    return unary op (← decode operand)
  | "Like" =>
    let ⟨body, _⟩ ← v.content
    let ⟨subject, _⟩ ← body.require "left"
    let ⟨pattern, _⟩ ← body.require "pattern"
    let mode ← (← body.present? "mode").mapM fun p => p.val.toNamed
    return like (← decode subject) (← decode pattern) (mode.getD .exact)
  | "In" =>
    let ⟨body, _⟩ ← v.content
    let op ← operator body
    let ⟨subject, _⟩ ← body.require "left"
    let values ← (← body.requireList "values").mapM fun p => Value.decode p.val
    return membership op (← decode subject) values
  | "Function" =>
    let ⟨body, _⟩ ← v.content
    let function ← (← body.require "function").val.toNamed
    let args ← (← body.requireList "args").mapM fun ⟨arg, _⟩ => decode arg
    return call function args (← body.flag "distinct")
  | "Wildcard" =>
    let ⟨body, _⟩ ← v.content
    return wildcard (← body.optionalText "source")
  | _ => throw .unreadable
termination_by j

end Expression

/-- An order as a record. -/
def Order.encode (o : Order) : Json :=
  .record [.of "expression" o.expression.encode, .of "direction" (.named o.direction)]

/-- An order as a record; it is ascending if no direction is given. -/
def Order.decode (j : Json) : Reading Order := do
  let expression ← Expression.decode (← j.require "expression").val
  let direction ← (← j.present? "direction").mapM fun p => p.val.toNamed
  return ⟨expression, direction.getD .asc⟩

/-- A projected expression as a record. -/
def Projection.encode (p : Projection) : Json :=
  .record [.of "expression" p.expression.encode, .ifSome "alias" .string p.alias?]

/-- A projected expression as a record. -/
def Projection.decode (j : Json) : Reading Projection := do
  let expression ← Expression.decode (← j.require "expression").val
  return ⟨expression, ← j.optionalText "alias"⟩

/-- An aggregate as a record. -/
def Aggregation.encode (a : Aggregation) : Json :=
  .record [.of "function" (.named a.function),
    .ifSome "argument" Expression.encode a.argument]

/-- An aggregate as a record. -/
def Aggregation.decode (j : Json) : Reading Aggregation := do
  let function ← (← j.require "function").val.toNamed
  let argument ← (← j.optional? "argument").mapM fun p => Expression.decode p.val
  return ⟨function, argument⟩

end DialectSql
