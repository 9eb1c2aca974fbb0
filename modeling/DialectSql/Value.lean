import DialectSql.Named
import DialectSql.Calendar
import DialectSql.Guid
import DialectSql.TimeSpan
import DialectSql.Decimal.Style

/-!
# Values

What a constant or an assignment carries. A value is bound to a placeholder or written as a literal;
the literal forms are in `DialectSql.Literal`, because they differ between dialects.

## Main definitions

* `Value` — a value
* `Value.beq` — equality as the database sees floats: NaN differs from itself, zero has no sign
* `ValueType`, `Value.type?` — the static type of a value; NULL has none
* `Value.report` — a value as reports show it
* `Numeric` — the values that can be added to a column
* `ToValue`, `ToNumeric` — what else can be used as a value
-/

namespace DialectSql

/-- The static type of an expression or value. -/
inductive ValueType
  | boolean | integer | float | char | string | dateTime | guid | timeSpan | enumeration | binary
  deriving DecidableEq, Repr

instance : Named ValueType where
  all := [.boolean, .integer, .float, .char, .string, .dateTime, .guid, .timeSpan, .enumeration,
    .binary]
  name
    | .boolean => "Boolean"
    | .integer => "Integer"
    | .float => "Float"
    | .char => "Char"
    | .string => "String"
    | .dateTime => "DateTime"
    | .guid => "Guid"
    | .timeSpan => "TimeSpan"
    | .enumeration => "Enum"
    | .binary => "Binary"

/-- A value that a constant expression or an assignment carries. -/
inductive Value
  | null
  | bool (b : Bool)
  | int (n : Int64)
  | uint (n : UInt64)
  | float (x : Float)
  | char (c : Char)
  | text (s : String)
  | dateTime (t : DateTime)
  | guid (g : Guid)
  | timeSpan (t : TimeSpan)
  /-- A member of an enumeration: the name of the enumeration and the number of the member. -/
  | member (typeName : String) (number : Int64)
  | blob (bytes : List UInt8)

namespace Value

/-- Equality of values of one kind; floats are compared as numbers. -/
protected def beq : Value → Value → Bool
  | null, null => true
  | bool a, bool b => a == b
  | int a, int b => a == b
  | uint a, uint b => a == b
  | float a, float b => a == b
  | char a, char b => a == b
  | text a, text b => a == b
  | dateTime a, dateTime b => a == b
  | guid a, guid b => a == b
  | timeSpan a, timeSpan b => a == b
  | member s a, member t b => s == t && a == b
  | blob a, blob b => a == b
  | _, _ => false

instance : BEq Value := ⟨Value.beq⟩

/-- Whether a value is NULL. -/
def isNull : Value → Bool
  | null => true
  | _ => false

/-- The static type of a value; NULL has none. -/
def type? : Value → Option ValueType
  | null => none
  | bool _ => some .boolean
  | int _ => some .integer
  | uint _ => some .integer
  | float _ => some .float
  | char _ => some .char
  | text _ => some .string
  | dateTime _ => some .dateTime
  | guid _ => some .guid
  | timeSpan _ => some .timeSpan
  | member _ _ => some .enumeration
  | blob _ => some .binary

/-- The truth value of a boolean. -/
def bool? : Value → Option Bool
  | bool b => some b
  | _ => none

/-- A value as reports show it, without quotes. -/
def report : Value → String
  | null => "NULL"
  | bool b => if b then "true" else "false"
  | int n => Text.integer n.toInt
  | uint n => Text.natural n.toNat
  | float x => Decimal.plain.render x
  | char c => String.singleton c
  | text s => s
  | dateTime t => t.literalText
  | guid g => g.text
  | timeSpan t => t.text
  | member typeName number => typeName ++ "(" ++ Text.integer number.toInt ++ ")"
  | blob bytes => "<" ++ Text.natural bytes.length ++ " bytes>"

end Value

/-- A number that can be assigned to a column or added to it. -/
inductive Numeric
  | int (n : Int64)
  | uint (n : UInt64)
  | float (x : Float)

namespace Numeric

/-- Equality of numbers of one kind; floats are compared as numbers. -/
protected def beq : Numeric → Numeric → Bool
  | int a, int b => a == b
  | uint a, uint b => a == b
  | float a, float b => a == b
  | _, _ => false

instance : BEq Numeric := ⟨Numeric.beq⟩

/-- A number as a value. -/
def toValue : Numeric → Value
  | int n => .int n
  | uint n => .uint n
  | float x => .float x

end Numeric

/-! ## Other types as values -/

/-- Types whose members can be used as values. -/
class ToValue (α : Type) where
  /-- The value of a member. -/
  toValue : α → Value

export ToValue (toValue)

instance : ToValue Value := ⟨id⟩
instance : ToValue Bool := ⟨.bool⟩
instance : ToValue Int8 := ⟨fun n => .int n.toInt64⟩
instance : ToValue Int16 := ⟨fun n => .int n.toInt64⟩
instance : ToValue Int32 := ⟨fun n => .int n.toInt64⟩
instance : ToValue Int64 := ⟨.int⟩
instance : ToValue UInt8 := ⟨fun n => .int (Int64.ofNat n.toNat)⟩
instance : ToValue UInt16 := ⟨fun n => .int (Int64.ofNat n.toNat)⟩
instance : ToValue UInt32 := ⟨fun n => .int (Int64.ofNat n.toNat)⟩
instance : ToValue UInt64 := ⟨.uint⟩
instance : ToValue Float := ⟨.float⟩
instance : ToValue Float32 := ⟨fun x => .float x.toFloat⟩
instance : ToValue Char := ⟨.char⟩
instance : ToValue String := ⟨.text⟩
instance : ToValue DateTime := ⟨.dateTime⟩
instance : ToValue Date := ⟨fun d => .dateTime d.atMidnight⟩
instance : ToValue Guid := ⟨.guid⟩
instance : ToValue TimeSpan := ⟨.timeSpan⟩
instance : ToValue Numeric := ⟨Numeric.toValue⟩
instance : ToValue (List UInt8) := ⟨.blob⟩

/-- An absent value is NULL. -/
instance {α : Type} [ToValue α] : ToValue (Option α) where
  toValue
    | some a => toValue a
    | none => .null

/-- Types whose members can be used as numbers. Unsigned numbers of every width stay unsigned. -/
class ToNumeric (α : Type) where
  /-- The number of a member. -/
  toNumeric : α → Numeric

export ToNumeric (toNumeric)

instance : ToNumeric Numeric := ⟨id⟩
instance : ToNumeric Int8 := ⟨fun n => .int n.toInt64⟩
instance : ToNumeric Int16 := ⟨fun n => .int n.toInt64⟩
instance : ToNumeric Int32 := ⟨fun n => .int n.toInt64⟩
instance : ToNumeric Int64 := ⟨.int⟩
instance : ToNumeric UInt8 := ⟨fun n => .uint n.toUInt64⟩
instance : ToNumeric UInt16 := ⟨fun n => .uint n.toUInt64⟩
instance : ToNumeric UInt32 := ⟨fun n => .uint n.toUInt64⟩
instance : ToNumeric UInt64 := ⟨.uint⟩
instance : ToNumeric Float := ⟨.float⟩
instance : ToNumeric Float32 := ⟨fun x => .float x.toFloat⟩

end DialectSql
