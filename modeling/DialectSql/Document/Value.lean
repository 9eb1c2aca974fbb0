import DialectSql.Config
import DialectSql.Document.Codec
import DialectSql.Field
import DialectSql.Parameter

/-!
# Documents of values

The layout of values, numbers, columns, parameters and configurations in documents.

## Main definitions

* `Value.encode`, `Value.decode` and the same for `Numeric`, `Field` and `Config`
-/

namespace DialectSql

/-- A datetime in ISO 8601. -/
def DateTime.encode (t : DateTime) : Json := .string t.isoText

/-- A datetime in ISO 8601. -/
def DateTime.decode (j : Json) : Reading DateTime := do
  Reading.ofOption (DateTime.ofText? (← j.toText))

/-- A GUID with hyphens. -/
def Guid.encode (g : Guid) : Json := .string g.text

/-- A GUID in one of its text forms. -/
def Guid.decode (j : Json) : Reading Guid := do
  Reading.ofOption (Guid.ofText? (← j.toText))

/-- A time span by its milliseconds. -/
def TimeSpan.encode (t : TimeSpan) : Json := .record [.of "millis" (.int t.millis.toInt)]

/-- A time span by its milliseconds. -/
def TimeSpan.decode (j : Json) : Reading TimeSpan := do
  return ⟨← (← j.require "millis").val.toInt64⟩

/-- A character as a text of one. -/
def Json.ofChar (c : Char) : Json := .string (String.singleton c)

/-- A character as a text of one. -/
def Json.toChar (j : Json) : Reading Char := do
  match (← j.toText).toList with
  | [c] => return c
  | _ => throw .unreadable

/-- Bytes as a list of numbers. -/
def Json.ofBytes (bytes : List UInt8) : Json :=
  .array (bytes.map fun byte => .int byte.toNat)

/-- Bytes as a list of numbers. -/
def Json.toBytes (j : Json) : Reading (List UInt8) := do
  (← Reading.ofOption j.items?).mapM fun p => p.val.toUInt8

/-- A value as an alternative. -/
def Value.encode : Value → Json
  | null => .string "Null"
  | bool b => .tagged "Bool" (.bool b)
  | int n => .tagged "Int" (.int n.toInt)
  | uint n => .tagged "UInt" (.int n.toNat)
  | float x => .tagged "Float" (.ofFloat x)
  | char c => .tagged "Char" (.ofChar c)
  | text s => .tagged "Text" (.string s)
  | dateTime t => .tagged "DateTime" t.encode
  | guid g => .tagged "Guid" g.encode
  | timeSpan t => .tagged "TimeSpan" t.encode
  | member typeName number =>
    .tagged "Enum" (.record [.of "type_name" (.string typeName),
      .of "value" (.int number.toInt)])
  | blob bytes => .tagged "Blob" (.ofBytes bytes)

/-- A value as an alternative. -/
def Value.decode (j : Json) : Reading Value := do
  let v ← j.variant
  match v.tag with
  | "Null" => v.nothing; return null
  | "Bool" => return bool (← (← v.content).val.toBool)
  | "Int" => return int (← (← v.content).val.toInt64)
  | "UInt" => return uint (← (← v.content).val.toUInt64)
  | "Float" => return float (← (← v.content).val.toFloat)
  | "Char" => return char (← (← v.content).val.toChar)
  | "Text" => return text (← (← v.content).val.toText)
  | "DateTime" => return dateTime (← DateTime.decode (← v.content).val)
  | "Guid" => return guid (← Guid.decode (← v.content).val)
  | "TimeSpan" => return timeSpan (← TimeSpan.decode (← v.content).val)
  | "Enum" =>
    let body ← v.content
    let typeName ← (← body.val.require "type_name").val.toText
    let number ← (← body.val.require "value").val.toInt64
    return member typeName number
  | "Blob" => return blob (← (← v.content).val.toBytes)
  | _ => throw .unreadable

/-- A number as an alternative. -/
def Numeric.encode : Numeric → Json
  | int n => .tagged "Int" (.int n.toInt)
  | uint n => .tagged "UInt" (.int n.toNat)
  | float x => .tagged "Float" (.ofFloat x)

/-- A number as an alternative. -/
def Numeric.decode (j : Json) : Reading Numeric := do
  let v ← j.variant
  match v.tag with
  | "Int" => return int (← (← v.content).val.toInt64)
  | "UInt" => return uint (← (← v.content).val.toUInt64)
  | "Float" => return float (← (← v.content).val.toFloat)
  | _ => throw .unreadable

/-- A column reference as a record. -/
def Field.encode (f : Field) : Json :=
  .record [.of "name" (.string f.name), .ifSome "source" .string f.source]

/-- A text that may be missing from a record. -/
def Json.optionalText (j : Json) (key : String) : Reading (Option String) := do
  match ← j.optional? key with
  | some p => return some (← p.val.toText)
  | none => return none

/-- A column reference as a record; the name of the column is checked. -/
def Field.decode (j : Json) : Reading Field := do
  let name ← (← j.require "name").val.toText
  let source ← j.optionalText "source"
  let f ← Reading.checked (Field.unqualified name)
  return f.withSource source

/-- A parameter as a record. -/
def Parameter.encode (p : Parameter) : Json :=
  .record [.of "name" (.string p.name), .of "value" p.value.encode]

/-- A configuration as a record. -/
def Config.encode (c : Config) : Json :=
  .record [.of "parameter_prefix" (.string c.parameterBase),
    .of "datetime_min" c.earliest.encode, .of "datetime_max" c.latest.encode]

/-- A configuration as a record; what is missing is as in the standard configuration. -/
def Config.decode (j : Json) : Reading Config := do
  let parameterBase ← match ← j.present? "parameter_prefix" with
    | some p => p.val.toText
    | none => pure Config.standard.parameterBase
  let earliest ← match ← j.present? "datetime_min" with
    | some p => DateTime.decode p.val
    | none => pure Config.standard.earliest
  let latest ← match ← j.present? "datetime_max" with
    | some p => DateTime.decode p.val
    | none => pure Config.standard.latest
  return ⟨parameterBase, earliest, latest⟩

end DialectSql
