import DialectSql.Dialect
import DialectSql.Value

/-!
# Literals

The two forms in which a value reaches a database: a literal in the text of the statement, and the
value bound to a placeholder.

## Main definitions

* `Value.literal` — the escaped literal
* `Value.bound` — the value of a bound parameter
-/

namespace DialectSql

/-- A float as a literal. Databases have no number for a float that is not finite, but read these
names back as floats. -/
def floatLiteral (x : Float) : String :=
  if x.isNaN then "'NaN'"
  else if x.isInf then (if 0 < x then "'Infinity'" else "'-Infinity'")
  else Decimal.plain.render x

/-- The value of a bound boolean: a number where the database has no boolean type. -/
def Dialect.boundBool (d : Dialect) (b : Bool) : Value :=
  match d with
  | .sqlServer => .int (if b then 1 else 0)
  | _ => .bool b

namespace Value

/-- A value as an escaped literal. -/
def literal (d : Dialect) : Value → String
  | null => "NULL"
  | bool b => if b then "1" else "0"
  | int n => Text.integer n.toInt
  | uint n => Text.natural n.toNat
  | float x => floatLiteral x
  | char c => d.quoteText (String.singleton c)
  | text s => d.quoteText s
  | dateTime t => "'" ++ t.literalText ++ "'"
  | guid g => "'" ++ g.literalText ++ "'"
  | timeSpan t => "'" ++ t.text ++ "'"
  | member _ number => Text.integer number.toInt
  | blob bytes => d.quoteBytes bytes

/-- The value bound to a placeholder: members of enumerations by their number. -/
def bound (d : Dialect) : Value → Value
  | bool b => d.boundBool b
  | member _ number => .int number
  | value => value

end Value

end DialectSql
