import DialectSql.Expression

/-!
# Assignments

What a change writes into one column.

## Main definitions

* `AssignedValue` — what is written
* `Assignment` — a column and what is written into it
* `Assignment.make` — an assignment to a checked column name
-/

namespace DialectSql

/-- What is written into a column. -/
inductive AssignedValue
  | bool (b : Bool)
  | char (c : Char)
  /-- Replaced by NULL if the configuration does not admit the datetime. -/
  | dateTime (t : DateTime)
  | guid (g : Guid)
  | numeric (n : Numeric)
  | string (s : String)
  | timeSpan (t : TimeSpan)
  /-- Added to what is in the column. -/
  | increment (amount : Numeric)
  | null
  /-- An expression over the columns. -/
  | expression (e : Expression)

namespace AssignedValue

/-- Structural equality; floats inside are compared as numbers. -/
def beq : AssignedValue → AssignedValue → Bool
  | bool a, bool b => a == b
  | char a, char b => a == b
  | dateTime a, dateTime b => a == b
  | guid a, guid b => a == b
  | numeric a, numeric b => a == b
  | string a, string b => a == b
  | timeSpan a, timeSpan b => a == b
  | increment a, increment b => a == b
  | null, null => true
  | expression a, expression b => a == b
  | _, _ => false

instance : BEq AssignedValue := ⟨AssignedValue.beq⟩

/-- The constant that is written, where it is one. -/
def constant? : AssignedValue → Option Value
  | bool b => some (.bool b)
  | char c => some (.char c)
  | dateTime t => some (.dateTime t)
  | guid g => some (.guid g)
  | numeric n => some n.toValue
  | string s => some (.text s)
  | timeSpan t => some (.timeSpan t)
  | null => some .null
  | increment _ => none
  | expression _ => none

/-- Whether an assignment adds to what is in the column. -/
def isIncrement : AssignedValue → Bool
  | increment _ => true
  | _ => false

end AssignedValue

/-- A column and what is written into it. -/
structure Assignment where
  /-- The column. A qualifier plays no role. -/
  column : Field
  /-- What is written. -/
  value : AssignedValue

namespace Assignment

/-- Structural equality. -/
def beq (a b : Assignment) : Bool :=
  a.column == b.column && a.value == b.value

instance : BEq Assignment := ⟨Assignment.beq⟩

/-- An assignment to a column by its name. -/
def make (column : String) (value : AssignedValue) : Except Error Assignment :=
  (Field.unqualified column).map (⟨·, value⟩)

end Assignment

end DialectSql
