import DialectSql.Calendar
import DialectSql.Dialect
import DialectSql.Expression.Operator
import DialectSql.Text.Escaped

/-!
# Errors

Why a statement could not be built or written. Every cause is a constructor with the facts it
depends on; the wording is in `Error.message` alone.

## Main definitions

* `Feature` — the constructs that some dialects lack
* `Malformation` — the ways in which parts do not fit together
* `ConfigFault` — the ways in which a configuration is unusable
* `Error` — all causes, and `Error.message` their wording
-/

namespace DialectSql

/-- The constructs that some dialects lack. -/
inductive Feature
  | bitwiseOr | bitwiseXor | intersect | except | joinedUpdate | joinedDelete
  deriving DecidableEq, Repr

/-- The description of a construct. -/
def Feature.text : Feature → String
  | bitwiseOr => "bitwise OR"
  | bitwiseXor => "bitwise XOR"
  | intersect => "INTERSECT"
  | except => "EXCEPT"
  | joinedUpdate => "UPDATE of a joined source"
  | joinedDelete => "DELETE of a joined source"

/-- The ways in which the parts of a statement do not fit together. -/
inductive Malformation
  /-- Criteria combined from nothing. -/
  | absentOperands (op : Connective)
  /-- A connective with a number of children that it does not allow. -/
  | childCount (op : Connective) (count : Nat)
  /-- A membership subquery without an explicit projection. -/
  | unprojectedSubquery
  /-- An UPDATE that assigns nothing. -/
  | nothingAssigned
  /-- A change whose leftmost source is not a table. -/
  | targetNotTable
  deriving DecidableEq, Repr

/-- The description of a malformation. -/
def Malformation.text : Malformation → String
  | absentOperands op => op.symbol ++ " criteria built from two absent operands"
  | childCount .not count =>
    "NOT criteria takes exactly one child, got " ++ Text.natural count
  | childCount op count =>
    op.symbol ++ " criteria takes at least two children, got " ++ Text.natural count
  | unprojectedSubquery => "IN-select subquery must project a column"
  | nothingAssigned => "update without setters"
  | targetNotTable => "change target must be a table"

/-- The ways in which a configuration is unusable. -/
inductive ConfigFault
  | unknownDialect (text : String)
  | parameterBase (text : String)
  | invertedRange (earliest latest : DateTime)
  deriving DecidableEq, Repr

/-- The description of a configuration fault. -/
def ConfigFault.text : ConfigFault → String
  | unknownDialect text => "unknown dialect: " ++ text
  | parameterBase text =>
    "parameter prefix must be a non-empty identifier, got " ++ Text.escaped text
  | invertedRange earliest latest =>
    "datetime range is inverted: " ++ earliest.exactText " " ++ " > " ++ latest.exactText " "

/-- Why a statement could not be built or written. -/
inductive Error
  /-- The dialect lacks a construct. -/
  | unsupported (dialect : Dialect) (feature : Feature)
  /-- A kind of expression where an operator of another kind was expected. -/
  | unknownOperator (kind : ExpressionKind)
  /-- A source guarantees no order of its rows. -/
  | orderBubblingUnsupported (offender : String)
  /-- A statement already has an order. -/
  | orderAlreadyDefined
  /-- Parts that do not fit together. -/
  | malformed (cause : Malformation)
  /-- A column name that is empty or holds a `*`. -/
  | invalidField (name : String)
  /-- An unusable configuration. -/
  | config (fault : ConfigFault)
  deriving DecidableEq, Repr

/-- The wording of an error. -/
def Error.message : Error → String
  | unsupported dialect feature => feature.text ++ " is not supported by " ++ dialect.name
  | unknownOperator kind => "unknown operator: " ++ Named.name kind
  | orderBubblingUnsupported offender =>
    "order bubbling is not supported by source " ++ offender
  | orderAlreadyDefined => "target query already defines an ordering"
  | malformed cause => "malformed composition: " ++ cause.text
  | invalidField name => "invalid field: " ++ name
  | config fault => "invalid configuration: " ++ fault.text

/-- The dialect that a text names, or the error for an unknown one. -/
def Dialect.parse (text : String) : Except Error Dialect :=
  match Dialect.ofText? text with
  | some d => .ok d
  | none => .error (.config (.unknownDialect text))

end DialectSql
