import DialectSql.Named
import DialectSql.Text.Digits
import DialectSql.Text.Doubling
import DialectSql.Dialect.RowLimiting

/-!
# Dialects

The databases that statements are written for. Each decision that depends on the database is one
function on `Dialect`: quoting, placeholders, how rows are limited, and which constructs exist.

## Main definitions

* `Dialect` — the databases
* `Dialect.ofText?` — the dialect of a name, in any case and with its common short forms
* `Dialect.quoteIdentifier`, `Dialect.quoteText`, `Dialect.quoteBytes` — quoted names and literals
* `Dialect.parameterName` — the placeholder of a parameter
* `Dialect.rowLimiting` — how a dialect limits rows
-/

namespace DialectSql

/-- The databases that statements are written for. -/
inductive Dialect
  | sqlServer
  | mySql
  | postgreSql
  | oracle
  | sqlite
  | oledb
  /-- Any other database that stays close to the SQL standard. -/
  | other
  deriving DecidableEq, Repr

namespace Dialect

/-- The name of a dialect. -/
def name : Dialect → String
  | sqlServer => "sqlserver"
  | mySql => "mysql"
  | postgreSql => "postgresql"
  | oracle => "oracle"
  | sqlite => "sqlite"
  | oledb => "oledb"
  | other => "other"

instance : Named Dialect where
  all := [sqlServer, mySql, postgreSql, oracle, sqlite, oledb, other]
  name := name

/-- Every dialect. -/
def all : List Dialect := Named.all

/-- The dialect that a text names: its name or a common short form, in any case. -/
def ofText? (text : String) : Option Dialect :=
  match Text.asciiLower text with
  | "mssql" => some sqlServer
  | "postgres" => some postgreSql
  | name => Named.ofName? name

@[simp] theorem ofText?_name (d : Dialect) : ofText? d.name = some d := by
  cases d <;> decide

/-- The characters around a quoted identifier. -/
def identifierQuotes : Dialect → Char × Char
  | sqlServer => ('[', ']')
  | postgreSql => ('"', '"')
  | mySql | oracle | sqlite | oledb | other => ('\x60', '\x60')

/-- An identifier in an expression or a source, between its quotes. -/
def quoteIdentifier (d : Dialect) (name : String) : String :=
  Text.enclosed d.identifierQuotes.1 d.identifierQuotes.2 name

/-- Whether the identifiers at the head of a change and of its assignments go without quotes. -/
def bareChangeIdentifiers : Dialect → Bool
  | oracle => true
  | _ => false

/-- An identifier at the head of a change or of an assignment. -/
def quoteChangeIdentifier (d : Dialect) (name : String) : String :=
  if d.bareChangeIdentifiers then name else d.quoteIdentifier name

/-- The character that opens a placeholder. -/
def parameterMarker : Dialect → Char
  | sqlServer | postgreSql | oledb | other => '@'
  | oracle => ':'
  | mySql => '?'
  | sqlite => '$'

/-- The placeholder of the parameter number `index`, counted from zero. -/
def parameterName (d : Dialect) (base : String) (index : Nat) : String :=
  String.singleton d.parameterMarker ++ base ++ Text.natural index

/-- How rows are skipped and limited. -/
def rowLimiting : Dialect → RowLimiting
  | sqlServer => .numbering
  | oracle => .pseudoColumn
  | mySql => .limitComma ((UInt64.size - 1 : Nat) : Int)
  | sqlite => .limitComma (-1)
  | postgreSql | oledb | other => .limitOffset

/-- The characters that a text literal writes twice: the quote, and the backslash where the database
reads it as an escape. -/
def doubledInText : Dialect → Char → Bool
  | mySql, c => c == '\'' || c == '\\'
  | _, c => c == '\''

/-- A text literal. -/
def quoteText (d : Dialect) (text : String) : String :=
  Text.enclosed '\'' '\'' (String.ofList (Text.doubled d.doubledInText text.toList))

/-- A binary literal. -/
def quoteBytes (d : Dialect) (bytes : List UInt8) : String :=
  let digits := String.ofList
    (bytes.flatMap fun byte => (Text.hexDigits 2 byte.toNat).map Char.toUpper)
  match d with
  | sqlServer => "0x" ++ digits
  | _ => "X'" ++ digits ++ "'"

/-- Whether a join may be the target of an UPDATE. -/
def supportsJoinedUpdate : Dialect → Bool
  | sqlite => false
  | _ => true

/-- Whether a join may be the target of a DELETE. -/
def supportsJoinedDelete : Dialect → Bool
  | sqlite | postgreSql => false
  | _ => true

/-- Whether INTERSECT and EXCEPT exist. -/
def supportsIntersectExcept : Dialect → Bool
  | mySql => false
  | _ => true

end Dialect

end DialectSql
