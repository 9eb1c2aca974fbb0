import DialectSql.Change.Assignment
import DialectSql.Query.Build

/-!
# Changes

INSERT, UPDATE and DELETE statements. The changed table is the leftmost one of the source; sources
joined to it restrict the rows that are changed.

## Main definitions

* `Change` — a statement that changes rows
* `Change.assign` — one assignment more, or in place of the one to the same column
* `Change.target` — the changed table
-/

namespace DialectSql

/-- The kinds of changes. -/
inductive ChangeKind
  | insert | update | delete
  deriving DecidableEq, Repr

instance : Named ChangeKind where
  all := [.insert, .update, .delete]
  name
    | .insert => "Insert"
    | .update => "Update"
    | .delete => "Delete"

/-- A statement that changes rows. -/
structure Change where
  /-- What happens to the rows. -/
  kind : ChangeKind
  /-- The changed table, with the sources joined to it. -/
  source : Source
  /-- The condition on the changed rows; an INSERT has none. -/
  criteria : Option Criteria
  /-- What is written, in the order in which the columns were first assigned. -/
  assignments : List Assignment

namespace Change

/-- Structural equality. -/
def beq (a b : Change) : Bool :=
  a.kind == b.kind && a.source == b.source && Criteria.optionBeq a.criteria b.criteria &&
    a.assignments == b.assignments

instance : BEq Change := ⟨Change.beq⟩

/-- A change of a source without condition and assignments. -/
def ofSource (kind : ChangeKind) (source : Source) : Change :=
  ⟨kind, source, none, []⟩

/-- An INSERT into a table. -/
def insertInto (table : String) : Change :=
  ofSource .insert (.ofTable table)

/-- One condition more on the changed rows. -/
def filter (c : Change) (criteria : Criteria) : Change :=
  { c with criteria := some (Criteria.conjoin c.criteria criteria) }

/-- An assignment put in the place of the first one to the same column, or else at the end. -/
def assignIn (a : Assignment) : List Assignment → List Assignment
  | [] => [a]
  | b :: bs => if b.column.name = a.column.name then a :: bs else b :: assignIn a bs

/-- A change with an assignment that replaces an earlier one to the same column. -/
def assign (c : Change) (a : Assignment) : Change :=
  { c with assignments := assignIn a c.assignments }

/-- The changed table. -/
def target (c : Change) : Except Error Table :=
  match c.source.leftmost with
  | .table t => .ok t
  | .select _ _ | .set _ _ => .error (.malformed .targetNotTable)

end Change

end DialectSql
