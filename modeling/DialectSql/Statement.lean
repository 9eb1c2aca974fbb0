import DialectSql.Change

/-!
# Statements

Any statement, and what all statements have in common.

## Main definitions

* `Statement` — a query, a set operation or a change
* `Statement.kind`, `Statement.source?`, `Statement.criteria?` — the common view
-/

namespace DialectSql

/-- The kinds of statements. -/
inductive StatementKind
  | select | set | insert | update | delete
  deriving DecidableEq, Repr

instance : Named StatementKind where
  all := [.select, .set, .insert, .update, .delete]
  name
    | .select => "Select"
    | .set => "Set"
    | .insert => "Insert"
    | .update => "Update"
    | .delete => "Delete"

/-- Any statement. -/
inductive Statement
  | query (query : Query)
  | set (set : QuerySet)
  | change (change : Change)

namespace Statement

/-- Structural equality. -/
def beq : Statement → Statement → Bool
  | query a, query b => a == b
  | set a, set b => a == b
  | change a, change b => a == b
  | _, _ => false

instance : BEq Statement := ⟨Statement.beq⟩

/-- The kind of a statement. -/
def kind : Statement → StatementKind
  | query _ => .select
  | set _ => .set
  | change c =>
    match c.kind with
    | .insert => .insert
    | .update => .update
    | .delete => .delete

/-- What a statement reads or changes; a set operation has no source of its own. -/
def source? : Statement → Option Source
  | query q => some q.source
  | set _ => none
  | change c => some c.source

/-- The condition on the rows of a statement. -/
def criteria? : Statement → Option Criteria
  | query q => q.criteria
  | set _ => none
  | change c => c.criteria

end Statement

end DialectSql
