import DialectSql.Text.Digits

/-!
# Limiting rows

How a dialect skips rows and limits their number: by wrapping the statement in others that number
its rows, or by a clause at the end.

## Main definitions

* `RowLimiting` — the strategies
* `LimitClause` — the clauses that can close a statement
* `RowLimiting.limitClause?` — the clause of a strategy; none for the wrapping strategies
* `rowCap` — the number of the last row of a window
-/

namespace DialectSql

/-- How a dialect skips and limits rows. -/
inductive RowLimiting
  /-- `TOP n`, and a wrapper that numbers rows by `ROW_NUMBER()` if some are skipped. -/
  | numbering
  /-- Wrappers around the `ROWNUM` pseudo-column. -/
  | pseudoColumn
  /-- `LIMIT skip,take`, with a count that stands for no limit. -/
  | limitComma (unbounded : Int)
  /-- `LIMIT take OFFSET skip`. -/
  | limitOffset
  deriving DecidableEq, Repr

/-- A clause that closes a statement and limits its rows. -/
inductive LimitClause
  | absent
  | limit (take : UInt64)
  | limitComma (skip : UInt64) (count : Int)
  | limitOffset (take skip : UInt64)
  | offset (skip : UInt64)
  deriving DecidableEq, Repr

/-- A closing clause, with the space before it. -/
def LimitClause.text : LimitClause → String
  | absent => ""
  | limit take => " LIMIT " ++ Text.natural take.toNat
  | limitComma skip count => " LIMIT " ++ Text.natural skip.toNat ++ "," ++ Text.integer count
  | limitOffset take skip =>
    " LIMIT " ++ Text.natural take.toNat ++ " OFFSET " ++ Text.natural skip.toNat
  | offset skip => " OFFSET " ++ Text.natural skip.toNat

/-- The closing clause of a strategy, or nothing for the strategies that wrap the statement. -/
def RowLimiting.limitClause? (p : RowLimiting) (skip take : Option UInt64) : Option LimitClause :=
  match p with
  | numbering | pseudoColumn => none
  | limitComma unbounded =>
    some <| match skip, take with
      | some skip, some take => .limitComma skip take.toNat
      | none, some take => .limit take
      | some skip, none => .limitComma skip unbounded
      | none, none => .absent
  | limitOffset =>
    some <| match skip, take with
      | some skip, some take => .limitOffset take skip
      | none, some take => .limit take
      | some skip, none => .offset skip
      | none, none => .absent

/-- The number of the last row of a window, or the largest 64-bit number if it is beyond that. -/
def rowCap (skip take : UInt64) : Nat :=
  min (skip.toNat + take.toNat) (UInt64.size - 1)

end DialectSql
