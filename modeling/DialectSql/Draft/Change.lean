import DialectSql.Change
import DialectSql.Draft.Query

/-!
# Drafts of changes

INSERT, UPDATE and DELETE statements in the spelling of a dialect.

## Main definitions

* `Assignment.valueDraft` — what an assignment writes
* `Assignment.draft` — an item of a SET list
* `Assignment.pair` — the items of the two lists of an INSERT
* `Change.draft` — a change
-/

namespace DialectSql

namespace Assignment

/-- The column of an assignment. -/
def columnDraft (s : Setting) (a : Assignment) : Draft := s.changeName a.column.name

/-- What an assignment writes, or adds to the column. -/
def valueDraft (s : Setting) (a : Assignment) : Draft :=
  match a.value with
  -- A datetime that cannot be stored is not cut to the range but left out.
  | .dateTime t => if s.config.inRange t then .constant (.dateTime t) else .constant .null
  | .increment amount => .constant amount.toValue
  | .expression e => e.draft s
  | value => .constant (value.constant?.getD .null)

/-- An assignment writes one constant or an expression. -/
theorem valueDraft_cases (s : Setting) (a : Assignment) :
    (∃ v, a.valueDraft s = .constant v) ∨
      ∃ e, a.value = .expression e ∧ a.valueDraft s = e.draft s := by
  unfold valueDraft
  split
  · split
    · exact .inl ⟨_, rfl⟩
    · exact .inl ⟨_, rfl⟩
  · exact .inl ⟨_, rfl⟩
  · next e he => exact .inr ⟨e, he, rfl⟩
  · exact .inl ⟨_, rfl⟩

/-- An item of a SET list. -/
def draft (s : Setting) (a : Assignment) : Draft :=
  let value := match a.value with
    | .increment _ => a.columnDraft s ++ .text " + " ++ a.valueDraft s
    | _ => a.valueDraft s
  a.columnDraft s ++ .text " = " ++ value

/-- An item of a SET list begins with the column, and an increment repeats it. -/
theorem draft_eq_ite (s : Setting) (a : Assignment) :
    a.draft s = a.columnDraft s ++ .text " = " ++
      if a.value.isIncrement then a.columnDraft s ++ .text " + " ++ a.valueDraft s
      else a.valueDraft s := by
  obtain ⟨column, value⟩ := a
  cases value <;> rfl

/-- The column and the value of an assignment, for the two lists of an INSERT. -/
def pair (s : Setting) (a : Assignment) : Draft × Draft :=
  (a.columnDraft s, a.valueDraft s)

end Assignment

namespace Change

/-- The changed table: a table with its alias, or the whole of a join. -/
def headDraft (c : Change) (s : Setting) : Draft :=
  match c.source with
  | .single (.table t) =>
    match t.alias? with
    | some name => s.changeName t.name ++ .text " " ++ s.changeName name
    | none => s.changeName t.name
  | source => source.draft s

/-- The condition on the changed rows. -/
def filterDraft (c : Change) (s : Setting) : Draft :=
  whereDraft ((Criteria.draftOption c.criteria).map (· s)) none

/-- An INSERT that writes nothing. -/
def insertNothing (d : Dialect) : Draft :=
  match d with
  | .mySql => .text " " ++ Draft.empty.parens ++ .text " VALUES " ++ Draft.empty.parens
  | _ => .text " DEFAULT VALUES"

/-- An INSERT into `table`. -/
def insertDraft (c : Change) (s : Setting) (table : Table) : Draft :=
  .text "INSERT INTO " ++ s.changeName table.name ++
    (if c.assignments.isEmpty then insertNothing s.dialect
      else
        let pairs := c.assignments.map (·.pair s)
        .text " " ++ (Draft.list (pairs.map (·.1))).parens ++ .text " VALUES " ++
          (Draft.list (pairs.map (·.2))).parens)

/-- An UPDATE. One dialect names the changed symbol in front and the source behind. -/
def updateDraft (c : Change) (s : Setting) : Draft :=
  if c.assignments.isEmpty then .fail (.malformed .nothingAssigned)
  else if c.source.isJoined && !s.dialect.supportsJoinedUpdate then
    .fail (.unsupported s.dialect .joinedUpdate)
  else
    let assigned := Draft.list (c.assignments.map (·.draft s))
    if s.dialect = .sqlServer then
      .text "UPDATE " ++ s.changeName c.source.leftmost.symbol ++ .text " SET " ++ assigned ++
        .text " FROM " ++ c.source.draft s ++ c.filterDraft s
    else
      .text "UPDATE " ++ c.headDraft s ++ .text " SET " ++ assigned ++ c.filterDraft s

/-- Whether a DELETE names the changed symbol in front of the source. -/
def namesDeleted (c : Change) (d : Dialect) : Bool :=
  match d with
  | .sqlServer => c.source.isJoined || c.source.leftmost.alias?.isSome
  | .mySql | .oledb | .other => c.source.isJoined
  | .postgreSql | .oracle | .sqlite => false

/-- A DELETE. -/
def deleteDraft (c : Change) (s : Setting) : Draft :=
  if c.source.isJoined && !s.dialect.supportsJoinedDelete then
    .fail (.unsupported s.dialect .joinedDelete)
  else
    (if c.namesDeleted s.dialect then
      .text "DELETE " ++ s.changeName c.source.leftmost.symbol ++ .text " FROM " ++
        c.source.draft s
    else .text "DELETE FROM " ++ c.headDraft s) ++ c.filterDraft s

/-- A change in a setting. Whatever the change, its target has to be a table. -/
def draft (c : Change) (s : Setting) : Draft :=
  .ofExcept c.target fun table =>
    match c.kind with
    | .insert => c.insertDraft s table
    | .update => c.updateDraft s
    | .delete => c.deleteDraft s

end Change

end DialectSql
