import DialectSql.Document.Query
import DialectSql.Statement

/-!
# Documents of statements

The layout of assignments, changes and whole statements in documents.

## Main definitions

* `Statement.encode`, `Statement.decode` and the same for `Assignment` and `Change`
-/

namespace DialectSql

/-- What an assignment writes, as an alternative. -/
def AssignedValue.encode : AssignedValue → Json
  | bool b => .tagged "Bool" (.bool b)
  | char c => .tagged "Char" (.ofChar c)
  | dateTime t => .tagged "DateTime" t.encode
  | guid g => .tagged "Guid" g.encode
  | numeric n => .tagged "Numeric" n.encode
  | string s => .tagged "String" (.string s)
  | timeSpan t => .tagged "TimeSpan" t.encode
  | increment amount => .tagged "Increment" amount.encode
  | null => .string "Null"
  | expression e => .tagged "Expression" e.encode

/-- What an assignment writes, as an alternative. -/
def AssignedValue.decode (j : Json) : Reading AssignedValue := do
  let v ← j.variant
  match v.tag with
  | "Bool" => return bool (← (← v.content).val.toBool)
  | "Char" => return char (← (← v.content).val.toChar)
  | "DateTime" => return dateTime (← DateTime.decode (← v.content).val)
  | "Guid" => return guid (← Guid.decode (← v.content).val)
  | "Numeric" => return numeric (← Numeric.decode (← v.content).val)
  | "String" => return string (← (← v.content).val.toText)
  | "TimeSpan" => return timeSpan (← TimeSpan.decode (← v.content).val)
  | "Increment" => return increment (← Numeric.decode (← v.content).val)
  | "Null" => v.nothing; return null
  | "Expression" => return expression (← Expression.decode (← v.content).val)
  | _ => throw .unreadable

/-- An assignment as a record. -/
def Assignment.encode (a : Assignment) : Json :=
  .record [.of "column" a.column.encode, .of "value" a.value.encode]

/-- An assignment as a record. -/
def Assignment.decode (j : Json) : Reading Assignment := do
  let column ← Field.decode (← j.require "column").val
  let value ← AssignedValue.decode (← j.require "value").val
  return ⟨column, value⟩

/-- A change as a record. -/
def Change.encode (c : Change) : Json :=
  .record [.of "change_type" (.named c.kind), .of "source" c.source.encode,
    .ifSome "criteria" Criteria.encode c.criteria,
    .unlessEmpty "setters" (c.assignments.map Assignment.encode)]

/-- A change as a record. -/
def Change.decode (j : Json) : Reading Change := do
  let kind ← (← j.require "change_type").val.toNamed
  let source ← Source.decode (← j.require "source").val
  let criteria ← (← j.optional? "criteria").mapM fun p => Criteria.decode p.val
  let assignments ← (← j.presentList "setters").mapM fun p => Assignment.decode p.val
  return ⟨kind, source, criteria, assignments⟩

/-- A statement as an alternative. -/
def Statement.encode : Statement → Json
  | query q => .tagged "Query" q.encode
  | set s => .tagged "Set" s.encode
  | change c => .tagged "Change" c.encode

/-- A statement as an alternative. -/
def Statement.decode (j : Json) : Reading Statement := do
  let v ← j.variant
  match v.tag with
  | "Query" => return query (← Query.decode (← v.content).val)
  | "Set" => return set (← QuerySet.decode (← v.content).val)
  | "Change" => return change (← Change.decode (← v.content).val)
  | _ => throw .unreadable

end DialectSql
