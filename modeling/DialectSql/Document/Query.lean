import DialectSql.Document.Expression
import DialectSql.Query.Criteria

/-!
# Documents of queries

The layout of queries, sources, criteria and set operations in documents.

## Main definitions

* `Query.encode`, `Query.decode` and the same for the parts of a query
-/

namespace DialectSql

/-- A table as a record. -/
def Table.encode (t : Table) : Json :=
  .record [.of "table" (.string t.name), .ifSome "alias" .string t.alias?,
    .unlessEmpty "storing_order" (t.storingOrder.map Order.encode)]

/-- A table as a record. -/
def Table.decode (j : Json) : Reading Table := do
  let name ← (← j.require "table").val.toText
  let alias? ← j.optionalText "alias"
  let storingOrder ← (← j.presentList "storing_order").mapM fun p => Order.decode p.val
  return ⟨name, alias?, storingOrder⟩

/-! ## Writing -/

mutual

/-- A condition as an alternative. -/
def Criteria.encode : Criteria → Json
  | .expression e => .tagged "Expression" e.encode
  | .compound op children =>
    .tagged "Complex" (.record [.of "operator" (.named op),
      .of "children" (.array (Criteria.encodeList children))])
  | .inSelect subject query op =>
    .tagged "InSelect" (.record [.of "left" subject.encode, .of "query" query.encode,
      .of "op" (.named op)])

/-- Conditions one by one. -/
def Criteria.encodeList : List Criteria → List Json
  | [] => []
  | c :: cs => c.encode :: Criteria.encodeList cs

/-- A condition that may be missing. -/
def Criteria.encodeOption : Option Criteria → Option Json
  | none => none
  | some c => some c.encode

/-- A relation as an alternative. -/
def Relation.encode : Relation → Json
  | .table t => .tagged "Simple" t.encode
  | .select query alias? =>
    .tagged "Select" (.record [.of "query" query.encode, .ifSome "alias" .string alias?])
  | .set s alias? =>
    .tagged "Set" (.record [.of "set" s.encode, .ifSome "alias" .string alias?])

/-- A source as an alternative. -/
def Source.encode : Source → Json
  | .single r => .tagged "Monomer" r.encode
  | .joined kind left right on =>
    .tagged "Joined" (.record [.of "join_type" (.named kind), .of "left" left.encode,
      .of "right" right.encode, .of "criteria" on.encode])

/-- A query as a record. -/
def Query.encode : Query → Json
  | ⟨source, criteria, selection, distinct, orders, skip, take, aggregation, groupBy, having⟩ =>
    .record [.of "source" source.encode,
      .ifSome "criteria" id (Criteria.encodeOption criteria),
      .unlessEmpty "selection" (selection.map Projection.encode),
      .of "distinct" (.bool distinct),
      .unlessEmpty "orders" (orders.map Order.encode),
      .ifSome "skip" (fun n => .int n.toNat) skip,
      .ifSome "take" (fun n => .int n.toNat) take,
      .ifSome "aggregation" Aggregation.encode aggregation,
      .unlessEmpty "group_by" (groupBy.map Expression.encode),
      .ifSome "having" id (Criteria.encodeOption having)]

/-- An operand of a set operation as an alternative. -/
def SetOperand.encode : SetOperand → Json
  | .query q => .tagged "Query" q.encode
  | .set s => .tagged "Set" s.encode

/-- A set operation as a record. -/
def QuerySet.encode : QuerySet → Json
  | ⟨operator, left, right, orders⟩ =>
    .record [.of "operator" (.named operator), .of "left" left.encode, .of "right" right.encode,
      .unlessEmpty "orders" (orders.map Order.encode)]

end

/-! ## Reading -/

/-- A number of rows that may be missing from a record. -/
def Json.optionalCount (j : Json) (key : String) : Reading (Option UInt64) := do
  match ← j.optional? key with
  | some p => return some (← p.val.toUInt64)
  | none => return none

mutual

/-- A condition as an alternative; the number of children of a compound one is checked. -/
def Criteria.decode (j : Json) : Reading Criteria := do
  let v ← j.variant
  match v.tag with
  | "Expression" => return .expression (← Expression.decode (← v.content).val)
  | "Complex" =>
    let ⟨body, _⟩ ← v.content
    let op ← (← body.require "operator").val.toNamed
    let children ← (← body.requireList "children").mapM fun ⟨child, _⟩ => Criteria.decode child
    Reading.checked (Criteria.ofChildren op children)
  | "InSelect" =>
    let ⟨body, _⟩ ← v.content
    let subject ← Expression.decode (← body.require "left").val
    let ⟨query, _⟩ ← body.require "query"
    let op ← (← body.require "op").val.toNamed
    return .inSelect subject (← Query.decode query) op
  | _ => throw .unreadable
termination_by sizeOf j

/-- A relation as an alternative. -/
def Relation.decode (j : Json) : Reading Relation := do
  let v ← j.variant
  match v.tag with
  | "Simple" => return .table (← Table.decode (← v.content).val)
  | "Select" =>
    let ⟨body, _⟩ ← v.content
    let ⟨query, _⟩ ← body.require "query"
    return .select (← Query.decode query) (← body.optionalText "alias")
  | "Set" =>
    let ⟨body, _⟩ ← v.content
    let ⟨set, _⟩ ← body.require "set"
    return .set (← QuerySet.decode set) (← body.optionalText "alias")
  | _ => throw .unreadable
termination_by sizeOf j

/-- A source as an alternative. -/
def Source.decode (j : Json) : Reading Source := do
  let v ← j.variant
  match v.tag with
  | "Monomer" =>
    let ⟨body, _⟩ ← v.content
    return .single (← Relation.decode body)
  | "Joined" =>
    let ⟨body, _⟩ ← v.content
    let kind ← (← body.require "join_type").val.toNamed
    let ⟨left, _⟩ ← body.require "left"
    let ⟨right, _⟩ ← body.require "right"
    let ⟨on, _⟩ ← body.require "criteria"
    return .joined kind (← Source.decode left) (← Source.decode right) (← Criteria.decode on)
  | _ => throw .unreadable
termination_by sizeOf j

/-- A query as a record. -/
def Query.decode (j : Json) : Reading Query := do
  let ⟨source, _⟩ ← j.require "source"
  let source ← Source.decode source
  let criteria ← (← j.optional? "criteria").mapM fun ⟨c, _⟩ => Criteria.decode c
  let selection ← (← j.presentList "selection").mapM fun p => Projection.decode p.val
  let distinct ← j.flag "distinct"
  let orders ← (← j.presentList "orders").mapM fun p => Order.decode p.val
  let skip ← j.optionalCount "skip"
  let take ← j.optionalCount "take"
  let aggregation ← (← j.optional? "aggregation").mapM fun p => Aggregation.decode p.val
  let groupBy ← (← j.presentList "group_by").mapM fun p => Expression.decode p.val
  let having ← (← j.optional? "having").mapM fun ⟨c, _⟩ => Criteria.decode c
  return ⟨source, criteria, selection, distinct, orders, skip, take, aggregation, groupBy, having⟩
termination_by sizeOf j

/-- An operand of a set operation as an alternative. -/
def SetOperand.decode (j : Json) : Reading SetOperand := do
  let v ← j.variant
  match v.tag with
  | "Query" =>
    let ⟨body, _⟩ ← v.content
    return .query (← Query.decode body)
  | "Set" =>
    let ⟨body, _⟩ ← v.content
    return .set (← QuerySet.decode body)
  | _ => throw .unreadable
termination_by sizeOf j

/-- A set operation as a record. -/
def QuerySet.decode (j : Json) : Reading QuerySet := do
  let operator ← (← j.require "operator").val.toNamed
  let ⟨left, _⟩ ← j.require "left"
  let ⟨right, _⟩ ← j.require "right"
  let left ← SetOperand.decode left
  let right ← SetOperand.decode right
  let orders ← (← j.presentList "orders").mapM fun p => Order.decode p.val
  return ⟨operator, left, right, orders⟩
termination_by sizeOf j

end

end DialectSql
