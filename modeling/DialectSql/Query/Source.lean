import DialectSql.Query.Criteria

/-!
# Sources

The symbols by which columns refer to a source, the shape of joins, and the description of a source
in messages.

## Main definitions

* `Relation.symbol` — the alias, or what stands in for a missing one
* `Source.leftmost`, `Source.relations` — the single sources under a join
* `Source.modifyAt` — a change to one of them
* `Source.description` — a source as messages show it
-/

namespace DialectSql

/-- The symbol of a subquery or set operation without an alias. -/
def subqueryAlias : String := "sub_t"

/-- The alias of a table, or its name. -/
def Table.symbol (t : Table) : String := t.alias?.getD t.name

/-- A table without an alias. -/
def Table.ofName (name : String) : Table := ⟨name, none, []⟩

namespace Relation

/-- The alias, if there is one. -/
def alias? : Relation → Option String
  | table t => t.alias?
  | select _ alias? => alias?
  | set _ alias? => alias?

/-- The symbol by which columns refer to a relation. -/
def symbol : Relation → String
  | table t => t.symbol
  | select _ alias? => alias?.getD subqueryAlias
  | set _ alias? => alias?.getD subqueryAlias

/-- The same relation under another alias, or under none. -/
def withAlias (r : Relation) (alias? : Option String) : Relation :=
  match r with
  | table t => table { t with alias? }
  | select query _ => select query alias?
  | set s _ => set s alias?

/-- The same relation without an alias. -/
def resetAlias (r : Relation) : Relation := r.withAlias none

/-- The same relation, with an alias made of a text in front of its symbol. -/
def prefixAlias (text : String) (r : Relation) : Relation :=
  r.withAlias (some (text ++ r.symbol))

end Relation

namespace Source

/-- A table without an alias. -/
def ofTable (name : String) : Source := single (.table (.ofName name))

/-- A table with an alias. -/
def ofTableAs (name symbol : String) : Source := single (.table ⟨name, some symbol, []⟩)

/-- A subquery with an alias. -/
def ofQuery (query : Query) (symbol : String) : Source := single (.select query (some symbol))

/-- A set operation with an alias. -/
def ofSet (set : QuerySet) (symbol : String) : Source := single (.set set (some symbol))

/-- A source joined with another one. -/
def join (left : Source) (kind : JoinKind) (right : Source) (on : Criteria) : Source :=
  joined kind left right on

/-- Whether a source is a join. -/
def isJoined : Source → Bool
  | single _ => false
  | joined _ _ _ _ => true

/-- The relation of a source that is not a join. -/
def relation? : Source → Option Relation
  | single r => some r
  | joined _ _ _ _ => none

/-- The first relation of a source. -/
def leftmost : Source → Relation
  | single r => r
  | joined _ left _ _ => left.leftmost

/-- The relations of a source from left to right. -/
def relations : Source → List Relation
  | single r => [r]
  | joined _ left right _ => left.relations ++ right.relations

/-- The source with the relation number `index` changed, counted from zero on the left. -/
def modifyAt (f : Relation → Relation) (index : Nat) : Source → Source
  | single r => if index = 0 then single (f r) else single r
  | joined kind left right on =>
    let count := left.relations.length
    if index < count then joined kind (left.modifyAt f index) right on
    else joined kind left (right.modifyAt f (index - count)) on

end Source

/-! ## Descriptions -/

mutual

/-- A relation as messages show it. -/
def Relation.description : Relation → String
  | .table t =>
    match t.alias? with
    | some name => t.name ++ " " ++ name
    | none => t.name
  | .select query alias? =>
    "(" ++ query.description ++ ") " ++ alias?.getD subqueryAlias
  | .set s alias? => "(" ++ s.description ++ ") " ++ alias?.getD subqueryAlias

/-- A source as messages show it. -/
def Source.description : Source → String
  | .single r => r.description
  | .joined kind left right _ => left.description ++ " " ++ kind.symbol ++ " " ++ right.description

/-- A query as messages show it: by what it reads. -/
def Query.description : Query → String
  | ⟨source, _, _, _, _, _, _, _, _, _⟩ => "select from " ++ source.description

/-- An operand of a set operation as messages show it. -/
def SetOperand.description : SetOperand → String
  | .query q => q.description
  | .set s => "(" ++ s.description ++ ")"

/-- A set operation as messages show it. -/
def QuerySet.description : QuerySet → String
  | ⟨operator, left, right, _⟩ =>
    left.description ++ " " ++ operator.symbol ++ " " ++ right.description

end

end DialectSql
