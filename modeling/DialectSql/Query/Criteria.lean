import DialectSql.Query.Tree

/-!
# Combining criteria

Conjunction, disjunction and negation of conditions, and the checked ways to make compound ones.

## Main definitions

* `Criteria.and`, `Criteria.or` — combinations that keep chains of one connective flat
* `Criteria.negation` — negation, which turns membership tests around
* `Criteria.ofChildren`, `Criteria.ofOperands` — compounds with a checked number of children
* `Criteria.inRowsOf` — membership in the rows of a checked subquery
-/

namespace DialectSql.Criteria

instance : Coe Expression Criteria := ⟨expression⟩

/-- The conditions that a condition contributes to a chain of `op`: its children if it is such a
chain itself. -/
def links (op : Connective) : Criteria → List Criteria
  | compound p children => if p = op then children else [compound p children]
  | criteria => [criteria]

/-- Two conditions in one flat chain of `op`. -/
def combine (op : Connective) (a b : Criteria) : Criteria :=
  compound op (a.links op ++ b.links op)

/-- Both conditions. -/
def and (a b : Criteria) : Criteria := combine .and a b

/-- Either condition. -/
def or (a b : Criteria) : Criteria := combine .or a b

/-- The negation. Membership tests are turned around, everything else stands under NOT. -/
def negation (c : Criteria) : Criteria :=
  match c with
  | expression e =>
    match e.flipMembership? with
    | some flipped => expression flipped
    | none => compound .not [c]
  | inSelect subject query op => inSelect subject query op.negated
  | compound _ _ => compound .not [c]

/-- Conditions under a connective that allows their number. -/
def ofChildren (op : Connective) (children : List Criteria) : Except Error Criteria :=
  if op.allows children.length then .ok (compound op children)
  else .error (.malformed (.childCount op children.length))

/-- Up to two conditions under a connective that allows their number. -/
def ofOperands (op : Connective) (left right : Option Criteria) : Except Error Criteria :=
  match left, right with
  | none, none => .error (.malformed (.absentOperands op))
  | _, _ => ofChildren op (left.toList ++ right.toList)

/-- Membership in the rows of a subquery, which has to name its columns. -/
def inRowsOf (subject : Expression) (query : Query) (op : Membership) : Except Error Criteria :=
  if query.selection.isEmpty then .error (.malformed .unprojectedSubquery)
  else .ok (inSelect subject query op)

/-- A condition added to those that may be there already. -/
def conjoin (existing : Option Criteria) (c : Criteria) : Criteria :=
  match existing with
  | some e => e.and c
  | none => c

end DialectSql.Criteria
