import DialectSql.Proofs.NaturalOrder.Outward
import DialectSql.Proofs.NaturalOrder.Shape
import DialectSql.Rendering

/-!
# Copies inside of copies

Where rows are numbered, a query that skips rows and asks for no order is written from a copy of it
that has the order of its source. This copy reads subqueries that were changed and are no parts of
the query, and these are written from copies of their own. So the recursion does not follow the
tree. It ends because a copy is nested like its original.

## Main definitions

* `Criteria.traverse`, `Source.traverse`, `Query.traverse`, … — the queries of a node, rewritten
* `Query.implyWithin`, `Statement.implyWithin` — the recursion through copies, with a limit
* `EndsWithin` — an outcome that needs a given number of levels

## Main results

* `Query.endsWithin_implyWithin` — as many levels are needed as queries are nested in each other
* `Query.nesting_bubbleSourceOrder` — bubbling keeps the nesting, and the recursion ends
-/

namespace DialectSql

/-! ## The recursion, level by level -/

section Traversals

variable (f : Query → Option Query)

mutual

/-- A condition with the queries that it contains rewritten by `f`, if that ends for all of them. -/
def Criteria.traverse : Criteria → Option Criteria
  | .expression e => some (.expression e)
  | .compound op children => do
    let children ← Criteria.traverseList children
    return .compound op children
  | .inSelect subject query op => do
    let query ← f query
    return .inSelect subject query op

/-- Conditions with the queries that they contain rewritten by `f`. -/
def Criteria.traverseList : List Criteria → Option (List Criteria)
  | [] => some []
  | c :: cs => do
    let c ← c.traverse
    let cs ← Criteria.traverseList cs
    return c :: cs

end

/-- An optional condition with the queries that it contains rewritten by `f`. -/
def Criteria.traverseOption : Option Criteria → Option (Option Criteria)
  | none => some none
  | some c => do
    let c ← c.traverse f
    return some c

mutual

/-- An operand with the queries that it contains rewritten by `f`. -/
def SetOperand.traverse : SetOperand → Option SetOperand
  | .query q => do
    let q ← f q
    return .query q
  | .set s => do
    let s ← s.traverse
    return .set s

/-- A set operation with the queries that it contains rewritten by `f`. -/
def QuerySet.traverse : QuerySet → Option QuerySet
  | ⟨operator, left, right, orders⟩ => do
    let left ← left.traverse
    let right ← right.traverse
    return ⟨operator, left, right, orders⟩

end

/-- A relation with the queries that it contains rewritten by `f`. -/
def Relation.traverse : Relation → Option Relation
  | .table t => some (.table t)
  | .select query alias? => do
    let query ← f query
    return .select query alias?
  | .set s alias? => do
    let s ← s.traverse f
    return .set s alias?

/-- A source with the queries that it contains rewritten by `f`. -/
def Source.traverse : Source → Option Source
  | .single r => do
    let r ← r.traverse f
    return .single r
  | .joined kind left right on => do
    let left ← left.traverse
    let right ← right.traverse
    let on ← on.traverse f
    return .joined kind left right on

/-- A query with the queries in its clauses rewritten by `f`. -/
def Query.traverse (q : Query) : Option Query := do
  let source ← q.source.traverse f
  let criteria ← Criteria.traverseOption f q.criteria
  let having ← Criteria.traverseOption f q.having
  return { q with source, criteria, having }

end Traversals

/-- A query as it is written where rows are numbered: a copy with its implied order, in whose
clauses the queries are written in the same way. The recursion goes through `levels` copies and no
further. -/
def Query.implyWithin : (levels : Nat) → Query → Option Query
  | 0, _ => none
  | levels + 1, q => q.implyOrder.traverse (Query.implyWithin levels)

/-- A statement as it is written where rows are numbered. -/
def Statement.implyWithin (levels : Nat) : Statement → Option Statement
  | query q => do
    let q ← q.implyWithin levels
    return query q
  | set r => do
    let r ← r.traverse (Query.implyWithin levels)
    return set r
  | change c => do
    let source ← c.source.traverse (Query.implyWithin levels)
    let criteria ← Criteria.traverseOption (Query.implyWithin levels) c.criteria
    return change { c with source, criteria }

/-! ## The recursion ends -/

/-- An outcome that is `a` if there are as many levels as are nested in each other. -/
def EndsWithin {α : Type} (levels depth : Nat) (a : α) (outcome : Option α) : Prop :=
  outcome = if depth ≤ levels then some a else none

namespace EndsWithin

variable {α β : Type} {levels depth depth' : Nat} {a : α} {b : β} {outcome : Option α}

theorem pure (a : α) : EndsWithin levels 0 a (some a) := (if_pos levels.zero_le).symm

/-- What comes last needs no levels. -/
theorem map (h : EndsWithin levels depth a outcome) (g : α → β) :
    EndsWithin levels depth (g a) (do return g (← outcome)) := by
  subst h
  unfold EndsWithin
  split <;> rfl

/-- Two parts need as many levels as the one that needs more. -/
theorem bind {g : α → Option β} (h : EndsWithin levels depth a outcome)
    (hg : EndsWithin levels depth' b (g a)) :
    EndsWithin levels (max depth depth') b (outcome >>= g) := by
  subst h
  unfold EndsWithin at hg ⊢
  by_cases hdepth : depth ≤ levels
  · simp only [hdepth, if_true, Option.bind_eq_bind, Option.bind_some, hg, Nat.max_le, true_and]
  · simp only [hdepth, if_false, Option.bind_eq_bind, Option.bind_none, Nat.max_le, false_and]

/-- One level more for a tree that is nested one level more. -/
theorem succ (h : EndsWithin levels depth a outcome) :
    EndsWithin (levels + 1) (depth + 1) a outcome := by
  unfold EndsWithin at h ⊢
  simpa only [Nat.add_le_add_iff_right] using h

end EndsWithin

section Traversals

variable {f : Query → Option Query} {levels : Nat}

mutual

/-- If `f` gives queries their implied orders and ends within some levels, then it does so in a
condition. -/
theorem Criteria.endsWithin_traverse (hf : ∀ q, EndsWithin levels q.depth q.implyOrders (f q)) :
    ∀ c : Criteria, EndsWithin levels c.depth c.implyOrders (c.traverse f)
  | .expression _ => .pure _
  | .compound op children =>
    (Criteria.endsWithin_traverseList hf children).map (Criteria.compound op)
  | .inSelect subject query op => (hf query).map (Criteria.inSelect subject · op)

/-- It does so in a list of conditions. -/
theorem Criteria.endsWithin_traverseList
    (hf : ∀ q, EndsWithin levels q.depth q.implyOrders (f q)) :
    ∀ cs : List Criteria, EndsWithin levels (Criteria.depthList cs) (Criteria.implyOrdersList cs)
      (Criteria.traverseList f cs)
  | [] => .pure _
  | c :: cs =>
    (Criteria.endsWithin_traverse hf c).bind
      ((Criteria.endsWithin_traverseList hf cs).map (c.implyOrders :: ·))

end

/-- It does so in an optional condition. -/
theorem Criteria.endsWithin_traverseOption
    (hf : ∀ q, EndsWithin levels q.depth q.implyOrders (f q)) (c? : Option Criteria) :
    EndsWithin levels (Criteria.depthOption c?) (Criteria.implyOrdersOption c?)
      (Criteria.traverseOption f c?) := by
  cases c? with
  | none => exact .pure _
  | some c => exact (c.endsWithin_traverse hf).map some

mutual

/-- It does so in an operand. -/
theorem SetOperand.endsWithin_traverse
    (hf : ∀ q, EndsWithin levels q.depth q.implyOrders (f q)) :
    ∀ o : SetOperand, EndsWithin levels o.depth o.implyOrders (o.traverse f)
  | .query q => (hf q).map SetOperand.query
  | .set s => (QuerySet.endsWithin_traverse hf s).map SetOperand.set

/-- It does so in a set operation. -/
theorem QuerySet.endsWithin_traverse
    (hf : ∀ q, EndsWithin levels q.depth q.implyOrders (f q)) :
    ∀ s : QuerySet, EndsWithin levels s.depth s.implyOrders (s.traverse f)
  | ⟨operator, left, right, orders⟩ =>
    (SetOperand.endsWithin_traverse hf left).bind
      ((SetOperand.endsWithin_traverse hf right).map
        (QuerySet.mk operator left.implyOrders · orders))

end

/-- It does so in a relation. -/
theorem Relation.endsWithin_traverse (hf : ∀ q, EndsWithin levels q.depth q.implyOrders (f q))
    (r : Relation) : EndsWithin levels r.depth r.implyOrders (r.traverse f) := by
  cases r with
  | table t => exact .pure _
  | select query alias? => exact (hf query).map (Relation.select · alias?)
  | set s alias? => exact (s.endsWithin_traverse hf).map (Relation.set · alias?)

/-- It does so in a source. -/
theorem Source.endsWithin_traverse (hf : ∀ q, EndsWithin levels q.depth q.implyOrders (f q))
    (s : Source) : EndsWithin levels s.depth s.implyOrders (s.traverse f) := by
  cases s with
  | single r => exact (r.endsWithin_traverse hf).map Source.single
  | joined kind left right on =>
    have hleft := Source.endsWithin_traverse hf left
    have hright := Source.endsWithin_traverse hf right
    have hon := on.endsWithin_traverse hf
    exact hleft.bind
      (hright.bind (hon.map (Source.joined kind left.implyOrders right.implyOrders)))

/-- It does so in the clauses of a query, and needs one level less than are nested in each other
from the query inwards. -/
theorem Query.endsWithin_traverse (hf : ∀ q, EndsWithin levels q.depth q.implyOrders (f q))
    (q : Query) : EndsWithin (levels + 1) q.depth q.implyClauses (q.traverse f) := by
  have hclauses : EndsWithin levels
      (max q.source.depth (max (Criteria.depthOption q.criteria) (Criteria.depthOption q.having)))
      q.implyClauses (q.traverse f) :=
    (q.source.endsWithin_traverse hf).bind
      ((Criteria.endsWithin_traverseOption hf q.criteria).bind
        ((Criteria.endsWithin_traverseOption hf q.having).map
          fun having => { q.implyClauses with having }))
  rw [depth_eq]
  exact hclauses.succ

end Traversals

/-- A query has its implied orders after as many levels as are nested in it, and not before. -/
theorem Query.endsWithin_implyWithin :
    ∀ (levels : Nat) (q : Query),
      EndsWithin levels q.depth q.implyOrders (q.implyWithin levels)
  | 0, q => by
    cases q
    rfl
  | levels + 1, q => by
    -- The copy is nested like the query, and what is in its clauses less deeply.
    have hcopy := q.implyOrder.endsWithin_traverse (endsWithin_implyWithin levels)
    rwa [depth_implyOrder, ← implyOrders_eq_implyClauses] at hcopy

/-- So has a statement. -/
theorem Statement.endsWithin_implyWithin (levels : Nat) :
    ∀ t : Statement, EndsWithin levels t.depth t.implyOrders (t.implyWithin levels)
  | query q => (q.endsWithin_implyWithin levels).map query
  | set s => (s.endsWithin_traverse (Query.endsWithin_implyWithin levels)).map set
  | change c =>
    (c.source.endsWithin_traverse (Query.endsWithin_implyWithin levels)).bind
      ((Criteria.endsWithin_traverseOption (Query.endsWithin_implyWithin levels) c.criteria).map
        fun criteria => change { c with source := c.source.implyOrders, criteria })

/-- Bubbling, which may succeed or break off, changes nothing but the orders and projections of the
subqueries on its way, the orders at its end and those of the query itself, and so no query is
nested more deeply than before. Hence the recursion into copies with implied orders ends for every
statement. It needs as many levels as queries are nested in each other in the statement itself, and
gives what is written where rows are numbered. -/
theorem Query.nesting_bubbleSourceOrder :
    (∀ q : Query, q.bubbleSourceOrder.node.stripped = q.stripped ∧
      q.bubbleSourceOrder.node.depth = q.depth) ∧
    ∀ t : Statement,
      (∀ levels, t.implyWithin levels = if t.depth ≤ levels then some t.implyOrders else none) ∧
      ∀ s : Setting, some (Drafted.draft t s) =
        (if s.numbersRows then t.implyWithin t.depth else some t).map (·.draft s) := by
  refine ⟨fun q => ⟨q.stripped_bubbleSourceOrder, q.depth_bubbleSourceOrder⟩, fun t =>
    ⟨fun levels => t.endsWithin_implyWithin levels, fun s => ?_⟩⟩
  -- With as many levels as are nested in the statement the recursion ends.
  have hends : t.implyWithin t.depth = some t.implyOrders := by
    rw [t.endsWithin_implyWithin t.depth, if_pos (Nat.le_refl _)]
  rw [hends]
  change some ((if s.numbersRows then t.implyOrders else t).draft s) = _
  split <;> rfl

end DialectSql
