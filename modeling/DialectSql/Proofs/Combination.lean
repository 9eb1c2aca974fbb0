import Mathlib.Data.List.Forall2
import DialectSql.Change
import DialectSql.Query.Build
import DialectSql.Query.Criteria

/-!
# Combinations of criteria

Conjunction and disjunction keep chains of one connective flat, and the negation of a membership
test turns the test around. None of this changes what a condition means, in a logic with a third
truth value for what is not known.

## Main definitions

* `Truth` — three truth values with the connectives of Kleene
* `Valuation` — truth values of single conditions, in which NOT IN is the negation of IN
* `Criteria.truth` — the truth value of a condition
* `Criteria.leaves` — the single conditions of a condition
* `Criteria.IsFlat` — conditions without a chain inside a chain of the same connective
* `Combination` — how a condition is put together from single ones

## Main results

* `Criteria.combine_assoc` — chains do not depend on how they are put together
* `Criteria.truth_and`, `Criteria.truth_or`, `Criteria.truth_negation` — what combinations mean
* `Combination.isFlat_build`, `Combination.turned_build` — the form of what is put together
* `Criteria.combinations_keep_meaning` — all of this, and the conditions that queries and changes
  collect
-/

namespace DialectSql

/-! ## Truth values -/

/-- A truth value; that of a condition on an absent value is not known. -/
inductive Truth
  | false | unknown | true
  deriving DecidableEq, Repr

namespace Truth

/-- The conjunction, which is false if either side is, whatever the other. -/
def and : Truth → Truth → Truth
  | false, _ | _, false => false
  | true, true => true
  | unknown, _ | _, unknown => unknown

/-- The disjunction, which is true if either side is, whatever the other. -/
def or : Truth → Truth → Truth
  | true, _ | _, true => true
  | false, false => false
  | unknown, _ | _, unknown => unknown

/-- The negation, which leaves unknown what is not known. -/
def not : Truth → Truth
  | false => true
  | unknown => unknown
  | true => false

theorem and_assoc (x y z : Truth) : (x.and y).and z = x.and (y.and z) := by
  cases x <;> cases y <;> cases z <;> rfl

theorem or_assoc (x y z : Truth) : (x.or y).or z = x.or (y.or z) := by
  cases x <;> cases y <;> cases z <;> rfl

@[simp] theorem true_and (x : Truth) : true.and x = x := by cases x <;> rfl

@[simp] theorem and_true (x : Truth) : x.and true = x := by cases x <;> rfl

@[simp] theorem false_or (x : Truth) : false.or x = x := by cases x <;> rfl

@[simp] theorem or_false (x : Truth) : x.or false = x := by cases x <;> rfl

/-- The conjunction of truth values. -/
def all (values : List Truth) : Truth := values.foldr and true

/-- The disjunction of truth values. -/
def any (values : List Truth) : Truth := values.foldr or false

theorem all_append (xs ys : List Truth) : all (xs ++ ys) = (all xs).and (all ys) := by
  induction xs with
  | nil => exact (true_and _).symm
  | cons x xs ih => exact (congrArg x.and ih).trans (and_assoc _ _ _).symm

theorem any_append (xs ys : List Truth) : any (xs ++ ys) = (any xs).or (any ys) := by
  induction xs with
  | nil => exact (false_or _).symm
  | cons x xs ih => exact (congrArg x.or ih).trans (or_assoc _ _ _).symm

@[simp] theorem all_singleton (x : Truth) : all [x] = x := and_true x

@[simp] theorem any_singleton (x : Truth) : any [x] = x := or_false x

end Truth

/-- The truth value of conditions under a connective. -/
def Connective.truth : Connective → List Truth → Truth
  | and, values => .all values
  | or, values => .any values
  | not, values => (Truth.all values).not

/-! ## The meaning of conditions -/

/-- The truth values of single conditions. Absence from a list or from the rows of a subquery is the
negation of membership. -/
structure Valuation where
  /-- The truth value of a boolean expression. -/
  expression : Expression → Truth
  /-- The truth value of a membership in the rows of a subquery. -/
  inSelect : Expression → Query → Membership → Truth
  expression_flip {e flipped : Expression} (h : e.flipMembership? = some flipped) :
    expression flipped = (expression e).not
  inSelect_negated (subject : Expression) (query : Query) (op : Membership) :
    inSelect subject query op.negated = (inSelect subject query op).not

/-- Whatever the tests for membership and all other expressions are worth, there is a valuation with
those values. -/
def Valuation.ofTests (plain : Expression → Truth) (listed : Expression → List Value → Truth)
    (rows : Expression → Query → Truth) : Valuation where
  expression
    | .membership .isIn subject values => listed subject values
    | .membership .notIn subject values => (listed subject values).not
    | e => plain e
  inSelect
    | subject, query, .isIn => rows subject query
    | subject, query, .notIn => (rows subject query).not
  expression_flip {e flipped} h := by
    unfold Expression.flipMembership? at h
    split at h
    · next op subject values =>
      cases h
      cases op
      · rfl
      · dsimp only [Membership.negated]
        cases listed subject values <;> rfl
    · cases h
  inSelect_negated subject query op := by
    cases op
    · rfl
    · dsimp only [Membership.negated]
      cases rows subject query <;> rfl

namespace Criteria

mutual

/-- The truth value of a condition. -/
def truth (v : Valuation) : Criteria → Truth
  | expression e => v.expression e
  | compound op children => op.truth (truths v children)
  | inSelect subject query op => v.inSelect subject query op

/-- The truth values of conditions. -/
def truths (v : Valuation) : List Criteria → List Truth
  | [] => []
  | c :: cs => c.truth v :: truths v cs

end

mutual

/-- The single conditions of a condition, from left to right. -/
def leaves : Criteria → List Criteria
  | expression e => [expression e]
  | compound _ children => leavesOf children
  | inSelect subject query op => [inSelect subject query op]

/-- The single conditions of some conditions. -/
def leavesOf : List Criteria → List Criteria
  | [] => []
  | c :: cs => c.leaves ++ leavesOf cs

end

/-- The connective of a compound condition. -/
def connective? : Criteria → Option Connective
  | compound op _ => some op
  | expression _ | inSelect _ _ _ => none

/-- A membership test turned around. -/
def flip? : Criteria → Option Criteria
  | expression e => e.flipMembership?.map expression
  | inSelect subject query op => some (inSelect subject query op.negated)
  | compound _ _ => none

/-- Whether a condition is another one, or the same membership test turned around. -/
def Turned (c d : Criteria) : Prop := d = c ∨ c.flip? = some d

/-- Conditions in which no conjunction stands directly inside a conjunction, and no disjunction
inside a disjunction. -/
inductive IsFlat : Criteria → Prop
  | expression (e : Expression) : IsFlat (expression e)
  | inSelect (subject : Expression) (query : Query) (op : Membership) :
    IsFlat (inSelect subject query op)
  | compound {op : Connective} {children : List Criteria}
    (hop : op ≠ .not → ∀ c ∈ children, c.connective? ≠ some op)
    (hchildren : ∀ c ∈ children, c.IsFlat) : IsFlat (compound op children)

section Combine

variable {op : Connective} {a b c : Criteria} {v : Valuation}

theorem truths_append (v : Valuation) (cs ds : List Criteria) :
    truths v (cs ++ ds) = truths v cs ++ truths v ds := by
  induction cs with
  | nil => rfl
  | cons c cs ih => rw [List.cons_append, truths, truths, ih, List.cons_append]

theorem leavesOf_append (cs ds : List Criteria) :
    leavesOf (cs ++ ds) = leavesOf cs ++ leavesOf ds := by
  induction cs with
  | nil => rfl
  | cons c cs ih => rw [List.cons_append, leavesOf, leavesOf, ih, List.append_assoc]

/-- A condition gives itself to a chain if it is no chain of the same connective. -/
theorem links_of_connective (h : c.connective? ≠ some op) : c.links op = [c] := by
  cases c with
  | compound p children => exact if_neg fun hp => h (congrArg some hp)
  | expression _ | inSelect _ _ _ => rfl

/-- A chain gives its conditions to a chain of the same connective. -/
theorem links_of_connective_eq (h : c.connective? = some op) :
    c = compound op (c.links op) := by
  cases c with
  | compound p children =>
    cases h
    exact congrArg (compound op) (if_pos rfl).symm
  | expression _ | inSelect _ _ _ => cases h

/-- Chains do not depend on how they are put together. -/
theorem combine_assoc (op : Connective) (a b c : Criteria) :
    combine op (combine op a b) c = combine op a (combine op b c) := by
  have hlinks : ∀ x y, (combine op x y).links op = x.links op ++ y.links op := fun _ _ => if_pos rfl
  rw [combine, hlinks, List.append_assoc, ← hlinks b c, ← combine]

/-! ## Meaning -/

/-- What a condition gives to a chain has its truth value under the connective of the chain. -/
theorem truth_links {op : Connective} (hop : op ≠ .not) (v : Valuation) (c : Criteria) :
    op.truth (truths v (c.links op)) = c.truth v := by
  by_cases h : c.connective? = some op
  · rw [← truth, ← links_of_connective_eq h]
  · rw [links_of_connective h]
    cases op with
    | and => exact Truth.all_singleton _
    | or => exact Truth.any_singleton _
    | not => exact absurd rfl hop

theorem truth_and (v : Valuation) (a b : Criteria) :
    (a.and b).truth v = (a.truth v).and (b.truth v) := by
  have hand : Connective.and ≠ .not := by decide
  have ha := truth_links hand v a
  have hb := truth_links hand v b
  rw [← ha, ← hb]
  change Truth.all (truths v (a.links .and ++ b.links .and)) = _
  rw [truths_append]
  exact Truth.all_append _ _

theorem truth_or (v : Valuation) (a b : Criteria) :
    (a.or b).truth v = (a.truth v).or (b.truth v) := by
  have hor : Connective.or ≠ .not := by decide
  have ha := truth_links hor v a
  have hb := truth_links hor v b
  rw [← ha, ← hb]
  change Truth.any (truths v (a.links .or ++ b.links .or)) = _
  rw [truths_append]
  exact Truth.any_append _ _

/-- A negation is a test turned around, or a NOT. -/
theorem negation_eq (c : Criteria) : c.negation = c.flip?.getD (compound .not [c]) := by
  cases c with
  | expression e => cases h : e.flipMembership? <;> simp [negation, flip?, h]
  | inSelect _ _ _ | compound _ _ => rfl

theorem truth_flip? (h : a.flip? = some b) : b.truth v = (a.truth v).not := by
  cases a with
  | expression e =>
    obtain ⟨flipped, hflip, rfl⟩ := Option.map_eq_some_iff.mp h
    exact v.expression_flip hflip
  | inSelect subject query op =>
    cases h
    exact v.inSelect_negated subject query op
  | compound _ _ => cases h

theorem truth_negation (v : Valuation) (c : Criteria) :
    c.negation.truth v = (c.truth v).not := by
  rw [negation_eq]
  cases hflip : c.flip? with
  | some flipped => exact truth_flip? hflip
  | none => exact congrArg Truth.not (Truth.all_singleton _)

/-! ## Form -/

/-- What a flat condition gives to a chain is flat, and no chain of the same connective. -/
theorem IsFlat.of_mem_links (hop : op ≠ .not) (h : c.IsFlat) :
    ∀ d ∈ c.links op, d.IsFlat ∧ d.connective? ≠ some op := by
  intro d hd
  by_cases hc : c.connective? = some op
  · rw [links_of_connective_eq hc] at h
    cases h with
    | compound hconnective hchildren => exact ⟨hchildren d hd, hconnective hop d hd⟩
  · rw [links_of_connective hc, List.mem_singleton] at hd
    subst hd
    exact ⟨h, hc⟩

/-- Chains of flat conditions are flat. -/
theorem IsFlat.combine (hop : op ≠ .not) (ha : a.IsFlat) (hb : b.IsFlat) :
    (combine op a b).IsFlat := by
  have hlinks : ∀ d ∈ a.links op ++ b.links op, d.IsFlat ∧ d.connective? ≠ some op := by
    intro d hd
    rcases List.mem_append.mp hd with hd | hd
    · exact ha.of_mem_links hop d hd
    · exact hb.of_mem_links hop d hd
  exact .compound (fun _ d hd => (hlinks d hd).2) fun d hd => (hlinks d hd).1

/-- A membership test is turned around to a single condition, and back. -/
theorem flip?_eq_some (h : a.flip? = some b) :
    b.flip? = some a ∧ a.leaves = [a] ∧ b.leaves = [b] ∧ b.IsFlat := by
  cases a with
  | expression e =>
    obtain ⟨flipped, hflip, rfl⟩ := Option.map_eq_some_iff.mp h
    unfold Expression.flipMembership? at hflip
    split at hflip
    · cases hflip
      exact ⟨by simp [flip?, Expression.flipMembership?], rfl, rfl, .expression _⟩
    · cases hflip
  | inSelect subject query op =>
    cases h
    exact ⟨by simp [flip?], rfl, rfl, .inSelect _ _ _⟩
  | compound _ _ => cases h

theorem IsFlat.negation (h : c.IsFlat) : c.negation.IsFlat := by
  rw [negation_eq]
  cases hflip : c.flip? with
  | some flipped => exact (flip?_eq_some hflip).2.2.2
  | none =>
    refine .compound (fun hop => absurd rfl hop) fun d hd => ?_
    rwa [List.mem_singleton.mp hd]

theorem leavesOf_links (op : Connective) (c : Criteria) : leavesOf (c.links op) = c.leaves := by
  by_cases h : c.connective? = some op
  · rw [← leaves, ← links_of_connective_eq h]
  · rw [links_of_connective h]
    exact List.append_nil _

/-- A chain has the single conditions of both sides, in their order. -/
theorem leaves_combine (op : Connective) (a b : Criteria) :
    (combine op a b).leaves = a.leaves ++ b.leaves := by
  rw [combine, leaves, leavesOf_append, leavesOf_links, leavesOf_links]

theorem Turned.flip (h : Turned a b) (hflip : b.flip? = some c) : Turned a c := by
  rcases h with rfl | h
  · exact .inr hflip
  · -- The test was turned around before, so it is what it was.
    rw [(flip?_eq_some h).1] at hflip
    cases hflip
    exact .inl rfl

end Combine

end Criteria

/-- How a condition is put together from single ones. -/
inductive Combination
  | expression (e : Expression)
  | inSelect (subject : Expression) (query : Query) (op : Membership)
  | and (left right : Combination)
  | or (left right : Combination)
  | not (inner : Combination)

namespace Combination

/-- The condition that is put together. -/
def build : Combination → Criteria
  | expression e => .expression e
  | inSelect subject query op => .inSelect subject query op
  | and left right => left.build.and right.build
  | or left right => left.build.or right.build
  | not inner => inner.build.negation

/-- The single conditions, from left to right. -/
def leaves : Combination → List Criteria
  | expression e => [.expression e]
  | inSelect subject query op => [.inSelect subject query op]
  | and left right | or left right => left.leaves ++ right.leaves
  | not inner => inner.leaves

/-- No conjunction is put directly inside a conjunction, and no disjunction inside a disjunction. -/
theorem isFlat_build (t : Combination) : t.build.IsFlat := by
  induction t with
  | expression e => exact .expression e
  | inSelect subject query op => exact .inSelect subject query op
  | and left right ihl ihr => exact .combine (by decide) ihl ihr
  | or left right ihl ihr => exact .combine (by decide) ihl ihr
  | not inner ih => exact ih.negation

/-- The single conditions keep their order, and nothing but membership tests is turned around. -/
theorem turned_build (t : Combination) :
    List.Forall₂ Criteria.Turned t.leaves t.build.leaves := by
  induction t with
  | expression e => exact .cons (.inl rfl) .nil
  | inSelect subject query op => exact .cons (.inl rfl) .nil
  | and left right ihl ihr =>
    rw [build, Criteria.and, Criteria.leaves_combine]
    exact List.rel_append ihl ihr
  | or left right ihl ihr =>
    rw [build, Criteria.or, Criteria.leaves_combine]
    exact List.rel_append ihl ihr
  | not inner ih =>
    rw [build, Criteria.negation_eq, leaves]
    cases hflip : inner.build.flip? with
    | some flipped =>
      -- What is turned around is a membership test, so it is the only condition there.
      obtain ⟨-, hleaves, hflipped, -⟩ := Criteria.flip?_eq_some hflip
      rw [hleaves, List.forall₂_cons_right_iff] at ih
      obtain ⟨leaf, rest, hturned, hnil, hinner⟩ := ih
      obtain rfl := List.forall₂_nil_right_iff.mp hnil
      rw [hinner, Option.getD_some, hflipped]
      exact .cons (hturned.flip hflip) .nil
    | none =>
      have hsame : (Criteria.compound .not [inner.build]).leaves = inner.build.leaves :=
        List.append_nil _
      rwa [Option.getD_none, hsame]

end Combination

/-! ## Conditions of queries and changes -/

namespace Criteria

/-- Whether a condition that may be absent is the conjunction of some conditions in their order. -/
def Collects (conditions : List Criteria) : Option Criteria → Prop
  | none => conditions = []
  | some c => c.leaves = conditions.flatMap leaves ∧
      ∀ v : Valuation, c.truth v = .all (conditions.map (truth v))

theorem collects_toList (existing : Option Criteria) : Collects existing.toList existing := by
  cases existing with
  | none => rfl
  | some c => exact ⟨by simp, fun v => (Truth.all_singleton _).symm⟩

/-- One condition more. -/
theorem Collects.conjoin {conditions : List Criteria} {existing : Option Criteria}
    (h : Collects conditions existing) (c : Criteria) :
    Collects (conditions ++ [c]) (some (conjoin existing c)) := by
  cases existing with
  | none =>
    cases h
    exact collects_toList (some c)
  | some e =>
    obtain ⟨hleaves, htruth⟩ := h
    refine ⟨?_, fun v => ?_⟩
    · have hboth : (e.and c).leaves = e.leaves ++ c.leaves := leaves_combine .and e c
      simp [Criteria.conjoin, hboth, hleaves]
    · rw [List.map_append, Truth.all_append, ← htruth, List.map_singleton, Truth.all_singleton]
      exact truth_and v e c

/-- Conditions that are added one by one are collected in the order of the calls. -/
theorem Collects.foldl {α : Type} {add : α → Criteria → α} (get : α → Option Criteria)
    (hadd : ∀ x c, get (add x c) = some (Criteria.conjoin (get x) c)) {first : List Criteria}
    {x : α} (h : Collects first (get x)) (conditions : List Criteria) :
    Collects (first ++ conditions) (get (conditions.foldl add x)) := by
  induction conditions generalizing first x with
  | nil => rwa [List.append_nil]
  | cons c conditions ih =>
    have hnext : Collects (first ++ [c]) (get (add x c)) := by
      rw [hadd]
      exact h.conjoin c
    rw [List.append_cons]
    exact ih hnext

/-- Combinations of conditions keep their meaning. Conjunction and disjunction are associative on
the trees of all conditions. What is put together from single conditions has no chain inside a chain
of the same connective, and the single conditions in their order, of which only membership tests are
turned around. In every three-valued valuation combinations are worth what the connectives make of
their sides. The conditions that queries and changes collect are the conjunction of all of them in
the order of the calls. -/
theorem combinations_keep_meaning :
    (∀ a b c : Criteria, (a.and b).and c = a.and (b.and c) ∧ (a.or b).or c = a.or (b.or c)) ∧
    (∀ t : Combination, t.build.IsFlat ∧ List.Forall₂ Turned t.leaves t.build.leaves) ∧
    (∀ (v : Valuation) (a b : Criteria),
      (a.and b).truth v = (a.truth v).and (b.truth v) ∧
      (a.or b).truth v = (a.truth v).or (b.truth v) ∧
      a.negation.truth v = (a.truth v).not) ∧
    (∀ (q : Query) (conditions : List Criteria),
      Collects (q.criteria.toList ++ conditions) (conditions.foldl Query.filter q).criteria ∧
      Collects (q.having.toList ++ conditions) (conditions.foldl Query.withHaving q).having) ∧
    (∀ (change : Change) (conditions : List Criteria),
      Collects (change.criteria.toList ++ conditions)
        (conditions.foldl Change.filter change).criteria) := by
  refine ⟨fun a b c => ⟨combine_assoc .and a b c, combine_assoc .or a b c⟩,
    fun t => ⟨t.isFlat_build, t.turned_build⟩,
    fun v a b => ⟨truth_and v a b, truth_or v a b, truth_negation v a⟩,
    fun q conditions => ⟨?_, ?_⟩, fun change conditions => ?_⟩
  · exact (collects_toList q.criteria).foldl Query.criteria (fun _ _ => rfl) conditions
  · exact (collects_toList q.having).foldl Query.having (fun _ _ => rfl) conditions
  · exact (collects_toList change.criteria).foldl Change.criteria (fun _ _ => rfl) conditions

-- Absence from a list is not known where membership is not.
example : ((expression (.membership .isIn .null [.int 1])).negation.and
      (.expression (.constant (.bool true)))).truth
    (.ofTests (fun _ => .true) (fun _ _ => .unknown) fun _ _ => .false) = .unknown := rfl

end Criteria

end DialectSql
