import DialectSql.Proofs.Ingredient.Passes
import DialectSql.Proofs.Session.Tree

/-!
# Sessions

Applications put statements together by calls: they make nodes with and without checks, take nodes
apart, combine conditions, read documents, move references to other sources and bubble orders, where
a call that fails can leave a changed node behind. A session is any sequence of such calls, each of
them on nodes that earlier calls returned. No session returns a node against the rules of
statements, and no document that was written for such a node can be read.

## Main definitions

* `Call` — one call on known nodes, and a node that it returns or leaves behind
* `Session` — the nodes of a sequence of calls

## Main results

* `Call.wellFormed` — calls on nodes within the rules return nodes within the rules
* `Session.keepsRules` — no session leaves the rules, and documents against the rules are refused
-/

namespace DialectSql

/-! ## Calls -/

/-- A node with its references requalified, where nodes of its kind have references. -/
def Tree.requalify (r : Requalification) : Tree → Tree
  | .field f => .field (f.requalify r)
  | .expression e => .expression (e.requalify r)
  | .order o => .order (o.requalify r)
  | .projection p => .projection (p.requalify r)
  | .aggregation a => .aggregation (a.requalify r)
  | .criteria c => .criteria (c.requalify r)
  | .source s => .source (s.requalify r)
  | .query q => .query (q.requalify r)
  | t => t

/-- What calls on known nodes return or leave behind. -/
inductive Call (known : Tree → Prop) : Tree → Prop
  /-- A part of a node. -/
  | part {t p : Tree} (ht : known t) (hp : p ∈ t.parts) : Call known p
  /-- A node from its parts, unless nodes of this form are checked. -/
  | compose {t : Tree} (ht : ¬t.IsChecked) (hparts : ∀ p ∈ t.parts, known p) : Call known t
  /-- The node of a document. -/
  | read {kind : Tree.Kind} {j : Json} {t : Tree} (h : kind.decode j = .ok t) : Call known t
  | unqualified {name : String} {f : Field} (h : Field.unqualified name = .ok f) :
    Call known (.field f)
  | qualified {source name : String} {f : Field} (h : Field.qualified source name = .ok f) :
    Call known (.field f)
  | withSource {f : Field} (source : Option String) (hf : known (.field f)) :
    Call known (.field (f.withSource source))
  | binary {kind : ExpressionKind} {left right e : Expression} (hl : known (.expression left))
    (hr : known (.expression right)) (h : Expression.binary kind left right = .ok e) :
    Call known (.expression e)
  | unaryOf {kind : ExpressionKind} {operand e : Expression} (ho : known (.expression operand))
    (h : Expression.unaryOf kind operand = .ok e) : Call known (.expression e)
  | negation {e : Expression} (he : known (.expression e)) : Call known (.expression e.negation)
  | flipped {e e' : Expression} (he : known (.expression e)) (h : e.flipMembership? = some e') :
    Call known (.expression e')
  | matching {subject pattern : Expression} (hs : known (.expression subject))
    (hp : known (.expression pattern)) : Call known (.expression (subject.matching pattern))
  | parsed {text : String} {o : Order} (h : Order.parse text = .ok o) : Call known (.order o)
  | and {a b : Criteria} (ha : known (.criteria a)) (hb : known (.criteria b)) :
    Call known (.criteria (a.and b))
  | or {a b : Criteria} (ha : known (.criteria a)) (hb : known (.criteria b)) :
    Call known (.criteria (a.or b))
  | not {c : Criteria} (hc : known (.criteria c)) : Call known (.criteria c.negation)
  | ofChildren {op : Connective} {children : List Criteria} {c : Criteria}
    (hchildren : ∀ a ∈ children, known (.criteria a))
    (h : Criteria.ofChildren op children = .ok c) : Call known (.criteria c)
  | ofOperands {op : Connective} {left right : Option Criteria} {c : Criteria}
    (hl : ∀ a ∈ left, known (.criteria a)) (hr : ∀ a ∈ right, known (.criteria a))
    (h : Criteria.ofOperands op left right = .ok c) : Call known (.criteria c)
  | inRowsOf {subject : Expression} {q : Query} {op : Membership} {c : Criteria}
    (hs : known (.expression subject)) (hq : known (.query q))
    (h : Criteria.inRowsOf subject q op = .ok c) : Call known (.criteria c)
  | withAlias {r : Relation} (alias? : Option String) (hr : known (.relation r)) :
    Call known (.relation (r.withAlias alias?))
  | resetAliasAt {s : Source} (index : Nat) (hs : known (.source s)) :
    Call known (.source (s.modifyAt Relation.resetAlias index))
  | prefixAliasAt {s : Source} (text : String) (index : Nat) (hs : known (.source s)) :
    Call known (.source (s.modifyAt (Relation.prefixAlias text) index))
  | select {q : Query} {items : List Projection} (hq : known (.query q))
    (hitems : ∀ p ∈ items, known (.projection p)) : Call known (.query (q.select items))
  | withDistinct {q : Query} (hq : known (.query q)) : Call known (.query q.withDistinct)
  | withSkip {q : Query} (count : UInt64) (hq : known (.query q)) :
    Call known (.query (q.withSkip count))
  | withTake {q : Query} (count : UInt64) (hq : known (.query q)) :
    Call known (.query (q.withTake count))
  | filter {q : Query} {c : Criteria} (hq : known (.query q)) (hc : known (.criteria c)) :
    Call known (.query (q.filter c))
  | withHaving {q : Query} {c : Criteria} (hq : known (.query q)) (hc : known (.criteria c)) :
    Call known (.query (q.withHaving c))
  | project {q : Query} {e : Expression} (alias? : Option String) (hq : known (.query q))
    (he : known (.expression e)) : Call known (.query (q.project e alias?))
  | orderBy {q : Query} {o : Order} (hq : known (.query q)) (ho : known (.order o)) :
    Call known (.query (q.orderBy o))
  | aggregate {q : Query} {a : Aggregation} (hq : known (.query q)) (ha : known (.aggregation a)) :
    Call known (.query (q.aggregate a))
  | grouped {q : Query} {e : Expression} (hq : known (.query q)) (he : known (.expression e)) :
    Call known (.query (q.grouped e))
  | orderSetBy {s : QuerySet} {o : Order} (hs : known (.set s)) (ho : known (.order o)) :
    Call known (.set (s.orderBy o))
  | assignmentTo {column : String} {v : AssignedValue} {a : Assignment} (hv : known (.assigned v))
    (h : Assignment.make column v = .ok a) : Call known (.assignment a)
  | filterChange {c : Change} {a : Criteria} (hc : known (.change c)) (ha : known (.criteria a)) :
    Call known (.change (c.filter a))
  | assign {c : Change} {a : Assignment} (hc : known (.change c)) (ha : known (.assignment a)) :
    Call known (.change (c.assign a))
  /-- References moved onto a source, or onto none. -/
  | relocated {t : Tree} (target : Option String) (ht : known t) :
    Call known (t.requalify (.onto target))
  /-- A text in front of every qualifier and alias. -/
  | prefixed {t : Tree} (text : String) (ht : known t) :
    Call known (t.requalify (.prefixing text))
  /-- What bubbling leaves of a relation, whether or not it succeeds. -/
  | bubbledRelation {r : Relation} {orders : List Order} (hr : known (.relation r))
    (ho : ∀ o ∈ orders, known (.order o)) : Call known (.relation (r.bubbleOrder orders).node)
  | bubbledRelationOrder {r : Relation} {orders : List Order} {o : Order}
    (hr : known (.relation r)) (ho : ∀ o ∈ orders, known (.order o))
    (h : o ∈ (r.bubbleOrder orders).orders) : Call known (.order o)
  /-- What bubbling leaves of a source, whether or not it succeeds. -/
  | bubbledSource {s : Source} {orders : List Order} (hs : known (.source s))
    (ho : ∀ o ∈ orders, known (.order o)) : Call known (.source (s.bubbleOrder orders).node)
  | bubbledSourceOrder {s : Source} {orders : List Order} {o : Order} (hs : known (.source s))
    (ho : ∀ o ∈ orders, known (.order o)) (h : o ∈ (s.bubbleOrder orders).orders) :
    Call known (.order o)
  /-- What bubbling leaves of a query, whether or not it succeeds. -/
  | bubbledQuery {q : Query} (hq : known (.query q)) : Call known (.query q.bubbleSourceOrder.node)

/-- The nodes of a sequence of calls, the last one first. -/
inductive Session : List Tree → Prop
  | start : Session []
  | call {trees : List Tree} {t : Tree} (before : Session trees) (h : Call (· ∈ trees) t) :
    Session (t :: trees)

/-! ## The checked calls -/

/-- A checked name makes a reference within the rules. -/
theorem Field.wellFormed_unqualified {name : String} {f : Field} (h : unqualified name = .ok f) :
    ∀ i ∈ f.ingredients, i.WellFormed := by
  unfold unqualified at h
  split at h
  · next hname =>
    cases h
    simpa [ingredients] using Ingredient.wellFormed_column_iff.mpr hname
  · cases h

theorem Field.wellFormed_qualified {source name : String} {f : Field}
    (h : qualified source name = .ok f) : ∀ i ∈ f.ingredients, i.WellFormed :=
  forall_ingredients_qualified (fun _ => Ingredient.wellFormed_column_iff.mpr) h

/-- An order that is read from a short text is one by a checked column. -/
theorem Order.wellFormed_parse {text : String} {o : Order} (h : parse text = .ok o) :
    ∀ i ∈ o.ingredients, i.WellFormed := by
  simp only [parse, bind, Except.bind] at h
  split at h
  · next source name _ =>
    cases hfield : Field.qualified (String.ofList source) (String.ofList name) with
    | error e => rw [hfield] at h; cases h
    | ok f => rw [hfield] at h; cases h; exact Field.wellFormed_qualified hfield
  · split at h
    · cases h
    · next f hfield => cases h; exact Field.wellFormed_unqualified hfield

namespace Expression

theorem ingredients_flipMembership? {e e' : Expression} (h : e.flipMembership? = some e') :
    e'.ingredients = e.ingredients := by
  cases e with
  | membership op subject values =>
    obtain rfl := Option.some.inj h
    rfl
  | _ => cases h

theorem ingredients_negation (e : Expression) : e.negation.ingredients = e.ingredients := by
  unfold negation
  cases h : e.flipMembership? with
  | none => rfl
  | some e' => exact ingredients_flipMembership? h

theorem ingredients_binary {kind : ExpressionKind} {left right e : Expression}
    (h : binary kind left right = .ok e) :
    e.ingredients = left.ingredients ++ right.ingredients := by
  unfold binary at h
  cases kind <;> cases h <;> rfl

theorem ingredients_unaryOf {kind : ExpressionKind} {operand e : Expression}
    (h : unaryOf kind operand = .ok e) : e.ingredients = operand.ingredients := by
  cases kind <;> cases h
  case not => exact operand.ingredients_negation
  all_goals rfl

/-- A match against a pattern may split the pattern, but adds nothing but constants. -/
theorem wellFormed_matching {subject pattern : Expression}
    (hs : ∀ i ∈ subject.ingredients, i.WellFormed) (hp : ∀ i ∈ pattern.ingredients, i.WellFormed) :
    ∀ i ∈ (subject.matching pattern).ingredients, i.WellFormed := by
  unfold matching
  split
  · rw [ingredients, List.forall_mem_append]
    exact ⟨hs, by simp [ingredients, Ingredient.WellFormed]⟩
  · rw [ingredients, List.forall_mem_append]
    exact ⟨hs, hp⟩

end Expression

namespace Criteria

/-- What a condition contributes to a chain is not nothing, since no compound is without
children. -/
theorem wellFormed_links (op : Connective) {c : Criteria}
    (hc : ∀ i ∈ c.ingredients, i.WellFormed) :
    1 ≤ (c.links op).length ∧ ∀ a ∈ c.links op, ∀ i ∈ a.ingredients, i.WellFormed := by
  unfold links
  split
  · next p children =>
    have hcount := hc (.compound p children.length) (by simp [ingredients])
    split
    · rw [ingredients, List.forall_mem_cons, forall_ingredientsList] at hc
      refine ⟨?_, hc.2⟩
      cases p <;> simp only [Ingredient.WellFormed] at hcount <;> omega
    · exact ⟨le_rfl, by simpa using hc⟩
  · exact ⟨le_rfl, by simpa using hc⟩

/-- Two conditions in one chain are two links or more. -/
theorem wellFormed_combine {op : Connective} (hop : op ≠ .not) {a b : Criteria}
    (ha : ∀ i ∈ a.ingredients, i.WellFormed) (hb : ∀ i ∈ b.ingredients, i.WellFormed) :
    ∀ i ∈ (combine op a b).ingredients, i.WellFormed := by
  obtain ⟨hcountA, hlinksA⟩ := wellFormed_links op ha
  obtain ⟨hcountB, hlinksB⟩ := wellFormed_links op hb
  rw [combine, ingredients, List.forall_mem_cons, forall_ingredientsList, List.forall_mem_append]
  refine ⟨?_, hlinksA, hlinksB⟩
  rw [Ingredient.wellFormed_compound_iff, Connective.allows_of_ne_not hop, List.length_append]
  omega

theorem wellFormed_and {a b : Criteria} (ha : ∀ i ∈ a.ingredients, i.WellFormed)
    (hb : ∀ i ∈ b.ingredients, i.WellFormed) : ∀ i ∈ (a.and b).ingredients, i.WellFormed :=
  have hop : Connective.and ≠ .not := nofun
  wellFormed_combine hop ha hb

theorem wellFormed_or {a b : Criteria} (ha : ∀ i ∈ a.ingredients, i.WellFormed)
    (hb : ∀ i ∈ b.ingredients, i.WellFormed) : ∀ i ∈ (a.or b).ingredients, i.WellFormed :=
  have hop : Connective.or ≠ .not := nofun
  wellFormed_combine hop ha hb

/-- What is negated stands alone under NOT, unless a membership test is turned around. -/
theorem wellFormed_negation {c : Criteria} (hc : ∀ i ∈ c.ingredients, i.WellFormed) :
    ∀ i ∈ c.negation.ingredients, i.WellFormed := by
  have hnot : ∀ i ∈ (compound .not [c]).ingredients, i.WellFormed := by
    rw [ingredients, List.forall_mem_cons, forall_ingredientsList, List.forall_mem_singleton]
    exact ⟨rfl, hc⟩
  cases c with
  | expression e =>
    rw [negation]
    split
    · next flipped h =>
      rw [ingredients, Expression.ingredients_flipMembership? h]
      exact hc
    · exact hnot
  | inSelect subject query op => exact hc
  | compound op children => exact hnot

/-- Children whose number is checked make a condition within the rules. -/
theorem wellFormed_ofChildren {op : Connective} {children : List Criteria} {c : Criteria}
    (hchildren : ∀ a ∈ children, ∀ i ∈ a.ingredients, i.WellFormed)
    (h : ofChildren op children = .ok c) : ∀ i ∈ c.ingredients, i.WellFormed := by
  unfold ofChildren at h
  split at h
  · next hallows =>
    cases h
    rw [ingredients, List.forall_mem_cons, forall_ingredientsList]
    exact ⟨Ingredient.wellFormed_compound_iff.mpr hallows, hchildren⟩
  · cases h

theorem wellFormed_ofOperands {op : Connective} {left right : Option Criteria} {c : Criteria}
    (hl : ∀ a ∈ left, ∀ i ∈ a.ingredients, i.WellFormed)
    (hr : ∀ a ∈ right, ∀ i ∈ a.ingredients, i.WellFormed)
    (h : ofOperands op left right = .ok c) : ∀ i ∈ c.ingredients, i.WellFormed := by
  have hboth : ∀ a ∈ left.toList ++ right.toList, ∀ i ∈ a.ingredients, i.WellFormed := by
    rw [List.forall_mem_append]
    simpa using ⟨hl, hr⟩
  unfold ofOperands at h
  split at h
  · cases h
  · exact wellFormed_ofChildren hboth h

theorem wellFormed_inRowsOf {subject : Expression} {q : Query} {op : Membership} {c : Criteria}
    (hs : ∀ i ∈ subject.ingredients, i.WellFormed) (hq : ∀ i ∈ q.ingredients, i.WellFormed)
    (h : inRowsOf subject q op = .ok c) : ∀ i ∈ c.ingredients, i.WellFormed := by
  unfold inRowsOf at h
  split at h
  · cases h
  · cases h
    rw [ingredients, List.forall_mem_append]
    exact ⟨hs, hq⟩

/-- A condition added to one that may be there already. -/
theorem wellFormed_conjoin {existing : Option Criteria} {c : Criteria}
    (hexisting : ∀ a ∈ existing, ∀ i ∈ a.ingredients, i.WellFormed)
    (hc : ∀ i ∈ c.ingredients, i.WellFormed) :
    ∀ i ∈ (conjoin existing c).ingredients, i.WellFormed := by
  cases existing with
  | none => exact hc
  | some e => exact wellFormed_and (hexisting e rfl) hc

end Criteria

/-! ## Sources, queries and changes -/

section Rules

variable {W : Ingredient → Prop}

/-- A change of one relation that keeps its ingredients keeps those of the source. -/
theorem Source.ingredients_modifyAt {g : Relation → Relation}
    (hg : ∀ r, (g r).ingredients = r.ingredients) :
    ∀ (s : Source) (index : Nat), (s.modifyAt g index).ingredients = s.ingredients
  | .single r, index => by
    rw [modifyAt]
    split
    · exact hg r
    · rfl
  | .joined kind left right on, index => by
    simp only [modifyAt]
    split <;> simp only [ingredients, ingredients_modifyAt hg left, ingredients_modifyAt hg right]

/-- An assignment takes the place of another one or stands at the end. -/
theorem Change.forall_mem_assignIn {P : Assignment → Prop} {a : Assignment} (ha : P a) :
    ∀ {as : List Assignment}, (∀ b ∈ as, P b) → ∀ b ∈ assignIn a as, P b
  | [], _ => by simpa [assignIn] using ha
  | b :: bs, h => by
    rw [List.forall_mem_cons] at h
    rw [assignIn]
    split
    · exact List.forall_mem_cons.mpr ⟨ha, h.2⟩
    · exact List.forall_mem_cons.mpr ⟨h.1, forall_mem_assignIn ha h.2⟩

end Rules

/-- An assignment to a checked column. -/
theorem Assignment.wellFormed_make {column : String} {v : AssignedValue} {a : Assignment}
    (hv : ∀ i ∈ v.ingredients, i.WellFormed) (h : make column v = .ok a) :
    ∀ i ∈ a.ingredients, i.WellFormed := by
  unfold make at h
  cases hf : Field.unqualified column with
  | error e => rw [hf] at h; cases h
  | ok f =>
    rw [hf] at h
    cases h
    exact List.forall_mem_append.mpr ⟨Field.wellFormed_unqualified hf, hv⟩

/-! ## Steps and runs -/

/-- The ingredients of a node are those of the requalified node. -/
theorem Tree.ingredients_requalify {r : Requalification}
    (hr : ∀ a, (r.relation a).ingredients = a.ingredients) (t : Tree) :
    (t.requalify r).ingredients = t.ingredients := by
  cases t with
  | field f => rfl
  | expression e => exact e.ingredients_requalify r
  | order o => exact o.ingredients_requalify r
  | projection p => exact p.ingredients_requalify r
  | aggregation a => exact a.ingredients_requalify r
  | criteria c => exact c.ingredients_requalify r
  | source s => exact s.ingredients_requalify r hr
  | query q => exact q.ingredients_requalify r hr
  | _ => rfl

namespace Tree.WellFormed

/-- The parts of a node within the rules are within the rules. -/
theorem of_mem_parts {t p : Tree} (ht : t.WellFormed) (hp : p ∈ t.parts) : p.WellFormed := by
  cases t with
  | field f => cases hp
  | criteria c =>
    cases c with
    | compound op children =>
      obtain ⟨c, hc, rfl⟩ := List.mem_map.mp hp
      exact Criteria.forall_ingredientsList.mp (List.forall_mem_cons.mp ht).2 c hc
    | expression _ | inSelect _ _ _ =>
      exact (forall_parts Ingredient.wellFormed_constant id).mp ht p hp
  | _ => exact (forall_parts Ingredient.wellFormed_constant id).mp ht p hp

section Query

variable {q : Query} (hq : (query q).WellFormed)
include hq

theorem select {items : List Projection} (hitems : ∀ p ∈ items, (projection p).WellFormed) :
    (query (q.select items)).WellFormed := by
  obtain ⟨hsource, hcriteria, -, hrest⟩ := Query.forall_ingredients.mp hq
  exact Query.forall_ingredients.mpr ⟨hsource, hcriteria, hitems, hrest⟩

theorem paged (distinct : Bool) (skip take : Option UInt64) :
    (query { q with distinct, skip, take }).WellFormed :=
  Query.forall_ingredients.mpr (Query.forall_ingredients (q := q).mp hq)

theorem filter {c : Criteria} (hc : (criteria c).WellFormed) :
    (query (q.filter c)).WellFormed := by
  obtain ⟨hsource, hcriteria, hrest⟩ := Query.forall_ingredients.mp hq
  have hboth := Criteria.wellFormed_conjoin hcriteria hc
  exact Query.forall_ingredients.mpr ⟨hsource, by simpa [Query.filter] using hboth, hrest⟩

theorem withHaving {c : Criteria} (hc : (criteria c).WellFormed) :
    (query (q.withHaving c)).WellFormed := by
  obtain ⟨hsource, hcriteria, hselection, hkeys, haggregation, hgroupBy, hhaving⟩ :=
    Query.forall_ingredients.mp hq
  have hboth := Criteria.wellFormed_conjoin hhaving hc
  exact Query.forall_ingredients.mpr ⟨hsource, hcriteria, hselection, hkeys, haggregation, hgroupBy,
    by simpa [Query.withHaving] using hboth⟩

theorem project {e : Expression} (alias? : Option String) (he : (expression e).WellFormed) :
    (query (q.project e alias?)).WellFormed := by
  obtain ⟨hsource, hcriteria, hselection, hrest⟩ := Query.forall_ingredients.mp hq
  have hitem : ∀ p ∈ [(⟨e, alias?⟩ : Projection)], ∀ i ∈ p.ingredients, i.WellFormed :=
    List.forall_mem_singleton.mpr he
  have hall := List.forall_mem_append.mpr ⟨hselection, hitem⟩
  exact Query.forall_ingredients.mpr ⟨hsource, hcriteria, hall, hrest⟩

theorem orderBy {o : Order} (ho : (order o).WellFormed) : (query (q.orderBy o)).WellFormed := by
  obtain ⟨hsource, hcriteria, hselection, hkeys, hrest⟩ := Query.forall_ingredients.mp hq
  have hall := List.forall_mem_append.mpr ⟨hkeys, List.forall_mem_singleton.mpr ho⟩
  exact Query.forall_ingredients.mpr ⟨hsource, hcriteria, hselection, hall, hrest⟩

theorem aggregate {a : Aggregation} (ha : (aggregation a).WellFormed) :
    (query (q.aggregate a)).WellFormed := by
  obtain ⟨hsource, hcriteria, hselection, hkeys, -, hrest⟩ := Query.forall_ingredients.mp hq
  have hone : ∀ b ∈ some a, ∀ i ∈ b.ingredients, i.WellFormed := by
    rintro b ⟨⟩
    exact ha
  exact Query.forall_ingredients.mpr ⟨hsource, hcriteria, hselection, hkeys, hone, hrest⟩

theorem grouped {e : Expression} (he : (expression e).WellFormed) :
    (query (q.grouped e)).WellFormed := by
  obtain ⟨hsource, hcriteria, hselection, hkeys, haggregation, hgroupBy, hhaving⟩ :=
    Query.forall_ingredients.mp hq
  have hall := List.forall_mem_append.mpr ⟨hgroupBy, List.forall_mem_singleton.mpr he⟩
  exact Query.forall_ingredients.mpr
    ⟨hsource, hcriteria, hselection, hkeys, haggregation, hall, hhaving⟩

end Query

theorem orderSetBy {s : QuerySet} {o : Order} (hs : (set s).WellFormed)
    (ho : (order o).WellFormed) : (set (s.orderBy o)).WellFormed := by
  obtain ⟨hleft, hright, hkeys⟩ := QuerySet.forall_ingredients.mp hs
  have hall := List.forall_mem_append.mpr ⟨hkeys, List.forall_mem_singleton.mpr ho⟩
  exact QuerySet.forall_ingredients.mpr ⟨hleft, hright, hall⟩

section Change

variable {c : Change} (hc : (change c).WellFormed)
include hc

theorem filterChange {a : Criteria} (ha : (criteria a).WellFormed) :
    (change (c.filter a)).WellFormed := by
  obtain ⟨hsource, hcriteria, hassignments⟩ := Change.forall_ingredients.mp hc
  have hboth := Criteria.wellFormed_conjoin hcriteria ha
  exact Change.forall_ingredients.mpr ⟨hsource, by simpa [Change.filter] using hboth, hassignments⟩

theorem assign {a : Assignment} (ha : (assignment a).WellFormed) :
    (change (c.assign a)).WellFormed := by
  obtain ⟨hsource, hcriteria, hassignments⟩ := Change.forall_ingredients.mp hc
  exact Change.forall_ingredients.mpr
    ⟨hsource, hcriteria, Change.forall_mem_assignIn ha hassignments⟩

end Change

end Tree.WellFormed

/-- Calls on nodes within the rules return nodes within the rules, and leave nothing else behind. -/
theorem Call.wellFormed {known : Tree → Prop} (hknown : ∀ t, known t → t.WellFormed) {t : Tree}
    (h : Call known t) : t.WellFormed := by
  have hcolumn : ∀ name, Field.IsColumnName name → (Ingredient.column name).WellFormed :=
    fun _ => Ingredient.wellFormed_column_iff.mpr
  have horders {orders : List Order} (ho : ∀ o ∈ orders, known (.order o)) :
      ∀ i ∈ orders.flatMap Order.ingredients, i.WellFormed :=
    List.forall_mem_flatMap.mpr fun o hmem => hknown _ (ho o hmem)
  have horder {orders : List Order} {o : Order} (ho : o ∈ orders)
      (hall : ∀ i ∈ orders.flatMap Order.ingredients, i.WellFormed) :
      ∀ i ∈ o.ingredients, i.WellFormed :=
    List.forall_mem_flatMap.mp hall o ho
  -- Each call puts its node together from nodes within the rules, and checks what else it brings.
  cases h with
  | part ht hp => exact (hknown _ ht).of_mem_parts hp
  | compose ht hparts =>
    exact (Tree.forall_parts Ingredient.wellFormed_constant ht).mpr fun p hp =>
      hknown p (hparts p hp)
  | read h => exact fun i hi => (Tree.Kind.ensures_decode _ _ _ h i hi).wellFormed
  | unqualified h => exact Field.wellFormed_unqualified h
  | qualified h => exact Field.wellFormed_qualified h
  | @withSource f source hf => exact hknown (.field f) hf
  | binary hl hr h =>
    rw [Tree.WellFormed, Tree.ingredients, Expression.ingredients_binary h, List.forall_mem_append]
    exact ⟨hknown _ hl, hknown _ hr⟩
  | unaryOf ho h =>
    rw [Tree.WellFormed, Tree.ingredients, Expression.ingredients_unaryOf h]
    exact hknown _ ho
  | negation he =>
    rw [Tree.WellFormed, Tree.ingredients, Expression.ingredients_negation]
    exact hknown _ he
  | flipped he h =>
    rw [Tree.WellFormed, Tree.ingredients, Expression.ingredients_flipMembership? h]
    exact hknown _ he
  | matching hs hp => exact Expression.wellFormed_matching (hknown _ hs) (hknown _ hp)
  | parsed h => exact Order.wellFormed_parse h
  | and ha hb => exact Criteria.wellFormed_and (hknown _ ha) (hknown _ hb)
  | or ha hb => exact Criteria.wellFormed_or (hknown _ ha) (hknown _ hb)
  | not hc => exact Criteria.wellFormed_negation (hknown _ hc)
  | ofChildren hchildren h =>
    exact Criteria.wellFormed_ofChildren (fun a ha => hknown _ (hchildren a ha)) h
  | ofOperands hl hr h =>
    exact Criteria.wellFormed_ofOperands (fun a ha => hknown _ (hl a ha))
      (fun a ha => hknown _ (hr a ha)) h
  | inRowsOf hs hq h => exact Criteria.wellFormed_inRowsOf (hknown _ hs) (hknown _ hq) h
  | withAlias alias? hr =>
    rw [Tree.WellFormed, Tree.ingredients, Relation.ingredients_withAlias]
    exact hknown _ hr
  | resetAliasAt index hs =>
    rw [Tree.WellFormed, Tree.ingredients,
      Source.ingredients_modifyAt Relation.ingredients_resetAlias]
    exact hknown _ hs
  | prefixAliasAt text index hs =>
    rw [Tree.WellFormed, Tree.ingredients,
      Source.ingredients_modifyAt (Relation.ingredients_prefixAlias text)]
    exact hknown _ hs
  | select hq hitems => exact (hknown _ hq).select fun p hp => hknown _ (hitems p hp)
  | withDistinct hq => exact (hknown _ hq).paged _ _ _
  | withSkip count hq => exact (hknown _ hq).paged _ _ _
  | withTake count hq => exact (hknown _ hq).paged _ _ _
  | filter hq hc => exact (hknown _ hq).filter (hknown _ hc)
  | withHaving hq hc => exact (hknown _ hq).withHaving (hknown _ hc)
  | project alias? hq he => exact (hknown _ hq).project alias? (hknown _ he)
  | orderBy hq ho => exact (hknown _ hq).orderBy (hknown _ ho)
  | aggregate hq ha => exact (hknown _ hq).aggregate (hknown _ ha)
  | grouped hq he => exact (hknown _ hq).grouped (hknown _ he)
  | orderSetBy hs ho => exact (hknown _ hs).orderSetBy (hknown _ ho)
  | assignmentTo hv h => exact Assignment.wellFormed_make (hknown _ hv) h
  | filterChange hc ha => exact (hknown _ hc).filterChange (hknown _ ha)
  | assign hc ha => exact (hknown _ hc).assign (hknown _ ha)
  | relocated target ht =>
    rw [Tree.WellFormed, Tree.ingredients_requalify fun _ => rfl]
    exact hknown _ ht
  | prefixed text ht =>
    rw [Tree.WellFormed, Tree.ingredients_requalify (Relation.ingredients_prefixAlias text)]
    exact hknown _ ht
  | bubbledRelation hr ho =>
    exact (Source.forall_ingredients_bubbleOrder hcolumn (.single _) _ (hknown _ hr)
      (horders ho)).1
  | bubbledRelationOrder hr ho h =>
    exact horder h
      (Source.forall_ingredients_bubbleOrder hcolumn (.single _) _ (hknown _ hr) (horders ho)).2
  | bubbledSource hs ho =>
    exact (Source.forall_ingredients_bubbleOrder hcolumn _ _ (hknown _ hs) (horders ho)).1
  | bubbledSourceOrder hs ho h =>
    exact horder h
      (Source.forall_ingredients_bubbleOrder hcolumn _ _ (hknown _ hs) (horders ho)).2
  | bubbledQuery hq =>
    exact (Query.forall_ingredients_bubbleSourceOrder hcolumn _ (hknown _ hq)).1

/-- Every node of a session is within the rules. -/
theorem Session.forall_wellFormed {trees : List Tree} (h : Session trees) :
    ∀ t ∈ trees, t.WellFormed := by
  induction h with
  | start => simp
  | call _ hcall ih => exact List.forall_mem_cons.mpr ⟨hcall.wellFormed ih, ih⟩

/-- Whatever a sequence of calls returns or leaves behind is within the rules: columns have names
without `*`, NOT has one child, and AND and OR have two or more. What a document of any kind is read
as is within them too, and the document of a node that is not is refused. -/
theorem Session.keepsRules :
    (∀ trees, Session trees → ∀ t ∈ trees, t.WellFormed) ∧
      (∀ (k : Tree.Kind) (j : Json) (t : Tree), k.decode j = .ok t → t.WellFormed) ∧
      ∀ t : Tree, ¬t.WellFormed → ∃ e, t.kind.decode t.encode = .error e := by
  refine ⟨fun trees h => h.forall_wellFormed, fun k j t h i hi => ?_, fun t ht => ?_⟩
  · exact (k.ensures_decode j t h i hi).wellFormed
  · exact t.recovers_decode.error fun hstorable => ht fun i hi => (hstorable i hi).wellFormed

/-- A query over an ordered subquery. -/
def Query.overOrdered : Query :=
  ofSource (.ofQuery ((ofTable "users").orderBy ⟨.field ⟨"age", none⟩ none, .desc⟩) "u")

/-- The condition that a column is set. -/
def Criteria.activeCheck : Criteria := .expression (.field ⟨"active", some "u"⟩ none)

/-- A query and a condition are read; the query is filtered by what is not the condition, its orders
are bubbled up, and what is left is prefixed. -/
def Tree.bubblingSession : List Tree :=
  let filtered := Query.overOrdered.filter Criteria.activeCheck.negation
  [.query (filtered.bubbleSourceOrder.node.requalify (.prefixing "x_")),
    .query filtered.bubbleSourceOrder.node, .query filtered,
    .criteria Criteria.activeCheck.negation, .criteria Criteria.activeCheck,
    .query Query.overOrdered]

/-- The session that reads, negates, filters, bubbles and prefixes stays within the rules, its
query is read back, and a NOT without a condition is not read. -/
theorem Session.keepsRules_bubblingSession :
    (∀ t ∈ Tree.bubblingSession, t.WellFormed) ∧ (Tree.query Query.overOrdered).WellFormed ∧
      ∃ e, Tree.Kind.criteria.decode (Criteria.compound .not []).encode = .error e := by
  have hquery : Tree.Kind.query.decode Query.overOrdered.encode = .ok (.query Query.overOrdered) :=
    (Tree.query Query.overOrdered).recovers_decode.ok (by
      simp [Tree.ingredients, Query.overOrdered, Query.ofSource, Query.ofTable, Query.orderBy,
        Source.ofQuery, Source.ofTable, Table.ofName, Query.ingredients, Source.ingredients,
        Relation.ingredients, Table.ingredients, Criteria.ingredientsOption, Order.ingredients,
        Expression.ingredients, Field.ingredients, Ingredient.Storable, Ingredient.WellFormed])
  have hcheck : Tree.Kind.criteria.decode Criteria.activeCheck.encode =
      .ok (.criteria Criteria.activeCheck) :=
    (Tree.criteria Criteria.activeCheck).recovers_decode.ok (by
      simp [Tree.ingredients, Criteria.activeCheck, Criteria.ingredients, Expression.ingredients,
        Field.ingredients, Ingredient.Storable, Ingredient.WellFormed])
  have hsession : Session Tree.bubblingSession := by
    have hread := (Session.start.call (.read hquery)).call (.read hcheck)
    have hnot := hread.call (.not (c := Criteria.activeCheck) (by simp))
    have hfilter := hnot.call (.filter (q := Query.overOrdered) (c := Criteria.activeCheck.negation)
      (by simp) (by simp))
    have hbubbled := hfilter.call (.bubbledQuery
      (q := Query.overOrdered.filter Criteria.activeCheck.negation) (by simp))
    exact hbubbled.call (.prefixed "x_" (List.mem_cons_self ..))
  have hrefused : ¬(Tree.criteria (.compound .not [])).WellFormed := by
    simp [Tree.WellFormed, Tree.ingredients, Criteria.ingredients, Criteria.ingredientsList,
      Ingredient.WellFormed]
  exact ⟨Session.keepsRules.1 _ hsession, Session.keepsRules.2.1 _ _ _ hquery,
    Session.keepsRules.2.2 _ hrefused⟩

end DialectSql
