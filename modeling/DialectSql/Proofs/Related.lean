import Mathlib.Data.List.Forall2
import DialectSql.Draft.Change
import DialectSql.Proofs.Written

/-!
# Related drafts

Two runs of the writer are compared: two statements, each in a setting of its own. A relation on
drafts that goes through sequences holds of the whole drafts if it holds of the clauses. This module
says so for every construct above the expressions. The mode is looked at in one construct only, the
limit of a dialect that numbers rows by a pseudo-column and skips none, so that case is left to the
comparison at hand.

## Main definitions

* `Draft.Congruence` — relations on drafts that go through sequences
* `SettingRelation` — relations on settings that differ in nothing but configuration and mode
* `Alike` — drafts that are related in related settings
* `Query.Related`, `Query.WindowRelated` — queries with related clauses, and the case left over

## Main results

* `Query.Related.pagedDraft`, `Query.Related.clausesDraft` — queries with related clauses have
  related drafts
-/

namespace DialectSql

/-! ## Relations -/

/-- A relation on drafts that goes through sequences. -/
structure Draft.Congruence (R : Draft → Draft → Prop) : Prop where
  /-- Every draft is related to itself. -/
  refl : ∀ a, R a a
  /-- Sequences of related drafts are related. -/
  append : ∀ {a a' b b'}, R a a' → R b b' → R (a ++ b) (a' ++ b')

/-- A relation on settings of one dialect and depth. -/
structure SettingRelation (S : Setting → Setting → Prop) : Prop where
  /-- The dialect is the same. -/
  dialect : ∀ {s s'}, S s s' → s'.dialect = s.dialect
  /-- The depth is the same. -/
  depth : ∀ {s s'}, S s s' → s'.depth = s.depth
  /-- Settings inside of subqueries are related too. -/
  nested : ∀ {s s'}, S s s' → S s.nested s'.nested

/-- Drafts that are related in related settings. -/
def Alike (S : Setting → Setting → Prop) (R : Draft → Draft → Prop) (f f' : Setting → Draft) :
    Prop :=
  ∀ ⦃s s'⦄, S s s' → R (f s) (f' s')

variable {S : Setting → Setting → Prop} {R : Draft → Draft → Prop} {s s' : Setting}

/-- Optional clauses that are alike are related in related settings. -/
theorem Alike.map_apply {f f' : Option (Setting → Draft)} (h : f.Rel (Alike S R) f') (hs : S s s') :
    (f.map (· s)).Rel R (f'.map (· s')) := by
  cases h with
  | none => exact .none
  | some hf => exact .some (hf hs)

/-- Lists of related items are empty together. -/
theorem isEmpty_eq_of_forall₂ {α β : Type} {P : α → β → Prop} {xs : List α} {ys : List β}
    (h : List.Forall₂ P xs ys) : ys.isEmpty = xs.isEmpty := by
  cases h <;> rfl

namespace Draft.Congruence

variable (hR : Congruence R)
include hR

theorem parens {a a' : Draft} (h : R a a') : R a.parens a'.parens :=
  hR.append (hR.append (hR.refl _) h) (hR.refl _)

/-- Lists of related drafts are related. -/
theorem joinWith (separator : String) {ds ds' : List Draft} (h : List.Forall₂ R ds ds') :
    R (.joinWith separator ds) (.joinWith separator ds') := by
  induction h with
  | nil => exact hR.refl _
  | cons hd hds ih =>
    cases hds with
    | nil => exact hd
    | cons hd' hds' => exact hR.append (hR.append hd (hR.refl _)) ih

/-- Items with related drafts make related lists. -/
theorem items {α : Type} {f f' : α → Draft} {xs xs' : List α}
    (h : List.Forall₂ (fun x x' => R (f x) (f' x')) xs xs') :
    R (.list (xs.map f)) (.list (xs'.map f')) := by
  refine hR.joinWith ", " ?_
  rw [List.forall₂_map_left_iff, List.forall₂_map_right_iff]
  exact h

theorem whereDraft {filter filter' limit limit' : Option Draft} (hf : filter.Rel R filter')
    (hl : limit.Rel R limit') : R (whereDraft filter limit) (whereDraft filter' limit') := by
  cases hf with
  | none =>
    cases hl with
    | none => exact hR.refl _
    | some hl => exact hR.append (hR.refl _) hl
  | some hf =>
    cases hl with
    | none => exact hR.append (hR.refl _) hf
    | some hl =>
      exact hR.append (hR.append (hR.append (hR.refl _) (hR.parens hf)) (hR.refl _)) hl

theorem compoundDraft (op : Connective) {ds ds' : List Draft} (h : List.Forall₂ R ds ds') :
    R (Criteria.compoundDraft op ds) (Criteria.compoundDraft op ds') := by
  have hparens : List.Forall₂ R (ds.map Draft.parens) (ds'.map Draft.parens) := by
    rw [List.forall₂_map_left_iff, List.forall₂_map_right_iff]
    exact h.imp fun _ _ => hR.parens
  cases op with
  | not => exact hR.append (hR.refl _) (hR.joinWith "" hparens)
  | and | or => exact hR.joinWith _ hparens

end Draft.Congruence

/-! ## Queries -/

/-- Queries with the same limits whose clauses have related drafts. -/
structure Query.Related (S : Setting → Setting → Prop) (R : Draft → Draft → Prop) (q q' : Query)
    (c c' : Clauses) : Prop where
  distinct : q'.distinct = q.distinct
  skip : q'.skip = q.skip
  take : q'.take = q.take
  selection : List.Forall₂ (fun p p' => Alike S R (Projection.draft · p) (Projection.draft · p'))
    q.selection q'.selection
  orders : List.Forall₂ (fun o o' => Alike S R (Order.draft · o) (Order.draft · o'))
    q.orders q'.orders
  /-- Orders on the symbol of different rows. -/
  distinctOrders : List.Forall₂ (fun o o' => Alike S R (Order.draft · (o.ontoDistinct q.selection))
    (Order.draft · (o'.ontoDistinct q'.selection))) q.orders q'.orders
  groupBy : List.Forall₂ (fun e e' => Alike S R (Expression.draft · e) (Expression.draft · e'))
    q.groupBy q'.groupBy
  aggregation : q.aggregation.Rel (fun a a' =>
    Alike S R (Expression.draft · a.toExpression) (Expression.draft · a'.toExpression) ∧
    Alike S R (Expression.draft · (a.toExpression.relocate aggregateSymbol))
      (Expression.draft · (a'.toExpression.relocate aggregateSymbol))) q'.aggregation
  source : Alike S R c.source c'.source
  filter : c.filter.Rel (Alike S R) c'.filter
  having : c.having.Rel (Alike S R) c'.having

/-- The limit by a pseudo-column has related drafts. -/
def Query.WindowRelated (S : Setting → Setting → Prop) (R : Draft → Draft → Prop) (q q' : Query)
    (c c' : Clauses) : Prop :=
  ∀ {s s'} {take : UInt64}, S s s' → s.dialect = .oracle → q.skip = none → q.take = some take →
    R (q.pseudoColumnDraft c s) (q'.pseudoColumnDraft c' s')

/-- Orders with related drafts make related clauses. -/
theorem Draft.Congruence.orderDraft (hR : Congruence R) {orders orders' : List Order}
    (h : List.Forall₂ (fun o o' => R (o.draft s) (o'.draft s')) orders orders') :
    R (orderDraft s orders) (orderDraft s' orders') := by
  unfold DialectSql.orderDraft
  rw [isEmpty_eq_of_forall₂ h]
  split
  · exact hR.refl _
  · exact hR.append (hR.refl _) (hR.items h)

/-- Orders with related drafts number rows alike. -/
theorem Draft.Congruence.overDraft (hR : Congruence R) {orders orders' : List Order}
    (h : List.Forall₂ (fun o o' => R (o.draft s) (o'.draft s')) orders orders') :
    R (Query.overDraft s orders) (Query.overDraft s' orders') := by
  unfold Query.overDraft
  rw [isEmpty_eq_of_forall₂ h]
  split
  · exact hR.refl _
  · exact hR.items h

namespace Query.Related

variable {q q' : Query} {c c' : Clauses} (hR : Draft.Congruence R)
  (h : Query.Related S R q q' c c') (hs : S s s')
include hR h hs

theorem projectionDraft : R (q.projectionDraft s) (q'.projectionDraft s') := by
  unfold Query.projectionDraft
  rw [isEmpty_eq_of_forall₂ h.selection]
  split
  · exact hR.refl _
  · exact hR.items (h.selection.imp fun _ _ hp => hp hs)

theorem bodyDraft {limit limit' : Option Draft} (hlimit : limit.Rel R limit') :
    R (q.bodyDraft c limit s) (q'.bodyDraft c' limit' s') := by
  have hgroup : R (if q.groupBy.isEmpty then .empty
        else .text " GROUP BY " ++ .list (q.groupBy.map (·.draft s)))
      (if q'.groupBy.isEmpty then .empty
        else .text " GROUP BY " ++ .list (q'.groupBy.map (·.draft s'))) := by
    rw [isEmpty_eq_of_forall₂ h.groupBy]
    split
    · exact hR.refl _
    · exact hR.append (hR.refl _) (hR.items (h.groupBy.imp fun _ _ he => he hs))
  have hrows := hR.append (hR.append (hR.append (hR.refl (.text " FROM ")) (h.source hs))
    (hR.whereDraft (Alike.map_apply h.filter hs) hlimit)) hgroup
  have hrel := h.having
  unfold Query.bodyDraft
  refine hR.append hrows ?_
  generalize c.having = f, c'.having = f' at hrel
  cases hrel with
  | none => exact hR.refl _
  | some hf => exact hR.append (hR.refl _) (hf hs)

omit hR hs in
theorem headDraft (top : Option UInt64) : q'.headDraft top = q.headDraft top := by
  unfold Query.headDraft
  rw [h.distinct]

theorem orderDraft : R (orderDraft s q.orders) (DialectSql.orderDraft s' q'.orders) :=
  hR.orderDraft (h.orders.imp fun _ _ ho => ho hs)

theorem unpagedDraft (top : Option UInt64) {limit limit' : Option Draft}
    (hlimit : limit.Rel R limit') :
    R (q.unpagedDraft c top limit s) (q'.unpagedDraft c' top limit' s') := by
  unfold Query.unpagedDraft
  rw [h.headDraft]
  exact hR.append (hR.append (hR.append (hR.refl _) (h.projectionDraft hR hs))
    (h.bodyDraft hR hs hlimit)) (h.orderDraft hR hs)

variable (hS : SettingRelation S)
include hS

theorem numberedDraft (column : String) :
    R (q.numberedDraft c column s) (q'.numberedDraft c' column s') := by
  -- The subquery of different rows is one level further in.
  have hn : S s.nested s'.nested := hS.nested hs
  have hnumber : ∀ {a a' : Draft}, R a a' →
      R (Query.rowNumberDraft column a) (Query.rowNumberDraft column a') := fun ho =>
    hR.append (hR.append (hR.refl _) (hR.parens (hR.append (hR.refl _) ho))) (hR.refl _)
  unfold Query.numberedDraft
  rw [h.distinct, h.headDraft]
  split
  · have hover : R (Query.overDraft s (q.orders.map (·.ontoDistinct q.selection)))
        (Query.overDraft s' (q'.orders.map (·.ontoDistinct q'.selection))) := by
      refine hR.overDraft ?_
      rw [List.forall₂_map_left_iff, List.forall₂_map_right_iff]
      exact h.distinctOrders.imp fun _ _ ho => ho hs
    have hrows := hR.append (hR.append (hR.refl (q.headDraft none)) (h.projectionDraft hR hn))
      (h.bodyDraft hR hn .none)
    exact hR.append (hR.append (hR.append (hR.append (hR.refl _) (hnumber hover)) (hR.refl _))
      (hR.parens hrows)) (hR.refl _)
  · have hover : R (Query.overDraft s q.orders) (Query.overDraft s' q'.orders) :=
      hR.overDraft (h.orders.imp fun _ _ ho => ho hs)
    exact hR.append (hR.append (hR.append (hR.refl _) (h.projectionDraft hR hs)) (hnumber hover))
      (h.bodyDraft hR hs .none)

theorem numberingDraft : R (q.numberingDraft c s) (q'.numberingDraft c' s') := by
  have hcolumn : rowNumberName "rownum" s' = rowNumberName "rownum" s := by
    rw [rowNumberName, rowNumberName, hS.depth hs]
  unfold Query.numberingDraft
  rw [h.skip, h.take, hS.depth hs, hcolumn]
  split
  · exact h.unpagedDraft hR hs q.take .none
  · dsimp only
    exact hR.append (hR.append (hR.append (hR.refl _) (hR.parens (h.numberedDraft hR hs hS _)))
      (hR.refl _)) (hR.refl _)

/-- Limits by the pseudo-column, in the case that looks at the mode by assumption. -/
theorem pseudoColumnDraft (hwindow : Query.WindowRelated S R q q' c c')
    (hdialect : s.dialect = .oracle) :
    R (q.pseudoColumnDraft c s) (q'.pseudoColumnDraft c' s') := by
  have hcolumn : rowNumberName "paging_rownumber" s' = rowNumberName "paging_rownumber" s := by
    rw [rowNumberName, rowNumberName, hS.depth hs]
  have hrows := h.unpagedDraft hR hs none (Option.Rel.none : Option.Rel R none none)
  cases hskip : q.skip with
  | none =>
    cases htake : q.take with
    | none =>
      unfold Query.pseudoColumnDraft
      rw [h.skip, h.take, hskip, htake]
      exact hrows
    | some take => exact hwindow hs hdialect hskip htake
  | some skip =>
    unfold Query.pseudoColumnDraft
    rw [h.skip, h.take, hskip, hcolumn]
    -- With a number of skipped rows both limits stand in wrappers, in either mode.
    exact hR.append (hR.append (hR.refl _) (hR.parens (hR.append (hR.append (hR.append (hR.refl _)
      (hR.parens hrows)) (hR.refl _)) (hR.refl _)))) (hR.refl _)

theorem pagedDraft (hwindow : Query.WindowRelated S R q q' c c') :
    R (q.pagedDraft c s) (q'.pagedDraft c' s') := by
  have hrows := h.unpagedDraft hR hs none (Option.Rel.none : Option.Rel R none none)
  unfold Query.pagedDraft
  rw [h.skip, h.take, hS.dialect hs]
  cases hdialect : s.dialect with
  | sqlServer => exact h.numberingDraft hR hs hS
  | oracle => exact h.pseudoColumnDraft hR hs hS hwindow hdialect
  -- A closing clause depends on the numbers of rows only.
  | mySql | sqlite | postgreSql | oledb | other => exact hR.append hrows (hR.refl _)

theorem aggregateDraft (hwindow : Query.WindowRelated S R q q' c c') {a a' : Aggregation}
    (hcall : R (a.toExpression.draft s) (a'.toExpression.draft s'))
    (hrelocated : R ((a.toExpression.relocate aggregateSymbol).draft s)
      ((a'.toExpression.relocate aggregateSymbol).draft s')) :
    R (q.aggregateDraft c a s) (q'.aggregateDraft c' a' s') := by
  unfold Query.aggregateDraft Query.isPaged
  rw [h.distinct, h.skip, h.take]
  split
  · exact hR.append (hR.append (hR.append (hR.append (hR.refl _) hrelocated) (hR.refl _))
      (hR.parens (h.pagedDraft hR (hS.nested hs) hS hwindow))) (hR.refl _)
  · exact hR.append (hR.append (hR.append (hR.append (hR.refl _) hcall) (hR.refl _)) (h.source hs))
      (hR.whereDraft (Alike.map_apply h.filter hs) .none)

theorem clausesDraft (hwindow : Query.WindowRelated S R q q' c c') :
    R (q.clausesDraft c s) (q'.clausesDraft c' s') := by
  have hrel := h.aggregation
  unfold Query.clausesDraft
  generalize q.aggregation = a, q'.aggregation = a' at hrel
  cases hrel with
  | none => exact h.pagedDraft hR hs hS hwindow
  | some ha => exact h.aggregateDraft hR hs hS hwindow (ha.1 hs) (ha.2 hs)

end Query.Related

/-! ## Sources and set operations -/

namespace Draft.Congruence

variable (hR : Congruence R)
include hR

theorem wrappedOperand {a a' : Draft} (h : R a a') : R (wrappedOperand a) (wrappedOperand a') :=
  hR.append (hR.append (hR.refl _) (hR.parens h)) (hR.refl _)

theorem derivedDraft {a a' : Draft} (h : R a a') (symbol : String) :
    R (derivedDraft a symbol) (derivedDraft a' symbol) :=
  hR.append (hR.append (hR.parens h) (hR.refl _)) (hR.refl _)

theorem joinDraft {l l' r r' on on' : Draft} (hl : R l l') (hr : R r r') (hon : R on on')
    (kind : JoinKind) (joined : Bool) :
    R (l ++ .text (" " ++ kind.symbol ++ " ") ++ (if joined then r.parens else r) ++
        .text " ON " ++ on)
      (l' ++ .text (" " ++ kind.symbol ++ " ") ++ (if joined then r'.parens else r') ++
        .text " ON " ++ on') := by
  refine hR.append (hR.append (hR.append (hR.append hl (hR.refl _)) ?_) (hR.refl _)) hon
  split
  · exact hR.parens hr
  · exact hr

theorem operandsDraft (hdialect : s'.dialect = s.dialect) (operator : SetOperator)
    {orders orders' : List Order}
    (ho : List.Forall₂ (fun o o' => R (o.draft s) (o'.draft s')) orders orders')
    {l l' r r' : Draft} (hl : R l l') (hr : R r r') :
    R (QuerySet.operandsDraft s operator orders l r)
      (QuerySet.operandsDraft s' operator orders' l' r') := by
  unfold QuerySet.operandsDraft Draft.ofExcept
  rw [hdialect]
  split
  · exact hR.append (hR.append (hR.append hl (hR.refl _)) hr) (hR.orderDraft ho)
  · exact hR.refl _

end Draft.Congruence

/-! ## Changes -/

/-- Changes of the same table whose clauses have related drafts. -/
structure Change.Related (S : Setting → Setting → Prop) (R : Draft → Draft → Prop)
    (c c' : Change) : Prop where
  kind : c'.kind = c.kind
  /-- The changed table has the same name, or is missing in both. -/
  target : c'.target.map (·.name) = c.target.map (·.name)
  joined : c'.source.isJoined = c.source.isJoined
  symbol : c'.source.leftmost.symbol = c.source.leftmost.symbol
  aliased : c'.source.leftmost.alias?.isSome = c.source.leftmost.alias?.isSome
  head : Alike S R c.headDraft c'.headDraft
  source : Alike S R c.source.draft c'.source.draft
  filter : Alike S R c.filterDraft c'.filterDraft
  assignments : List.Forall₂ (fun a a' => a'.column.name = a.column.name ∧
    Alike S R (Assignment.valueDraft · a) (Assignment.valueDraft · a') ∧
    Alike S R (Assignment.draft · a) (Assignment.draft · a')) c.assignments c'.assignments

namespace Change.Related

variable {c c' : Change} (hR : Draft.Congruence R) (hS : SettingRelation S)
  (h : Change.Related S R c c') (hs : S s s')
include hR hS h hs

omit hR h in
theorem changeName (name : String) : s'.changeName name = s.changeName name := by
  unfold Setting.changeName
  rw [hS.dialect hs]

theorem insertDraft {t t' : Table} (ht : t'.name = t.name) :
    R (c.insertDraft s t) (c'.insertDraft s' t') := by
  have hcolumns : R (.list (c.assignments.map (·.columnDraft s)))
      (.list (c'.assignments.map (·.columnDraft s'))) := by
    refine hR.items (h.assignments.imp fun a a' ha => ?_)
    rw [Assignment.columnDraft, Assignment.columnDraft, ha.1, changeName hS hs]
    exact hR.refl _
  have hvalues : R (.list (c.assignments.map (·.valueDraft s)))
      (.list (c'.assignments.map (·.valueDraft s'))) :=
    hR.items (h.assignments.imp fun _ _ ha => ha.2.1 hs)
  unfold Change.insertDraft
  rw [isEmpty_eq_of_forall₂ h.assignments, hS.dialect hs, ht, changeName hS hs]
  refine hR.append (hR.refl _) ?_
  split
  · exact hR.refl _
  · dsimp only
    rw [List.map_map, List.map_map, List.map_map, List.map_map]
    exact hR.append (hR.append (hR.append (hR.refl _) (hR.parens hcolumns)) (hR.refl _))
      (hR.parens hvalues)

theorem updateDraft : R (c.updateDraft s) (c'.updateDraft s') := by
  have hassigned : R (.list (c.assignments.map (·.draft s)))
      (.list (c'.assignments.map (·.draft s'))) :=
    hR.items (h.assignments.imp fun _ _ ha => ha.2.2 hs)
  unfold Change.updateDraft
  rw [isEmpty_eq_of_forall₂ h.assignments, hS.dialect hs, h.joined, h.symbol, changeName hS hs]
  split
  · exact hR.refl _
  · split
    · exact hR.refl _
    · dsimp only
      split
      · exact hR.append (hR.append (hR.append (hR.append (hR.refl _) hassigned) (hR.refl _))
          (h.source hs)) (h.filter hs)
      · exact hR.append (hR.append (hR.append (hR.append (hR.refl _) (h.head hs)) (hR.refl _))
          hassigned) (h.filter hs)

theorem deleteDraft : R (c.deleteDraft s) (c'.deleteDraft s') := by
  have hnames : c'.namesDeleted s.dialect = c.namesDeleted s.dialect := by
    unfold namesDeleted
    rw [h.joined, h.aliased]
  unfold Change.deleteDraft
  rw [hS.dialect hs, h.joined, hnames, h.symbol, changeName hS hs]
  split
  · exact hR.refl _
  · refine hR.append ?_ (h.filter hs)
    split
    · exact hR.append (hR.refl _) (h.source hs)
    · exact hR.append (hR.refl _) (h.head hs)

theorem draft : R (c.draft s) (c'.draft s') := by
  -- A change with no table in front is refused before anything of it is written.
  have htarget := h.target
  unfold Change.draft Draft.ofExcept
  rw [h.kind]
  cases ht : c.target with
  | error e =>
    cases ht' : c'.target with
    | error e' =>
      obtain rfl : e' = e := by simpa [ht, ht', Except.map] using htarget
      exact hR.refl _
    | ok t' => simp [ht, ht', Except.map] at htarget
  | ok t =>
    cases ht' : c'.target with
    | error e' => simp [ht, ht', Except.map] at htarget
    | ok t' =>
      have hname : t'.name = t.name := by simpa [ht, ht', Except.map] using htarget
      dsimp only
      split
      · exact h.insertDraft hR hS hs hname
      · exact h.updateDraft hR hS hs
      · exact h.deleteDraft hR hS hs

end Change.Related

end DialectSql
