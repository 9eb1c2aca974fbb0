import DialectSql.Proofs.Names
import DialectSql.Proofs.Related

/-!
# The two modes

Only one construct looks at the mode: the limit of a dialect that numbers rows by a pseudo-column
and skips none. So the drafts of a statement in the two modes fail alike, and where that construct
is absent they are the same.

## Main definitions

* `Query.queries`, `Statement.queries`, … — all queries of a tree
* `Setting.Twins` — a setting that binds constants and the one that writes them
* `Query.WindowAlike` — queries whose limits are no obstacle to a comparison of the modes

## Main results

* `Query.alike_modes`, `QuerySet.alike_modes`, `Change.alike_modes`, … — the drafts of the modes are
  related, by every relation that goes through sequences
* `Query.windowAlike_sameFailure`, `Query.windowAlike_eq` — the two relations
-/

namespace DialectSql

/-! ## The queries of a tree -/

mutual

/-- The queries inside of a condition. -/
def Criteria.queries : Criteria → List Query
  | .expression _ => []
  | .compound _ children => Criteria.queriesList children
  | .inSelect _ query _ => query.queries

/-- The queries inside of a list of conditions. -/
def Criteria.queriesList : List Criteria → List Query
  | [] => []
  | c :: cs => c.queries ++ Criteria.queriesList cs

/-- The queries inside of an optional condition. -/
def Criteria.queriesOption : Option Criteria → List Query
  | none => []
  | some c => c.queries

/-- The queries inside of a relation. -/
def Relation.queries : Relation → List Query
  | .table _ => []
  | .select query _ => query.queries
  | .set set _ => set.queries

/-- The queries inside of a source. -/
def Source.queries : Source → List Query
  | .single r => r.queries
  | .joined _ left right on => left.queries ++ right.queries ++ on.queries

/-- A query and the queries inside of it. -/
def Query.queries : Query → List Query
  | ⟨source, criteria, selection, distinct, orders, skip, take, aggregation, groupBy, having⟩ =>
    ⟨source, criteria, selection, distinct, orders, skip, take, aggregation, groupBy, having⟩ ::
      (source.queries ++ Criteria.queriesOption criteria ++ Criteria.queriesOption having)

/-- The queries of an operand. -/
def SetOperand.queries : SetOperand → List Query
  | .query q => q.queries
  | .set s => s.queries

/-- The queries of a set operation. -/
def QuerySet.queries : QuerySet → List Query
  | ⟨_, left, right, _⟩ => left.queries ++ right.queries

end

/-- The queries inside of a change. -/
def Change.queries (c : Change) : List Query :=
  c.source.queries ++ Criteria.queriesOption c.criteria

/-- The queries of a statement. -/
def Statement.queries : Statement → List Query
  | query q => q.queries
  | set s => s.queries
  | change c => c.queries

/-! ## What does not look at the mode -/

/-- A setting in another mode. -/
def Setting.inMode (s : Setting) (m : Mode) : Setting := { s with mode := m }

section Expressions

variable (s : Setting) (m : Mode)

@[simp] theorem Setting.nested_inMode : (s.inMode m).nested = s.nested.inMode m := rfl

@[simp] theorem Setting.dialect_inMode : (s.inMode m).dialect = s.dialect := rfl

@[simp] theorem Setting.depth_inMode : (s.inMode m).depth = s.depth := rfl

@[simp] theorem Setting.changeName_inMode (name : String) :
    (s.inMode m).changeName name = s.changeName name := rfl

mutual

/-- An expression is written alike in both modes. -/
@[simp] theorem Expression.draft_inMode : ∀ e : Expression, e.draft (s.inMode m) = e.draft s
  | .constant _ | .field _ _ | .wildcard (some _) | .wildcard none => rfl
  | .arithmetic op left right => by
    rw [draft, draft, draft_inMode left, draft_inMode right]
    rfl
  | .comparison op left right => by
    rw [draft, draft, draft_inMode left, draft_inMode right]
    rfl
  | .logic op left right => by rw [draft, draft, draft_inMode left, draft_inMode right]
  | .bitwise op left right => by
    rw [draft, draft, draft_inMode left, draft_inMode right]
    rfl
  | .unary op operand => by rw [draft, draft, draft_inMode operand]
  | .like subject pattern mode => by
    rw [draft, draft, draft_inMode subject, draft_inMode pattern]
    rfl
  | .membership op subject values => by rw [draft, draft, draft_inMode subject]
  | .call function args distinct => by
    rw [draft, draft, draftList_inMode args]
    rfl

/-- Expressions are written alike in both modes. -/
theorem Expression.draftList_inMode :
    ∀ es : List Expression, draftList (s.inMode m) es = draftList s es
  | [] => rfl
  | e :: es => by rw [draftList, draftList, draft_inMode e, draftList_inMode es]

end

@[simp] theorem Order.draft_inMode (o : Order) : o.draft (s.inMode m) = o.draft s := by
  rw [draft, draft, Expression.draft_inMode]

@[simp] theorem Projection.draft_inMode (p : Projection) : p.draft (s.inMode m) = p.draft s := by
  rw [draft, draft, Expression.draft_inMode]

@[simp] theorem Assignment.valueDraft_inMode (a : Assignment) :
    a.valueDraft (s.inMode m) = a.valueDraft s := by
  obtain ⟨column, value⟩ := a
  cases value with
  | expression e => exact Expression.draft_inMode s m e
  | _ => rfl

@[simp] theorem Assignment.draft_inMode (a : Assignment) : a.draft (s.inMode m) = a.draft s := by
  simp [draft, columnDraft]

end Expressions

/-! ## Twins -/

/-- A setting of a dialect that binds constants, and the one that differs in writing them. -/
structure Setting.Twins (d : Dialect) (s s' : Setting) : Prop where
  dialect : s.dialect = d
  mode : s.mode = .bound
  inline : s' = s.inMode .inline

theorem Setting.Twins.settingRelation (d : Dialect) : SettingRelation (Setting.Twins d) where
  dialect h := by rw [h.inline, Setting.dialect_inMode]
  depth h := by rw [h.inline, Setting.depth_inMode]
  nested h := ⟨h.dialect, h.mode, by rw [h.inline, Setting.nested_inMode]⟩

variable {d : Dialect} {R : Draft → Draft → Prop}

/-- Drafts that do not look at the mode are alike. -/
theorem alike_of_inMode (hR : Draft.Congruence R) {f : Setting → Draft}
    (h : ∀ s m, f (s.inMode m) = f s) : Alike (Setting.Twins d) R f f := by
  intro s s' hs
  rw [hs.inline, h]
  exact hR.refl _

/-- A query for which the one construct that looks at the mode has related drafts, if the clauses of
the query have. -/
def Query.WindowAlike (d : Dialect) (R : Draft → Draft → Prop) (q : Query) : Prop :=
  ∀ c, Query.Related (Setting.Twins d) R q q c c → Query.WindowRelated (Setting.Twins d) R q q c c

theorem Draft.failure_append_congr {a a' b b' : Draft} (ha : a.failure = a'.failure)
    (hb : b.failure = b'.failure) : (a ++ b).failure = (a' ++ b').failure := by
  rw [failure_append, failure_append, ha, hb]

/-- Drafts that fail alike. -/
def Draft.SameFailure (a a' : Draft) : Prop := a.failure = a'.failure

theorem Draft.SameFailure.congruence : Draft.Congruence SameFailure :=
  ⟨fun _ => rfl, failure_append_congr⟩

theorem Draft.Congruence.eq : Draft.Congruence Eq :=
  ⟨fun _ => rfl, fun ha hb => by rw [ha, hb]⟩

/-- A limit that does not fail changes nothing about the failure of a query. -/
theorem Query.failure_unpagedDraft_limit (q : Query) (c : Clauses) (top : Option UInt64)
    {limit : Draft} (hlimit : limit.failure = none) (s : Setting) :
    (q.unpagedDraft c top (some limit) s).failure = (q.unpagedDraft c top none s).failure := by
  have hwhere : ∀ filter : Option Draft,
      (whereDraft filter (some limit)).failure = (whereDraft filter none).failure := by
    intro filter
    cases filter with
    | none => simp [whereDraft, hlimit, Draft.empty, Draft.text, Draft.piece]
    | some f => simp [whereDraft, hlimit, Draft.text, Draft.piece]
  unfold unpagedDraft bodyDraft
  simp only [Draft.failure_append, hwhere]

/-- The limit by a pseudo-column fails alike in the two modes. -/
theorem Query.windowAlike_sameFailure (q : Query) (d : Dialect) :
    q.WindowAlike d Draft.SameFailure := by
  intro c hrelated s s' take hs _ hskip htake
  have hrows : (q.unpagedDraft c none none s).failure = (q.unpagedDraft c none none s').failure :=
    hrelated.unpagedDraft Draft.SameFailure.congruence hs none .none
  -- One mode wraps the rows and the other adds a limit to them. Neither fails where they do not.
  have hinline : s'.mode = .inline := by rw [hs.inline]; rfl
  unfold Draft.SameFailure pseudoColumnDraft
  rw [hskip, htake, hs.mode, hinline]
  dsimp only
  have hcap : (rowNumCap take.toNat).failure = none := rfl
  rw [q.failure_unpagedDraft_limit c none hcap s', ← hrows]
  simp [Draft.text, Draft.piece, rowNumCap]

/-- Where limited queries skip rows, or a clause limits rows, the two modes write the same. -/
theorem Query.windowAlike_eq {q : Query} (h : d = .oracle → q.take.isSome → q.skip.isSome) :
    q.WindowAlike d Eq := by
  intro c _ s s' take hs hdialect hskip htake
  -- The construct is met in one dialect only, and there a limit alone is excluded.
  have hsome := h (hs.dialect.symm.trans hdialect) (by rw [htake]; rfl)
  rw [hskip] at hsome
  cases hsome

/-- A query has related drafts if those of its source and conditions are. -/
theorem Query.related_modes (hR : Draft.Congruence R) (q : Query) {c : Clauses}
    (hsource : Alike (Setting.Twins d) R c.source c.source)
    (hfilter : c.filter.Rel (Alike (Setting.Twins d) R) c.filter)
    (hhaving : c.having.Rel (Alike (Setting.Twins d) R) c.having) :
    Query.Related (Setting.Twins d) R q q c c where
  distinct := rfl
  skip := rfl
  take := rfl
  selection := List.forall₂_same.mpr fun p _ => alike_of_inMode hR fun s m => p.draft_inMode s m
  orders := List.forall₂_same.mpr fun o _ => alike_of_inMode hR fun s m => o.draft_inMode s m
  distinctOrders := List.forall₂_same.mpr fun o _ =>
    alike_of_inMode hR fun s m => (o.ontoDistinct q.selection).draft_inMode s m
  groupBy := List.forall₂_same.mpr fun e _ => alike_of_inMode hR fun s m => e.draft_inMode s m
  aggregation := by
    cases q.aggregation with
    | none => exact .none
    | some a =>
      exact .some ⟨alike_of_inMode hR fun s m => Expression.draft_inMode s m _,
        alike_of_inMode hR fun s m => Expression.draft_inMode s m _⟩
  source := hsource
  filter := hfilter
  having := hhaving

mutual

/-- The drafts of a condition in the two modes are related. -/
theorem Criteria.alike_modes (hR : Draft.Congruence R) :
    ∀ c : Criteria, (∀ q ∈ c.queries, q.WindowAlike d R) →
      Alike (Setting.Twins d) R c.draft c.draft
  | .expression e, _ => alike_of_inMode hR fun s m => e.draft_inMode s m
  | .compound op children, h => fun _ _ hs => by
    rw [Criteria.draft, Criteria.draft]
    exact hR.compoundDraft op (Criteria.alike_modesList hR children h hs)
  | .inSelect subject query op, h => fun s s' hs => by
    have hquery := Query.alike_modes hR query h ((Setting.Twins.settingRelation d).nested hs)
    have hsubject : R (subject.draft s) (subject.draft s') := by
      rw [hs.inline, subject.draft_inMode]
      exact hR.refl _
    rw [Criteria.draft, Criteria.draft]
    exact hR.append (hR.append hsubject (hR.refl _)) (hR.parens hquery)

/-- The drafts of conditions in the two modes are related. -/
theorem Criteria.alike_modesList (hR : Draft.Congruence R) :
    ∀ cs : List Criteria, (∀ q ∈ Criteria.queriesList cs, q.WindowAlike d R) →
      ∀ ⦃s s'⦄, Setting.Twins d s s' →
        List.Forall₂ R (Criteria.draftList cs s) (Criteria.draftList cs s')
  | [], _ => fun _ _ _ => .nil
  | c :: cs, h => fun _ _ hs => by
    rw [Criteria.queriesList, List.forall_mem_append] at h
    exact .cons (Criteria.alike_modes hR c h.1 hs) (Criteria.alike_modesList hR cs h.2 hs)

/-- The drafts of an optional condition in the two modes are related. -/
theorem Criteria.alike_modesOption (hR : Draft.Congruence R) :
    ∀ c? : Option Criteria, (∀ q ∈ Criteria.queriesOption c?, q.WindowAlike d R) →
      (Criteria.draftOption c?).Rel (Alike (Setting.Twins d) R) (Criteria.draftOption c?)
  | none, _ => .none
  | some c, h => .some (Criteria.alike_modes hR c h)

/-- The drafts of a relation in the two modes are related. -/
theorem Relation.alike_modes (hR : Draft.Congruence R) :
    ∀ r : Relation, (∀ q ∈ r.queries, q.WindowAlike d R) →
      Alike (Setting.Twins d) R r.draft r.draft
  | .table _, _ => fun _ _ _ => hR.refl _
  | .select query alias?, h => fun _ _ hs => by
    have hquery := Query.alike_modes hR query h ((Setting.Twins.settingRelation d).nested hs)
    exact hR.derivedDraft hquery _
  | .set set alias?, h => fun _ _ hs => by
    have hset := QuerySet.alike_modes hR set h ((Setting.Twins.settingRelation d).nested hs)
    exact hR.derivedDraft hset _

/-- The drafts of a source in the two modes are related. -/
theorem Source.alike_modes (hR : Draft.Congruence R) :
    ∀ r : Source, (∀ q ∈ r.queries, q.WindowAlike d R) → Alike (Setting.Twins d) R r.draft r.draft
  | .single r, h => Relation.alike_modes hR r h
  | .joined kind left right on, h => fun _ _ hs => by
    simp only [Source.queries, List.forall_mem_append] at h
    obtain ⟨⟨hleft, hright⟩, hon⟩ := h
    rw [Source.draft, Source.draft]
    exact hR.joinDraft (Source.alike_modes hR left hleft hs) (Source.alike_modes hR right hright hs)
      (Criteria.alike_modes hR on hon hs) kind right.isJoined

/-- The drafts of a query in the two modes are related. -/
theorem Query.alike_modes (hR : Draft.Congruence R) :
    ∀ q : Query, (∀ r ∈ q.queries, r.WindowAlike d R) → Alike (Setting.Twins d) R q.draft q.draft
  | ⟨source, criteria, selection, distinct, orders, skip, take, aggregation, groupBy, having⟩, h =>
    fun s s' hs => by
    simp only [Query.queries, List.forall_mem_append, List.forall_mem_cons] at h
    -- The query itself is one of its queries, so its own limits are covered too.
    obtain ⟨hself, ⟨hsource, hcriteria⟩, hhaving⟩ := h
    have hrelated := Query.related_modes (d := d) hR
      ⟨source, criteria, selection, distinct, orders, skip, take, aggregation, groupBy, having⟩
      (c := ⟨fun s => source.draft s, Criteria.draftOption criteria, Criteria.draftOption having⟩)
      (Source.alike_modes hR source hsource) (Criteria.alike_modesOption hR criteria hcriteria)
      (Criteria.alike_modesOption hR having hhaving)
    have hclauses := hrelated.clausesDraft hR hs (Setting.Twins.settingRelation d)
      (hself _ hrelated)
    cases source with
    | joined kind left right on => simpa [Query.draft] using hclauses
    | single r =>
      cases r with
      | table t => simpa [Query.draft] using hclauses
      | select query alias? => simpa [Query.draft] using hclauses
      | set set alias? =>
        rw [Query.draft, Query.draft]
        split
        · exact QuerySet.alike_modes hR set hsource hs
        · exact hclauses

/-- The drafts of an operand in the two modes are related. -/
theorem SetOperand.alike_modes (hR : Draft.Congruence R) :
    ∀ o : SetOperand, (∀ q ∈ o.queries, q.WindowAlike d R) →
      Alike (Setting.Twins d) R o.draft o.draft
  | .query q, h => fun _ _ hs => by
    rw [SetOperand.draft, SetOperand.draft]
    split
    · exact Query.alike_modes hR q h hs
    · exact hR.wrappedOperand
        (Query.alike_modes hR q h ((Setting.Twins.settingRelation d).nested hs))
  | .set set, h => fun _ _ hs => by
    rw [SetOperand.draft, SetOperand.draft]
    exact hR.wrappedOperand
      (QuerySet.alike_modes hR set h ((Setting.Twins.settingRelation d).nested hs))

/-- The drafts of a set operation in the two modes are related. -/
theorem QuerySet.alike_modes (hR : Draft.Congruence R) :
    ∀ q : QuerySet, (∀ r ∈ q.queries, r.WindowAlike d R) →
      Alike (Setting.Twins d) R q.draft q.draft
  | ⟨operator, left, right, orders⟩, h => fun s s' hs => by
    simp only [QuerySet.queries, List.forall_mem_append] at h
    have horders : List.Forall₂ (fun o o' => R (o.draft s) (o'.draft s')) orders orders := by
      refine List.forall₂_same.mpr fun o _ => ?_
      rw [hs.inline, o.draft_inMode]
      exact hR.refl _
    rw [QuerySet.draft, QuerySet.draft]
    exact hR.operandsDraft ((Setting.Twins.settingRelation d).dialect hs) operator horders
      (SetOperand.alike_modes hR left h.1 hs) (SetOperand.alike_modes hR right h.2 hs)

end

/-- The drafts of a change in the two modes are related. -/
theorem Change.alike_modes (hR : Draft.Congruence R) (c : Change)
    (h : ∀ q ∈ c.queries, q.WindowAlike d R) : Alike (Setting.Twins d) R c.draft c.draft := by
  rw [queries, List.forall_mem_append] at h
  have hsource : Alike (Setting.Twins d) R c.source.draft c.source.draft :=
    Source.alike_modes hR c.source h.1
  have hhead : Alike (Setting.Twins d) R c.headDraft c.headDraft := by
    intro s s' hs
    -- The head of a change is a table or a whole source.
    have hname : ∀ name, s'.changeName name = s.changeName name := by
      rw [hs.inline]
      exact Setting.changeName_inMode s .inline
    unfold headDraft
    split
    · simp only [hname]
      exact hR.refl _
    · exact hsource hs
  have hrelated : Change.Related (Setting.Twins d) R c c :=
    { kind := rfl
      target := rfl
      joined := rfl
      symbol := rfl
      aliased := rfl
      head := hhead
      source := hsource
      filter := fun s s' hs => hR.whereDraft
        (Alike.map_apply (Criteria.alike_modesOption hR c.criteria h.2) hs) .none
      assignments := List.forall₂_same.mpr fun a _ =>
        ⟨rfl, alike_of_inMode hR fun s m => a.valueDraft_inMode s m,
          alike_of_inMode hR fun s m => a.draft_inMode s m⟩ }
  intro s s' hs
  exact hrelated.draft hR (Setting.Twins.settingRelation d) hs

/-- The drafts of a statement in the two modes are related. -/
theorem Statement.alike_modes (hR : Draft.Congruence R) (t : Statement)
    (h : ∀ q ∈ t.queries, q.WindowAlike d R) : Alike (Setting.Twins d) R t.draft t.draft := by
  cases t with
  | query q => exact Query.alike_modes hR q h
  | set s => exact QuerySet.alike_modes hR s h
  | change c => exact Change.alike_modes hR c h

end DialectSql
