import DialectSql.Proofs.Composed.Statement
import DialectSql.Proofs.Fragment

/-!
# Refusals

Why a statement cannot be written. A change is refused before anything of it is written if its
target is no table, if it is an UPDATE that assigns nothing, or if the dialect cannot change a join.
Everything else is written up to the first construct of a query that the dialect lacks, and to the
end if there is none. The orders that are implied where rows are numbered are never a reason.

## Main definitions

* `Change.refusal?`, `Node.refusal?` — the reason for which nothing is written

## Main results

* `Change.draft_of_refusal`, `Change.composed_draft` — a change with such a reason, and without
* `Node.render_reasons` — the reasons for which a node is not rendered
* `Dialect.exists_of_missing` — each construct that a dialect lacks is a reason
-/

namespace DialectSql

namespace Change

/-- The reason for which a change is refused before anything of it is written. -/
def refusal? (c : Change) (d : Dialect) : Option Error :=
  match c.source.leftmost, c.kind with
  | .select _ _, _ | .set _ _, _ => some (.malformed .targetNotTable)
  | .table _, .insert => none
  | .table _, .update =>
    if c.assignments.isEmpty then some (.malformed .nothingAssigned)
    else if c.source.isJoined ∧ d = .sqlite then some (.unsupported d .joinedUpdate)
    else none
  | .table _, .delete =>
    if c.source.isJoined ∧ (d = .sqlite ∨ d = .postgreSql) then
      some (.unsupported d .joinedDelete)
    else none

variable (c : Change) {s : Setting}

/-- A join as the target of an UPDATE is refused by one dialect. -/
theorem refusesUpdate_iff (d : Dialect) :
    (c.source.isJoined && !d.supportsJoinedUpdate) = true ↔ c.source.isJoined ∧ d = .sqlite := by
  cases d <;> simp [Dialect.supportsJoinedUpdate]

/-- A join as the target of a DELETE is refused by two dialects. -/
theorem refusesDelete_iff (d : Dialect) :
    (c.source.isJoined && !d.supportsJoinedDelete) = true ↔
      c.source.isJoined ∧ (d = .sqlite ∨ d = .postgreSql) := by
  cases d <;> simp [Dialect.supportsJoinedDelete]

/-- A change that is refused is not begun. -/
theorem draft_of_refusal {e : Error} (h : c.refusal? s.dialect = some e) :
    c.draft s = .fail e := by
  -- The target is looked at first, and then what the kind of the change asks for.
  unfold refusal? at h
  unfold draft target
  cases htarget : c.source.leftmost with
  | select | set =>
    simp only [htarget] at h
    cases h
    rfl
  | table t =>
    cases hkind : c.kind with
    | insert => simp [htarget, hkind] at h
    | update =>
      simp only [htarget, hkind] at h
      simp only [Draft.ofExcept, updateDraft, refusesUpdate_iff]
      split at h
      · next hnone => cases h; rw [if_pos hnone]
      · next hsome =>
        rw [if_neg hsome]
        split at h
        · next hjoined => cases h; rw [if_pos hjoined]
        · cases h
    | delete =>
      simp only [htarget, hkind] at h
      simp only [Draft.ofExcept, deleteDraft, refusesDelete_iff]
      split at h
      · next hjoined => cases h; rw [if_pos hjoined]
      · cases h

/-- A change that is not refused is cut short by nothing but its queries and expressions. -/
theorem composed_draft (h : c.refusal? s.dialect = none) : AnyDraft s.dialect (c.draft s) := by
  have hfilter : AnyDraft s.dialect (c.filterDraft s) := c.composed_filterDraft
  have hsource : AnyDraft s.dialect (c.source.draft s) := c.source.composed_draft s
  have hsymbol : AnyDraft s.dialect (s.changeName c.source.leftmost.symbol) :=
    s.composed_changeName _
  unfold refusal? at h
  unfold draft target
  cases htarget : c.source.leftmost with
  | select | set => simp [htarget] at h
  | table t =>
    rw [htarget] at hsymbol
    cases hkind : c.kind with
    | insert => exact c.composed_insertDraft t
    | update =>
      simp only [htarget, hkind] at h
      simp only [Draft.ofExcept, updateDraft, refusesUpdate_iff, htarget]
      split at h
      · cases h
      · next hassigned =>
        split at h
        · cases h
        · next hjoined =>
          rw [if_neg hassigned, if_neg hjoined]
          exact .ite (.append (.separated (c.composed_assigned hsymbol) trivial hsource) hfilter)
            (.append (c.composed_assigned c.composed_headDraft) hfilter)
    | delete =>
      simp only [htarget, hkind] at h
      simp only [Draft.ofExcept, deleteDraft, refusesDelete_iff, htarget]
      split at h
      · cases h
      · next hjoined =>
        rw [if_neg hjoined]
        exact .append (.ite (.separated (.lead trivial hsymbol) trivial hsource)
          (.lead trivial c.composed_headDraft)) hfilter

/-! ### Implied orders -/

/-- Implied orders leave a source the target that it is. -/
theorem leftmost_implyOrders (r : Source) : r.implyOrders.leftmost = r.leftmost.implyOrders := by
  cases r with
  | single r => rw [Source.implyOrders, Source.leftmost, Source.leftmost]
  | joined kind left right on =>
    rw [Source.implyOrders, Source.leftmost, leftmost_implyOrders left, Source.leftmost]

/-- Implied orders are no reason to refuse a change, and remove none. -/
@[simp] theorem refusal?_implyOrders (d : Dialect) : c.implyOrders.refusal? d = c.refusal? d := by
  obtain ⟨kind, source, criteria, assignments⟩ := c
  have hjoined : source.implyOrders.isJoined = source.isJoined := by
    cases source <;> simp [Source.implyOrders, Source.isJoined]
  unfold refusal? implyOrders
  simp only [leftmost_implyOrders, hjoined]
  cases source.leftmost <;> simp only [Relation.implyOrders]

end Change

namespace Node

/-- The reason for which nothing of a node is written. -/
def refusal? : Node → Dialect → Option Error
  | statement (.change c), d => c.refusal? d
  | _, _ => none

variable {s : Setting}

/-- A node that is refused is not begun. -/
theorem draft_of_refusal {node : Node} {e : Error} (h : node.refusal? s.dialect = some e) :
    Drafted.draft node s = .fail e := by
  cases node with
  | statement t =>
    cases t with
    | change c =>
      have himplied : (if s.numbersRows then c.implyOrders else c).refusal? s.dialect = some e := by
        split
        · rwa [Change.refusal?_implyOrders]
        · exact h
      have hdraft := Change.draft_of_refusal _ himplied
      rw [← hdraft]
      change (if s.numbersRows then Statement.implyOrders _ else _ : Statement).draft s = _
      split <;> rfl
    | query | set => cases h
  | _ => cases h

/-- A node that is not refused is cut short by nothing but its queries and expressions. -/
theorem composed_draft {node : Node} (h : node.refusal? s.dialect = none) :
    AnyDraft s.dialect (Drafted.draft node s) := by
  cases node with
  | field f => exact (f.composed_draft s.dialect).any
  | expression e => exact (e.composed_draft s).any
  | order o => exact (o.composed_draft s).any
  | projection p => exact p.composed_draft (fun _ _ => trivial) trivial s
  | assignment a => exact a.composed_draft s
  | criteria c => exact Criteria.composed_draft _ s
  | source r => exact Source.composed_draft _ s
  | statement t =>
    change AnyDraft s.dialect ((if s.numbersRows then t.implyOrders else t : Statement).draft s)
    cases t with
    | query q =>
      split
      · exact q.implyOrders.composed_draft s
      · exact q.composed_draft s
    | set q =>
      split
      · exact q.implyOrders.composed_draft s
      · exact q.composed_draft s
    | change c =>
      split
      · exact c.implyOrders.composed_draft (by rwa [Change.refusal?_implyOrders])
      · exact c.composed_draft h

/-- The texts of a node fail for the reason for which its draft was cut short. -/
theorem render_of_failure {σ : Type} (node : Node) (d : Dialect) (config : Config)
    (supply : Supply σ) (state : σ) :
    match (Drafted.draft node (.outermost d config .inline)).failure with
    | some e =>
      renderInline node d config = .error e ∧ renderBound node d config supply state = .error e
    | none =>
      (∃ sql, renderInline node d config = .ok sql) ∧
        ∃ r, renderBound node d config supply state = .ok r := by
  have hmodes := node.failure_modes d config
  unfold renderInline renderBound
  cases h : (Drafted.draft node (.outermost d config .inline)).failure with
  | some e => simp [hmodes, h]
  | none => simp [hmodes, h]

/-- The reasons for which a node is not rendered. A change with another target than a table, an
UPDATE that assigns nothing, and a change of a join that the dialect cannot change are refused
before anything else. Every other node has both its texts, or else it has neither because the
dialect lacks a construct of a query. -/
theorem render_reasons {σ : Type} (node : Node) (d : Dialect) (config : Config)
    (supply : Supply σ) (state : σ) :
    match node.refusal? d with
    | some e =>
      renderInline node d config = .error e ∧ renderBound node d config supply state = .error e
    | none =>
      ((∃ sql, renderInline node d config = .ok sql) ∧
          ∃ r, renderBound node d config supply state = .ok r) ∨
        ∃ f ∈ d.missing, renderInline node d config = .error (.unsupported d f) ∧
          renderBound node d config supply state = .error (.unsupported d f) := by
  have hrender := node.render_of_failure d config supply state
  cases hrefusal : node.refusal? d with
  | some e =>
    have hdraft : Drafted.draft node (.outermost d config .inline) = .fail e :=
      draft_of_refusal hrefusal
    simpa only [hdraft, Draft.fail] using hrender
  | none =>
    have hcomposed : AnyDraft d (Drafted.draft node (.outermost d config .inline)) :=
      composed_draft (s := .outermost d config .inline) hrefusal
    cases hfailure : (Drafted.draft node (.outermost d config .inline)).failure with
    | none =>
      rw [hfailure] at hrender
      exact .inl hrender
    | some e =>
      -- What is composed can only lack a construct.
      obtain ⟨f, hf, rfl⟩ := hcomposed.failure_eq hfailure
      rw [hfailure] at hrender
      exact .inr ⟨f, hf, hrender⟩

end Node

/-- No construct is said to be missing for nothing: some node needs it. -/
theorem Dialect.exists_of_missing {d : Dialect} {f : Feature} (h : f ∈ d.missing) :
    ∃ node : Node, node.refusal? d = none ∧
      ∀ config, renderInline node d config = .error (.unsupported d f) := by
  -- Two tables under a set operator, or two stars under an operator on bits.
  let combined (operator : SetOperator) : Node :=
    .statement (.set (.combine operator (.query (.ofTable "A")) (.query (.ofTable "B"))))
  let bits (op : Bitwise) : Node := .expression (.bitwise op (.wildcard none) (.wildcard none))
  cases d with
  | mySql =>
    rcases List.mem_pair.mp h with rfl | rfl
    · exact ⟨combined .intersect, rfl, fun _ => rfl⟩
    · exact ⟨combined .except, rfl, fun _ => rfl⟩
  | oracle =>
    rcases List.mem_pair.mp h with rfl | rfl
    · exact ⟨bits .or, rfl, fun _ => rfl⟩
    · exact ⟨bits .xor, rfl, fun _ => rfl⟩
  | sqlite =>
    obtain rfl := List.mem_singleton.mp h
    exact ⟨bits .xor, rfl, fun _ => rfl⟩
  | sqlServer | postgreSql | oledb | other => cases h

end DialectSql
