import DialectSql.Proofs.Mode
import DialectSql.Proofs.Placeholder

/-!
# Fragments

The two texts of a node are the same fragments with different things between them: the placeholders,
or the literals of the values bound to them. This holds of every node that can be rendered, and
where one text is refused the other is refused for the same reason.

## Main definitions

* `Text.weave` — fragments with texts between them
* `fragmentsOf` — what stands between the constants of a draft
* `Node` — any node that can be rendered by itself

## Main results

* `Draft.written_eq_weave` — a draft is its fragments with its constants between them
* `Node.renderInline_renderBound` — the two texts of a node
-/

namespace DialectSql

/-- A text, and others behind it with a piece in front of each. -/
def Text.weave (first : String) (pieces rest : List String) : String :=
  first ++ String.join (List.zipWith (· ++ ·) pieces rest)

/-- A text in front of woven texts belongs to the first of them. -/
theorem Text.append_weave (t first : String) (pieces rest : List String) :
    t ++ weave first pieces rest = weave (t ++ first) pieces rest := by
  rw [weave, weave, String.append_assoc]

/-- A piece more in front. -/
theorem Text.weave_cons (piece first : String) (pieces rest : List String) :
    weave "" (piece :: pieces) (first :: rest) = piece ++ weave first pieces rest := by
  simp [weave, String.append_assoc]

/-! ## Drafts -/

/-- What stands in front of the first constant, and what stands behind each. -/
def fragmentsOf (d : Dialect) : List Piece → String × List String
  | [] => ("", [])
  | .value _ :: pieces => ("", (fragmentsOf d pieces).1 :: (fragmentsOf d pieces).2)
  | p :: pieces => (p.literalText d ++ (fragmentsOf d pieces).1, (fragmentsOf d pieces).2)

/-- Constants as they are written, counted from `index` on. -/
def writtenConstants (write : Writer) (index : Nat) (values : List Value) : List String :=
  List.zipWith write (List.range' index values.length) values

namespace Draft

variable {d : Dialect}

/-- There is one fragment more than there are constants. -/
theorem length_fragmentsOf (d : Dialect) (pieces : List Piece) :
    (fragmentsOf d pieces).2.length = (pieces.filterMap Piece.value?).length := by
  induction pieces with
  | nil => rfl
  | cons p pieces ih => cases p <;> simp [fragmentsOf, Piece.value?, List.filterMap_cons, ih]

/-- Pieces are written as their fragments with their constants between them. -/
theorem writtenPieces_eq_weave (d : Dialect) (write : Writer) (pieces : List Piece) :
    ∀ index, writtenPieces d write index pieces =
      Text.weave (fragmentsOf d pieces).1
        (writtenConstants write index (pieces.filterMap Piece.value?))
        (fragmentsOf d pieces).2 := by
  induction pieces with
  | nil => exact fun _ => rfl
  | cons p pieces ih =>
    intro index
    cases p with
    | value v =>
      -- A constant ends a fragment and takes a place of its own.
      have hvalues : (Piece.value v :: pieces).filterMap Piece.value? =
          v :: pieces.filterMap Piece.value? := rfl
      rw [writtenPieces, ih (index + 1), fragmentsOf, hvalues, writtenConstants, writtenConstants,
        List.length_cons, List.range'_succ, List.zipWith_cons_cons, Text.weave_cons]
    | _ =>
      -- Every other piece goes in front of the first fragment behind it.
      rw [writtenPieces, ih index, fragmentsOf, List.filterMap_cons_none rfl, Text.append_weave]
      all_goals simp

/-- A draft is written as its fragments with its constants between them. -/
theorem written_eq_weave (write : Writer) (index : Nat) (draft : Draft) :
    draft.written d write index = Text.weave (fragmentsOf d draft.pieces).1
      (writtenConstants write index draft.constants) (fragmentsOf d draft.pieces).2 :=
  writtenPieces_eq_weave d write draft.pieces index

end Draft

/-! ## Constants and their parameters -/

/-- A bound value has the same literal as the value that it is bound for. -/
theorem Value.literal_bound (d : Dialect) (v : Value) : (v.bound d).literal d = v.literal d := by
  cases v with
  | bool b => cases d <;> cases b <;> rfl
  | _ => rfl

section Parameters

variable {σ : Type} (supply : Supply σ) (d : Dialect) (base : String)

/-- Constants are written as the names of their parameters. -/
theorem writtenConstants_placeholders (index : Nat) (values : List Value) (state : σ) :
    writtenConstants (placeholders d base) index values =
      (parametersFrom supply d base index values state).1.map (·.name) := by
  rw [map_name_parametersFrom]
  refine List.ext_getElem (by simp [writtenConstants]) fun i _ _ => ?_
  simp [writtenConstants, placeholders]

/-- The values of parameters have the literals of the constants. -/
theorem map_literal_parametersFrom (index : Nat) (values : List Value) (state : σ) :
    (parametersFrom supply d base index values state).1.map (·.value.literal d) =
      values.map (·.literal d) := by
  induction values generalizing index state with
  | nil => rfl
  | cons v values ih => rw [parametersFrom, List.map_cons, List.map_cons, v.literal_bound, ih]

/-- Constants are written as the literals of the values of their parameters. -/
theorem writtenConstants_literals (index : Nat) (values : List Value) (state : σ) :
    writtenConstants (literals d) index values =
      (parametersFrom supply d base index values state).1.map (·.value.literal d) := by
  rw [map_literal_parametersFrom]
  refine List.ext_getElem (by simp [writtenConstants]) fun i _ _ => ?_
  simp [writtenConstants, literals]

end Parameters

/-! ## Nodes -/

/-- Any node that can be rendered by itself. -/
inductive Node
  | field (f : Field)
  | expression (e : Expression)
  | order (o : Order)
  | projection (p : Projection)
  | assignment (a : Assignment)
  | criteria (c : Criteria)
  | source (r : Source)
  /-- A query, a set operation or a change. -/
  | statement (t : Statement)

namespace Node

/-- The queries of a node. -/
def queries : Node → List Query
  | field _ | expression _ | order _ | projection _ | assignment _ => []
  | criteria c => c.queries
  | source r => r.queries
  | statement t => t.queries

instance : Drafted Node where
  draft
    | field f, s => Drafted.draft f s
    | expression e, s => Drafted.draft e s
    | order o, s => Drafted.draft o s
    | projection p, s => Drafted.draft p s
    | assignment a, s => Drafted.draft a s
    | criteria c, s => Drafted.draft c s
    | source r, s => Drafted.draft r s
    | statement t, s => Drafted.draft t s

variable {d : Dialect} {R : Draft → Draft → Prop}

/-- Limits are no obstacle to a comparison of the modes: in no query at all, or in none of some
queries where no orders are implied. -/
def WindowsAlike (d : Dialect) (R : Draft → Draft → Prop) (queries : List Query) : Prop :=
  (∀ q : Query, q.WindowAlike d R) ∨ d = .oracle ∧ ∀ q ∈ queries, q.WindowAlike d R

/-- Implied orders do not depend on the mode. -/
theorem alike_implied {α : Type} {draft : α → Setting → Draft} {queries : α → List Query}
    (halike : ∀ a, (∀ q ∈ queries a, q.WindowAlike d R) →
      Alike (Setting.Twins d) R (draft a) (draft a))
    (imply : α → α) {a : α} (h : WindowsAlike d R (queries a)) :
    Alike (Setting.Twins d) R (fun s => draft (if s.numbersRows then imply a else a) s)
      (fun s => draft (if s.numbersRows then imply a else a) s) := by
  intro s s' hs
  -- Orders are implied by the dialect, which is the same in both modes.
  have hnumbers : s'.numbersRows = s.numbersRows := by rw [hs.inline]; rfl
  dsimp only
  rw [hnumbers]
  rcases h with h | ⟨rfl, h⟩
  · exact halike _ (fun q _ => h q) hs
  -- A dialect with a pseudo-column implies no orders, so the queries are those of the tree.
  · have hnone : s.numbersRows = false := by rw [Setting.numbersRows, hs.dialect]; rfl
    rw [hnone]
    exact halike a h hs

/-- The drafts of a node in the two modes are related. -/
theorem alike_modes (hR : Draft.Congruence R) (node : Node) (h : WindowsAlike d R node.queries) :
    Alike (Setting.Twins d) R (Drafted.draft node) (Drafted.draft node) := by
  cases node with
  | field f => exact fun _ _ _ => hR.refl _
  | expression e => exact alike_of_inMode hR fun s m => e.draft_inMode s m
  | order o => exact alike_of_inMode hR fun s m => o.draft_inMode s m
  | projection p => exact alike_of_inMode hR fun s m => p.draft_inMode s m
  | assignment a => exact alike_of_inMode hR fun s m => a.draft_inMode s m
  | criteria c => exact alike_implied (Criteria.alike_modes hR) Criteria.implyOrders h
  | source r => exact alike_implied (Source.alike_modes hR) Source.implyOrders h
  | statement t => exact alike_implied (Statement.alike_modes hR) Statement.implyOrders h

section Texts

variable (node : Node) (d : Dialect) (config : Config)

theorem twins_outermost :
    Setting.Twins d (.outermost d config .bound) (.outermost d config .inline) :=
  ⟨rfl, rfl, rfl⟩

/-- A node fails alike in the two modes. -/
theorem failure_modes :
    (Drafted.draft node (.outermost d config .bound)).failure =
      (Drafted.draft node (.outermost d config .inline)).failure :=
  node.alike_modes Draft.SameFailure.congruence (.inl fun q => q.windowAlike_sameFailure d)
    (twins_outermost d config)

/-- A node is the same in the two modes, unless rows are limited by a pseudo-column alone. -/
theorem draft_modes (h : d = .oracle → ∀ q ∈ node.queries, q.take.isSome → q.skip.isSome) :
    Drafted.draft node (.outermost d config .bound) =
      Drafted.draft node (.outermost d config .inline) := by
  refine node.alike_modes .eq ?_ (twins_outermost d config)
  -- The mode is looked at in one dialect only, and there the limits are given.
  by_cases hd : d = .oracle
  · exact .inr ⟨hd, fun q hq => Query.windowAlike_eq fun _ => h hd q hq⟩
  · exact .inl fun q => Query.windowAlike_eq fun hd' => absurd hd' hd

end Texts

/-- The two texts of a node. Each is refused for the same reasons as the other. If rows are not
limited by a pseudo-column alone, then the texts have the same fragments, in one with the names of
the parameters between them and in the other with the literals of the values of the parameters. -/
theorem renderInline_renderBound {σ : Type} (node : Node) (d : Dialect) (config : Config)
    (supply : Supply σ) (state : σ) :
    (∀ e, renderInline node d config = .error e ↔
        renderBound node d config supply state = .error e) ∧
      ∀ sql r, renderInline node d config = .ok sql →
        renderBound node d config supply state = .ok r →
        (d = .oracle → ∀ q ∈ node.queries, q.take.isSome → q.skip.isSome) →
        ∃ first rest, rest.length = r.parameters.length ∧
          r.sql = Text.weave first (r.parameters.map (·.name)) rest ∧
          sql = Text.weave first (r.parameters.map (·.value.literal d)) rest := by
  have hfailure := node.failure_modes d config
  unfold renderInline renderBound
  dsimp only
  refine ⟨fun e => ?_, fun sql r hinline hbound hlimits => ?_⟩
  · rw [hfailure]
    cases (Drafted.draft node (.outermost d config .inline)).failure <;> simp
  · rw [← node.draft_modes d config hlimits] at hinline
    generalize Drafted.draft node (.outermost d config .bound) = draft at hinline hbound
    cases hdraft : draft.failure with
    | some e => simp [hdraft] at hbound
    | none =>
      simp only [hdraft, Except.ok.injEq] at hinline hbound
      subst hinline hbound
      refine ⟨(fragmentsOf d draft.pieces).1, (fragmentsOf d draft.pieces).2, ?_, ?_, ?_⟩
      · rw [length_parametersFrom, Draft.length_fragmentsOf]
        rfl
      · rw [Draft.placeholderText_eq_written, Draft.written_eq_weave,
          writtenConstants_placeholders supply d config.parameterBase 0 draft.constants state]
      · rw [draft.literalText_eq_written d 0, Draft.written_eq_weave,
          writtenConstants_literals supply d config.parameterBase 0 draft.constants state]

/-- A window of a dialect that numbers rows by a pseudo-column, in its two texts. -/
theorem texts_window :
    ∃ sql r first rest,
      renderInline (Node.statement .window) .oracle .standard = .ok sql ∧
        renderBound (Node.statement .window) .oracle .standard .counting 0 = .ok r ∧
        r.sql = Text.weave first [":p0", ":p1", ":p2", ":p3", ":p4"] rest ∧
        sql = Text.weave first ["100", "'@p7'", "1", "2", "1"] rest := by
  have hinline : renderInline (Node.statement .window) .oracle .standard = .ok _ := rfl
  have hbound : renderBound (Node.statement .window) .oracle .standard .counting 0 = .ok _ := rfl
  obtain ⟨-, htexts⟩ :=
    renderInline_renderBound (.statement .window) .oracle .standard .counting 0
  obtain ⟨first, rest, -, hr, hsql⟩ := htexts _ _ hinline hbound (by decide)
  exact ⟨_, _, first, rest, hinline, hbound, hr, hsql⟩

end Node

end DialectSql
