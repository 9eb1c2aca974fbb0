import DialectSql.Draft.Change
import DialectSql.Draft.Reading
import DialectSql.Query.ImpliedOrder
import DialectSql.Statement

/-!
# Rendering

The text of any node of a statement, alone with literals or with placeholders and their parameters.

## Main definitions

* `Drafted` — what can be rendered
* `renderInline` — the text with literals
* `renderBound`, `Rendered` — the text with placeholders, and the parameters
-/

namespace DialectSql

/-- What can be rendered by itself or as part of a statement. -/
class Drafted (α : Type) where
  /-- The draft of a node in a setting. -/
  draft : α → Setting → Draft

/-- Whether rows are skipped by their numbers, so that implied orders matter. -/
def Setting.numbersRows (s : Setting) : Bool := s.dialect.rowLimiting = .numbering

/-- A change with the implied orders of its subqueries. -/
def Change.implyOrders (c : Change) : Change :=
  { c with source := c.source.implyOrders, criteria := Criteria.implyOrdersOption c.criteria }

/-- A statement with its implied orders. -/
def Statement.implyOrders : Statement → Statement
  | query q => query q.implyOrders
  | set r => set r.implyOrders
  | change c => change c.implyOrders

/-- A statement in a setting. -/
def Statement.draft : Statement → Setting → Draft
  | query q, s => q.draft s
  | set r, s => r.draft s
  | change c, s => c.draft s

instance : Drafted Field := ⟨fun f _ => f.draft⟩
instance : Drafted Expression := ⟨fun e s => e.draft s⟩
instance : Drafted Order := ⟨fun o s => o.draft s⟩
instance : Drafted Projection := ⟨fun p s => p.draft s⟩
instance : Drafted Assignment := ⟨fun a s => a.draft s⟩

instance : Drafted Criteria where
  draft c s := (if s.numbersRows then c.implyOrders else c).draft s

instance : Drafted Source where
  draft c s := (if s.numbersRows then c.implyOrders else c).draft s

instance : Drafted Query where
  draft q s := (if s.numbersRows then q.implyOrders else q).draft s

instance : Drafted QuerySet where
  draft q s := (if s.numbersRows then q.implyOrders else q).draft s

instance : Drafted Change where
  draft c s := (if s.numbersRows then c.implyOrders else c).draft s

instance : Drafted Statement where
  draft t s := (if s.numbersRows then t.implyOrders else t).draft s

/-- The setting outside all subqueries. -/
def Setting.outermost (dialect : Dialect) (config : Config) (mode : Mode) : Setting :=
  ⟨dialect, config, mode, 0⟩

/-- The text of a node with literals for its constants. -/
def renderInline {α : Type} [Drafted α] (node : α) (d : Dialect) (config : Config) :
    Except Error String :=
  let draft := Drafted.draft node (.outermost d config .inline)
  match draft.failure with
  | some e => .error e
  | none => .ok (draft.literalText d)

/-- A text with placeholders, its parameters, and the state in which their supply was left. -/
structure Rendered (σ : Type) where
  /-- The text. -/
  sql : String
  /-- The parameters, in the order of their placeholders. -/
  parameters : List Parameter
  /-- The state of the supply. -/
  state : σ

/-- The text of a node with placeholders for its constants. -/
def renderBound {α σ : Type} [Drafted α] (node : α) (d : Dialect) (config : Config)
    (supply : Supply σ) (state : σ) : Except Error (Rendered σ) :=
  let draft := Drafted.draft node (.outermost d config .bound)
  match draft.failure with
  | some e => .error e
  | none =>
    let (parameters, state) :=
      parametersFrom supply d config.parameterBase 0 draft.constants state
    .ok ⟨draft.placeholderText d config.parameterBase 0, parameters, state⟩

end DialectSql
