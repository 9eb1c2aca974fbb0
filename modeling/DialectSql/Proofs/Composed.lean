import DialectSql.Proofs.Forms
import DialectSql.Proofs.Word

/-!
# Composed drafts

Drafts are put together from texts, identifiers and constants, one behind the other and between
parentheses. A constant is never NULL, and the only thing that cuts a draft short is a construct
that the dialect lacks. What is true of the parts of every draft is proved by induction on the way
in which it was put together.

This module is about expressions. Their texts are operators and names of functions, so that no
clause of a query is found in them, not even between parentheses.

## Main definitions

* `Dialect.missing` — the constructs of queries that a dialect lacks
* `Draft.Composed` — drafts that are put together from parts of their dialect
* `Text.isOperand` — texts that have no word of a clause

## Main results

* `Draft.joinWith_induction` — drafts one behind the other
* `Draft.Composed.failure_eq` — the constructs that cut composed drafts short
* `Expression.composed_draft`, `Order.composed_draft`, `Projection.composed_draft` — expressions and
  what is made of them are composed
-/

namespace DialectSql

/-- The constructs of queries that a dialect lacks. -/
def Dialect.missing : Dialect → List Feature
  | mySql => [.intersect, .except]
  | sqlite => [.bitwiseXor]
  | oracle => [.bitwiseOr, .bitwiseXor]
  | sqlServer | postgreSql | oledb | other => []

/-- The words that begin a clause, a source or a name. -/
def Text.clauseWords : List String :=
  frameWords ++ ["FROM", "WHERE", "GROUP", "HAVING", "INNER", "LEFT", "RIGHT", "JOIN", "ON", "AS"]

/-- Whether a text has no word of a clause. -/
def Text.isOperand (t : String) : Bool := (words t).all (!clauseWords.contains ·)

namespace Draft

/-- What is true of drafts and of the text between them is true of them one behind the other, if it
is kept by sequences. -/
theorem joinWith_induction {P : Draft → Prop} {separator : String} (hempty : P .empty)
    (happend : ∀ {a b : Draft}, P a → P b → P (a ++ b)) (hseparator : P (.text separator)) :
    ∀ {ds : List Draft}, (∀ a ∈ ds, P a) → P (.joinWith separator ds)
  | [], _ => hempty
  | [a], h => h a (by simp)
  | a :: b :: ds, h => by
    have hrest : P (.joinWith separator (b :: ds)) :=
      joinWith_induction hempty happend hseparator fun x hx => h x (List.mem_cons_of_mem a hx)
    exact happend (happend (h a (by simp)) hseparator) hrest

/-- Drafts that are put together from texts of a class, identifiers and constants. -/
inductive Composed (d : Dialect) (T : String → Prop) : Draft → Prop
  /-- Nothing. -/
  | empty : Composed d T .empty
  /-- Keywords, numbers and operators. -/
  | text {t : String} (ht : T t) : Composed d T (.text t)
  /-- An identifier between quotes. -/
  | quoted (name : String) : Composed d T (.quoted name)
  /-- An identifier without quotes. -/
  | bare (name : String) : Composed d T (.piece (.bare name))
  /-- A constant. -/
  | value {v : Value} (hv : v.isNull = false) : Composed d T (.piece (.value v))
  /-- A construct that the dialect lacks. -/
  | missing {f : Feature} (hf : f ∈ d.missing) : Composed d T (.fail (.unsupported d f))
  /-- One draft behind another. -/
  | append {a b : Draft} (ha : Composed d T a) (hb : Composed d T b) : Composed d T (a ++ b)
  /-- A draft between parentheses. -/
  | parens {a : Draft} (ha : Composed d T a) : Composed d T a.parens

namespace Composed

variable {d : Dialect} {T U : String → Prop} {a b c : Draft}

/-- Texts may be counted to a larger class. -/
theorem mono (h : Composed d T a) (hTU : ∀ t, T t → U t) : Composed d U a := by
  induction h with
  | empty => exact .empty
  | text ht => exact .text (hTU _ ht)
  | quoted name => exact .quoted name
  | bare name => exact .bare name
  | value hv => exact .value hv
  | missing hf => exact .missing hf
  | append _ _ iha ihb => exact .append iha ihb
  | parens _ ih => exact .parens ih

/-- What cuts a composed draft short is a construct that the dialect lacks. -/
theorem failure_eq (h : Composed d T a) {e : Error} (he : a.failure = some e) :
    ∃ f ∈ d.missing, e = .unsupported d f := by
  induction h with
  | empty | text | quoted | bare | value => cases he
  | missing hf =>
    cases he
    exact ⟨_, hf, rfl⟩
  | append _ _ iha ihb =>
    rw [failure_append, Option.or_eq_some_iff] at he
    rcases he with ha | ⟨-, hb⟩
    · exact iha ha
    · exact ihb hb
  | parens _ ih =>
    rw [Draft.parens, failure_append, failure_append] at he
    simp only [piece, Option.none_or, Option.or_none] at he
    exact ih he

/-! ### Shapes -/

/-- An optional draft in a sequence. -/
theorem ite {p : Prop} [Decidable p] (ha : Composed d T a) (hb : Composed d T b) :
    Composed d T (if p then a else b) := by
  split
  · exact ha
  · exact hb

/-- A text in front of a draft. -/
theorem lead {t : String} (ht : T t) (ha : Composed d T a) : Composed d T (.text t ++ a) :=
  .append (.text ht) ha

/-- A text between two drafts. -/
theorem separated {t : String} (ha : Composed d T a) (ht : T t) (hb : Composed d T b) :
    Composed d T (a ++ .text t ++ b) :=
  .append (.append ha (.text ht)) hb

theorem joinWith {separator : String} {ds : List Draft} (h : ∀ a ∈ ds, Composed d T a)
    (hs : T separator) : Composed d T (.joinWith separator ds) :=
  joinWith_induction .empty .append (.text hs) h

/-- A comma-separated list. -/
theorem list {ds : List Draft} (h : ∀ a ∈ ds, Composed d T a) (hcomma : T ", ") :
    Composed d T (.list ds) :=
  joinWith h hcomma

/-- A list of items with composed drafts. -/
theorem items {α : Type} {f : α → Draft} {xs : List α} (h : ∀ x ∈ xs, Composed d T (f x))
    (hcomma : T ", ") : Composed d T (.list (xs.map f)) :=
  list (List.forall_mem_map.mpr h) hcomma

/-- A constant, or the keyword for one that is NULL. -/
theorem constant (v : Value) (hnull : T "NULL") : Composed d T (.constant v) := by
  unfold Draft.constant
  cases hv : v.isNull with
  | true => exact .text hnull
  | false => exact .value hv

end Composed

end Draft

/-! ## Expressions -/

/-- Drafts in which no word of a clause stands, not even between parentheses. -/
abbrev OperandDraft (d : Dialect) (a : Draft) : Prop := a.Composed d (Text.isOperand · = true)

open Text Draft

namespace OperandDraft

variable {d : Dialect}

theorem constant (v : Value) : OperandDraft d (.constant v) := Composed.constant v rfl

/-- Operands put together by a dialect. -/
theorem concatenation (dialect : Dialect) {parts : List Draft}
    (h : ∀ a ∈ parts, OperandDraft d a) : OperandDraft d (.concatenation dialect parts) := by
  have hcall : ∀ {inner : Draft}, OperandDraft d inner →
      OperandDraft d (.text "concat" ++ inner.parens) :=
    fun hinner => .lead rfl (.parens hinner)
  have hpairwise : ∀ {parts : List Draft}, (∀ a ∈ parts, OperandDraft d a) →
      OperandDraft d (Draft.concatenation.pairwise parts) := by
    intro parts
    induction parts with
    | nil => exact fun _ => .text rfl
    | cons part parts ih =>
      intro h
      cases parts with
      | nil => exact h part (by simp)
      | cons next parts =>
        have hrest := ih fun a ha => h a (List.mem_cons_of_mem part ha)
        exact hcall (.separated (h part (by simp)) rfl hrest)
  cases dialect with
  | sqlServer | oledb => exact .joinWith h rfl
  | mySql | postgreSql => exact hcall (.list h rfl)
  | sqlite | other => exact .joinWith h rfl
  | oracle => exact hpairwise h

end OperandDraft

/-- A column reference is composed. -/
theorem Field.composed_draft (f : Field) (d : Dialect) : OperandDraft d f.draft := by
  unfold draft
  split
  · exact .separated (.quoted _) rfl (.quoted _)
  · exact .quoted _

namespace Expression

variable {s : Setting} {d : Dialect} {a : Draft}

/-- An operand in parentheses or without. -/
theorem composed_asOperand (e : Expression) (h : OperandDraft d a) :
    OperandDraft d (e.asOperand a) :=
  .ite (.parens h) h

section Nodes

variable {leftDraft rightDraft : Draft} (left right : Expression)
  (hl : OperandDraft s.dialect leftDraft) (hr : OperandDraft s.dialect rightDraft)
include hl hr

theorem composed_arithmeticDraft (op : Arithmetic) :
    OperandDraft s.dialect (arithmeticDraft s op left right leftDraft rightDraft) := by
  have hsymbol : ∀ op : Arithmetic, isOperand (" " ++ op.symbol ++ " ") = true := by
    intro op
    cases op <;> rfl
  unfold arithmeticDraft
  split
  · exact .lead rfl (.parens (.separated hl rfl hr))
  · exact .separated (composed_asOperand left hl) (hsymbol _) (composed_asOperand right hr)

theorem composed_plainComparison (op : Comparison) :
    OperandDraft s.dialect (plainComparison op leftDraft rightDraft) := by
  refine .separated hl ?_ hr
  cases op <;> rfl

theorem composed_comparisonDraft (op : Comparison) :
    OperandDraft s.dialect (comparisonDraft s op left right leftDraft rightDraft) := by
  have hleft := composed_asOperand left hl
  have hright := composed_asOperand right hr
  have htruth : ∀ (equality truth : Bool) {a : Draft}, OperandDraft s.dialect a →
      OperandDraft s.dialect (booleanTest equality truth a) :=
    fun _ _ _ ha => .ite ha (.lead rfl ha)
  have hnull : ∀ test ∈ [" IS NULL", " IS NOT NULL"], isOperand test = true := by decide
  have hwrites := writesComparison s op left right leftDraft rightDraft
  generalize comparisonDraft s op left right leftDraft rightDraft = draft at hwrites ⊢
  cases hwrites with
  | nullRight htest => exact .append hleft (.text (hnull _ htest))
  | nullLeft htest => exact .append hright (.text (hnull _ htest))
  | truthRight => exact htruth _ _ hleft
  | truthLeft => exact htruth _ _ hright
  | operator => exact composed_plainComparison hleft hright op

theorem composed_bitwiseDraft (op : Bitwise) :
    OperandDraft s.dialect (bitwiseDraft s op left right leftDraft rightDraft) := by
  have hsymbols : ∀ symbol ∈ ["&", "|", "^", "#"], isOperand (" " ++ symbol ++ " ") = true := by
    decide
  have hwrites := writesBitwise s op left right leftDraft rightDraft
  generalize bitwiseDraft s op left right leftDraft rightDraft = draft at hwrites ⊢
  cases hwrites with
  | operator hsymbol =>
    exact .separated (composed_asOperand left hl) (hsymbols _ hsymbol)
      (composed_asOperand right hr)
  | function => exact .lead rfl (.parens (.separated hl rfl hr))
  | missing hmissing =>
    refine .missing ?_
    unfold bitwiseForm at hmissing
    split at hmissing <;> cases hmissing <;> simp_all [Dialect.missing]

end Nodes

theorem composed_unaryDraft (op : Unary) (operand : Expression) (h : OperandDraft d a) :
    OperandDraft d (unaryDraft op operand a) := by
  cases op with
  | not => exact .lead rfl (.parens h)
  | negate => exact .lead rfl (.parens h)
  | bitNot => exact .lead rfl (composed_asOperand operand h)

theorem composed_patternDraft (pattern : Expression) (mode : LikeMode) (h : OperandDraft d a) :
    OperandDraft d (patternDraft s pattern a mode) := by
  have hpattern := composed_asOperand pattern h
  have hwrites := writesPattern s pattern a mode
  generalize patternDraft s pattern a mode = draft at hwrites ⊢
  cases hwrites with
  | folded text => exact OperandDraft.constant _
  | exact => exact hpattern
  | concatenation _ hoperands =>
    refine OperandDraft.concatenation _ fun x hx => ?_
    rcases hoperands x hx with rfl | rfl
    · exact .text rfl
    · exact hpattern

theorem composed_membershipDraft (op : Membership) (subject : Expression) (values : List Value)
    (h : OperandDraft d a) : OperandDraft d (membershipDraft op subject a values) := by
  have hvalues : OperandDraft d (Draft.list (values.map .constant)) :=
    .items (fun v _ => OperandDraft.constant v) rfl
  unfold membershipDraft
  refine .ite (.text ?_) (.separated (composed_asOperand subject h) ?_ (.parens hvalues))
  · cases op <;> rfl
  · cases op <;> rfl

theorem composed_nowDraft (dialect : Dialect) : OperandDraft d (nowDraft dialect) := by
  cases dialect with
  | sqlServer | mySql | postgreSql => exact .lead rfl (.parens .empty)
  | sqlite => exact .lead rfl (.parens (.text rfl))
  | oracle | oledb | other => exact .text rfl

theorem composed_callDraft (function : Builtin) {args : List Draft} (distinct : Bool)
    (h : ∀ a ∈ args, OperandDraft d a) : OperandDraft d (callDraft s function args distinct) := by
  have hbody : OperandDraft d
      ((if distinct then .text "DISTINCT " else .empty) ++ Draft.list args : Draft).parens :=
    .parens (.append (.ite (.text rfl) .empty) (.list h rfl))
  have hname : ∀ function dialect, isOperand (builtinName function dialect) = true := by
    intro function dialect
    unfold builtinName
    split <;> rfl
  unfold callDraft
  dsimp only
  split
  · exact composed_nowDraft _
  · exact .lead rfl (.parens (.lead rfl hbody))
  · exact .lead (hname _ _) hbody

mutual

/-- The draft of an expression is composed. -/
theorem composed_draft (s : Setting) : ∀ e : Expression, OperandDraft s.dialect (e.draft s)
  | .constant v => OperandDraft.constant v
  | .field f _ => f.composed_draft s.dialect
  | .arithmetic op left right =>
    composed_arithmeticDraft left right (composed_draft s left) (composed_draft s right) op
  | .comparison op left right =>
    composed_comparisonDraft left right (composed_draft s left) (composed_draft s right) op
  | .logic op left right => by
    refine .separated (composed_asOperand left (composed_draft s left)) ?_
      (composed_asOperand right (composed_draft s right))
    cases op <;> rfl
  | .bitwise op left right =>
    composed_bitwiseDraft left right (composed_draft s left) (composed_draft s right) op
  | .unary op operand => composed_unaryDraft op operand (composed_draft s operand)
  | .like subject pattern mode =>
    .separated (composed_asOperand subject (composed_draft s subject)) rfl
      (composed_patternDraft pattern mode (composed_draft s pattern))
  | .membership op subject values =>
    composed_membershipDraft op subject values (composed_draft s subject)
  | .call function args distinct =>
    composed_callDraft function distinct (composed_draftList s args)
  | .wildcard (some source) => .append (.quoted source) (.text rfl)
  | .wildcard none => .text rfl

/-- The drafts of a list of expressions are composed. -/
theorem composed_draftList (s : Setting) :
    ∀ es : List Expression, ∀ a ∈ draftList s es, OperandDraft s.dialect a
  | [] => by simp [draftList]
  | e :: es => by
    rw [draftList, List.forall_mem_cons]
    exact ⟨composed_draft s e, composed_draftList s es⟩

end

end Expression

/-- An item of an ORDER BY is composed. -/
theorem Order.composed_draft (o : Order) (s : Setting) : OperandDraft s.dialect (o.draft s) := by
  refine .append (o.expression.composed_draft s) (.text ?_)
  cases o.direction <;> rfl

/-- An item of a projection is composed. It is the only one with a name. -/
theorem Projection.composed_draft {T : String → Prop} (hT : ∀ t, isOperand t = true → T t)
    (hAs : T " AS ") (p : Projection) (s : Setting) : (p.draft s).Composed s.dialect T := by
  have he : (p.expression.draft s).Composed s.dialect T := (p.expression.composed_draft s).mono hT
  unfold draft
  split
  · exact .separated he hAs (.quoted _)
  · exact he

end DialectSql
