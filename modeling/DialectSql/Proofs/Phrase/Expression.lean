import DialectSql.Proofs.Forms
import DialectSql.Proofs.Names
import DialectSql.Proofs.Phrase

/-!
# Phrases of expressions

The draft of an expression is a phrase whose identifiers are those of the tree. Outside of
parentheses it has no word that would begin a query, order or limit its rows, or combine it with
another one.

## Main results

* `Phrase.operation` — an operator between operands
* `Expression.phrase_draft` — expressions
* `Order.phrase_draft`, `Projection.phrase_draft` — items of an ORDER BY and of a projection
-/

namespace DialectSql

open Text

/-- A phrase that can stand behind the SELECT of a query that is neither ordered nor limited. -/
abbrev InteriorPhrase (N B : String → Prop) (opens closes : Bool) (d : Draft) : Prop :=
  Phrase N B (isInterior · = true) opens closes d

variable {N B : String → Prop} {opens closes opens' closes' : Bool} {a b d : Draft}

namespace Phrase

/-- Keywords and operators inside of a query. -/
theorem keyword (t : String) (hplain : isPlain t = true) (ht : isInterior t = true) :
    InteriorPhrase N B (opensApart t) (closesApart t) (.text t) :=
  .text hplain ht

/-- An operator between two operands. -/
theorem operation {symbol : String} (hsymbol : isOperator symbol = true)
    (ha : InteriorPhrase N B opens closes a) (hb : InteriorPhrase N B opens' closes' b) :
    InteriorPhrase N B opens closes' (a ++ .text (" " ++ symbol ++ " ") ++ b) := by
  simp only [isOperator, Bool.and_eq_true] at hsymbol
  obtain ⟨⟨⟨hplain, hinterior⟩, hopens⟩, hcloses⟩ := hsymbol
  have ht := keyword (N := N) (B := B) _ hplain hinterior
  rw [hopens, hcloses] at ht
  exact ha.separated ht hb

/-- The arguments of a function of two operands. -/
theorem arguments (ha : InteriorPhrase N B opens closes a)
    (hb : InteriorPhrase N B opens' closes' b) :
    InteriorPhrase N B true true (a ++ .text ", " ++ b : Draft).parens :=
  .parens (ha.separated (keyword ", " rfl rfl) hb)

/-- A constant is a word or a value. -/
theorem constant (v : Value) : InteriorPhrase N B false false (.constant v) := by
  unfold Draft.constant
  split
  · exact keyword "NULL" rfl rfl
  · exact .value v

/-- Operands put together by a dialect. -/
theorem concatenation (dialect : Dialect) {parts : List Draft} (hne : parts ≠ [])
    (h : ∀ d ∈ parts, InteriorPhrase N B false false d) :
    InteriorPhrase N B false false (.concatenation dialect parts) := by
  have hcall : ∀ inner : Draft, InteriorPhrase N B true true inner.parens →
      InteriorPhrase N B false false (.text "concat" ++ inner.parens) :=
    fun _ hinner => ((keyword "concat" rfl rfl).followedBy hinner).loose
  have hpairwise : ∀ {parts : List Draft}, (∀ d ∈ parts, InteriorPhrase N B false false d) →
      InteriorPhrase N B false false (Draft.concatenation.pairwise parts) := by
    intro parts
    induction parts with
    | nil => exact fun _ => (Phrase.mark (t := "") rfl rfl).loose
    | cons part parts ih =>
      intro h
      cases parts with
      | nil => exact h part (by simp)
      | cons next parts =>
        have hrest := ih fun d hd => h d (List.mem_cons_of_mem _ hd)
        exact hcall _ (arguments (h part (by simp)) hrest)
  cases dialect with
  | sqlServer | oledb => exact joinWith (keyword " + " rfl rfl) hne h
  | mySql | postgreSql => exact hcall _ (listParens (U := (isInterior · = true)) rfl h)
  | sqlite | other => exact joinWith (keyword " || " rfl rfl) hne h
  | oracle => exact hpairwise h

end Phrase

/-! ## Operators -/

theorem Arithmetic.isOperator_symbol (op : Arithmetic) : isOperator op.symbol = true := by
  cases op <;> rfl

theorem Comparison.isOperator_symbol (op : Comparison) : isOperator op.symbol = true := by
  cases op <;> rfl

theorem Logic.isOperator_symbol (op : Logic) : isOperator op.symbol = true := by
  cases op <;> rfl

theorem Membership.isOperator_symbol (op : Membership) : isOperator op.symbol = true := by
  cases op <;> rfl

/-- The name of a function is no word that frames a query. -/
theorem Expression.words_builtinName (function : Builtin) (dialect : Dialect) :
    isPlain (builtinName function dialect) = true ∧
      isInterior (builtinName function dialect) = true := by
  unfold builtinName
  split <;> exact ⟨rfl, rfl⟩

open Phrase

/-- A column reference is an interior phrase. -/
theorem Field.phrase_draft {f : Field} (h : ∀ n ∈ f.names, N n) :
    InteriorPhrase N B false false f.draft := by
  rw [names, List.forall_mem_cons] at h
  have hname : InteriorPhrase N B true true (.quoted f.name) := .quoted h.1
  unfold draft
  split
  · next source hsource =>
    have hN : N source := h.2 source (by simp [hsource])
    exact ((Phrase.quoted hN).separated (keyword "." rfl rfl) hname).loose
  · exact hname.loose

namespace Expression

variable {s : Setting}

/-- An operand in parentheses or without. -/
theorem phrase_asOperand (e : Expression) (h : InteriorPhrase N B false false d) :
    InteriorPhrase N B false false (e.asOperand d) := by
  unfold asOperand
  split
  · exact (Phrase.parens h).loose
  · exact h

section Nodes

variable {leftDraft rightDraft : Draft} (left right : Expression)
  (hl : InteriorPhrase N B false false leftDraft) (hr : InteriorPhrase N B false false rightDraft)
include hl hr

theorem phrase_arithmeticDraft (op : Arithmetic) :
    InteriorPhrase N B false false (arithmeticDraft s op left right leftDraft rightDraft) := by
  unfold arithmeticDraft
  split
  · exact ((keyword "MOD" rfl rfl).followedBy (arguments hl hr)).loose
  · exact operation (Arithmetic.isOperator_symbol _) (phrase_asOperand left hl)
      (phrase_asOperand right hr)

theorem phrase_plainComparison (op : Comparison) :
    InteriorPhrase N B false false (plainComparison op leftDraft rightDraft) :=
  operation op.isOperator_symbol hl hr

omit hr in
theorem phrase_booleanTest (equality truth : Bool) :
    InteriorPhrase N B false false (booleanTest equality truth leftDraft) := by
  unfold booleanTest
  split
  · exact hl
  · exact ((keyword "NOT " rfl rfl).lead hl).loose

theorem phrase_comparisonDraft (op : Comparison) :
    InteriorPhrase N B false false (comparisonDraft s op left right leftDraft rightDraft) := by
  have hleft := phrase_asOperand left hl
  have hright := phrase_asOperand right hr
  have hnull : ∀ test ∈ [" IS NULL", " IS NOT NULL"], ∀ {d : Draft},
      InteriorPhrase N B false false d → InteriorPhrase N B false false (d ++ .text test) := by
    intro test htest d hd
    rcases List.mem_pair.mp htest with rfl | rfl
    · exact (hd.followedBy (keyword " IS NULL" rfl rfl)).loose
    · exact (hd.followedBy (keyword " IS NOT NULL" rfl rfl)).loose
  have hwrites := writesComparison s op left right leftDraft rightDraft
  generalize comparisonDraft s op left right leftDraft rightDraft = draft at hwrites ⊢
  cases hwrites with
  | nullRight htest => exact hnull _ htest hleft
  | nullLeft htest => exact hnull _ htest hright
  | truthRight => exact phrase_booleanTest hleft _ _
  | truthLeft => exact phrase_booleanTest hright _ _
  | operator => exact phrase_plainComparison hleft hright op

theorem phrase_bitwiseDraft (op : Bitwise) :
    InteriorPhrase N B false false (bitwiseDraft s op left right leftDraft rightDraft) := by
  have hsymbols : ∀ symbol ∈ ["&", "|", "^", "#"], isOperator symbol = true := by decide
  have hwrites := writesBitwise s op left right leftDraft rightDraft
  generalize bitwiseDraft s op left right leftDraft rightDraft = draft at hwrites ⊢
  cases hwrites with
  | operator hsymbol =>
    exact operation (hsymbols _ hsymbol) (phrase_asOperand left hl) (phrase_asOperand right hr)
  | function => exact ((keyword "BITAND" rfl rfl).followedBy (arguments hl hr)).loose
  | missing => exact .fail _

end Nodes

theorem phrase_unaryDraft (op : Unary) (operand : Expression)
    (h : InteriorPhrase N B false false d) :
    InteriorPhrase N B false false (unaryDraft op operand d) := by
  cases op with
  | not => exact ((keyword "NOT " rfl rfl).lead (Phrase.parens h)).loose
  | negate => exact ((keyword "-" rfl rfl).lead (Phrase.parens h)).loose
  | bitNot => exact ((keyword "~" rfl rfl).lead (phrase_asOperand operand h)).loose

theorem phrase_patternDraft (pattern : Expression) (mode : LikeMode)
    (h : InteriorPhrase N B false false d) :
    InteriorPhrase N B false false (patternDraft s pattern d mode) := by
  have hpattern := phrase_asOperand pattern h
  have hwrites := writesPattern s pattern d mode
  generalize patternDraft s pattern d mode = draft at hwrites ⊢
  cases hwrites with
  | folded text => exact .constant _
  | exact => exact hpattern
  | concatenation hne hoperands =>
    refine .concatenation _ hne fun x hx => ?_
    rcases hoperands x hx with rfl | rfl
    · exact (Phrase.mark (t := "%") rfl rfl).loose
    · exact hpattern

theorem phrase_membershipDraft (op : Membership) (subject : Expression) (values : List Value)
    (h : InteriorPhrase N B false false d) :
    InteriorPhrase N B false false (membershipDraft op subject d values) := by
  have hconstants : ∀ x ∈ values.map .constant, InteriorPhrase N B false false x := by
    intro x hx
    obtain ⟨v, -, rfl⟩ := List.mem_map.mp hx
    exact .constant v
  have hvalues : InteriorPhrase N B true true (Draft.list (values.map .constant)).parens :=
    listParens (U := (isInterior · = true)) rfl hconstants
  unfold membershipDraft
  split
  · cases op with
    | isIn => exact (keyword "1<>1" rfl rfl).loose
    | notIn => exact (keyword "1=1" rfl rfl).loose
  · exact (operation op.isOperator_symbol (phrase_asOperand subject h) hvalues).loose

theorem phrase_nowDraft (dialect : Dialect) :
    InteriorPhrase N B false false (nowDraft dialect) := by
  cases dialect with
  | sqlServer => exact ((keyword "GETDATE" rfl rfl).followedBy .noArguments).loose
  | mySql | postgreSql => exact ((keyword "NOW" rfl rfl).followedBy .noArguments).loose
  | sqlite =>
    have hargument : InteriorPhrase N B true true (Draft.text "'now'") := .mark (t := "now") rfl rfl
    exact ((keyword "datetime" rfl rfl).followedBy (Phrase.parens hargument)).loose
  | oracle => exact (keyword "SYSDATE" rfl rfl).loose
  | oledb | other => exact (keyword "CURRENT_TIMESTAMP" rfl rfl).loose

theorem phrase_callDraft (function : Builtin) {args : List Draft} (distinct : Bool)
    (h : ∀ d ∈ args, InteriorPhrase N B false false d) :
    InteriorPhrase N B false false (callDraft s function args distinct) := by
  -- DISTINCT may stand alone, in front of no arguments.
  have hbody : InteriorPhrase N B true true
      ((if distinct then .text "DISTINCT " else .empty) ++ Draft.list args : Draft).parens := by
    split
    · cases args with
      | nil => exact .parens ((keyword "DISTINCT " rfl rfl))
      | cons d ds =>
        exact .parens ((keyword "DISTINCT " rfl rfl).lead
          (joinWith (keyword ", " rfl rfl) (by simp) h))
    · exact listParens (U := (isInterior · = true)) rfl h
  unfold callDraft
  dsimp only
  generalize ((if distinct then .text "DISTINCT " else .empty) ++ Draft.list args : Draft) = body
    at hbody ⊢
  split
  · exact phrase_nowDraft _
  · exact ((keyword "LTRIM" rfl rfl).followedBy
      (.parens ((keyword "RTRIM" rfl rfl).followedBy hbody))).loose
  · obtain ⟨hplain, hinterior⟩ := words_builtinName _ _
    exact ((keyword _ hplain hinterior).followedBy hbody).loose

mutual

/-- The draft of an expression is an interior phrase. -/
theorem phrase_draft :
    ∀ e : Expression, (∀ n ∈ e.names, N n) → InteriorPhrase N B false false (e.draft s)
  | .constant v, _ => .constant v
  | .field f _, h => Field.phrase_draft h
  | .arithmetic op left right, h => by
    rw [names, List.forall_mem_append] at h
    exact phrase_arithmeticDraft left right (phrase_draft left h.1) (phrase_draft right h.2) op
  | .comparison op left right, h => by
    rw [names, List.forall_mem_append] at h
    exact phrase_comparisonDraft left right (phrase_draft left h.1) (phrase_draft right h.2) op
  | .logic op left right, h => by
    rw [names, List.forall_mem_append] at h
    exact operation op.isOperator_symbol (phrase_asOperand left (phrase_draft left h.1))
      (phrase_asOperand right (phrase_draft right h.2))
  | .bitwise op left right, h => by
    rw [names, List.forall_mem_append] at h
    exact phrase_bitwiseDraft left right (phrase_draft left h.1) (phrase_draft right h.2) op
  | .unary op operand, h => phrase_unaryDraft op operand (phrase_draft operand h)
  | .like subject pattern mode, h => by
    rw [names, List.forall_mem_append] at h
    have hlike : isOperator "LIKE" = true := rfl
    exact operation hlike (phrase_asOperand subject (phrase_draft subject h.1))
      (phrase_patternDraft pattern mode (phrase_draft pattern h.2))
  | .membership op subject values, h =>
    phrase_membershipDraft op subject values (phrase_draft subject h)
  | .call function args distinct, h => phrase_callDraft function distinct (phrase_draftList args h)
  | .wildcard (some source), h => by
    have hsource : N source := h source (by simp [names])
    exact ((Phrase.quoted hsource).followedBy (keyword ".*" rfl rfl)).loose
  | .wildcard none, _ => (keyword "*" rfl rfl).loose

/-- The drafts of a list of expressions are interior phrases. -/
theorem phrase_draftList :
    ∀ es : List Expression, (∀ n ∈ namesList es, N n) →
      ∀ d ∈ draftList s es, InteriorPhrase N B false false d
  | [], _ => by simp [draftList]
  | e :: es, h => by
    rw [namesList, List.forall_mem_append] at h
    rw [draftList, List.forall_mem_cons]
    exact ⟨phrase_draft e h.1, phrase_draftList es h.2⟩

end

end Expression

section Items

variable {s : Setting}

/-- An item of an ORDER BY is an interior phrase. -/
theorem Order.phrase_draft {o : Order} (h : ∀ n ∈ o.names, N n) :
    InteriorPhrase N B false false (o.draft s) := by
  have he : InteriorPhrase N B false false (o.expression.draft s) := Expression.phrase_draft _ h
  obtain ⟨e, direction⟩ := o
  cases direction with
  | asc => exact (he.followedBy (keyword " ASC" rfl rfl)).loose
  | desc => exact (he.followedBy (keyword " DESC" rfl rfl)).loose

/-- An item of a projection is an interior phrase. -/
theorem Projection.phrase_draft {p : Projection} (h : ∀ n ∈ p.names, N n) :
    InteriorPhrase N B false false (p.draft s) := by
  rw [names, List.forall_mem_append] at h
  have he : InteriorPhrase N B false false (p.expression.draft s) :=
    Expression.phrase_draft _ h.1
  unfold draft
  split
  · next name hname =>
    have hN : N name := h.2 name (by simp [hname])
    exact (he.separated (keyword " AS " rfl rfl) (Phrase.quoted hN)).loose
  · exact he

end Items

end DialectSql
