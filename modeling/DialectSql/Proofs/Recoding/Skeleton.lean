import DialectSql.Proofs.Placeholder
import DialectSql.Proofs.Recoding.Order
import DialectSql.Proofs.Related

/-!
# Skeletons of recoded statements

The skeleton of a draft is the draft without its constants. A statement and its recoding have drafts
with the same skeleton, and a text with placeholders has no more than the skeleton. So no constant
leaks into the text.

## Main definitions

* `Draft.skeleton`, `Draft.SameSkeleton` — a draft without its constants

## Main results

* `Expression.sameSkeleton_recode`, `Query.alike_recode`, … — recoding keeps the skeleton
* `Statement.renderBound_recode` — recoding keeps the text with placeholders and the names
-/

namespace DialectSql

/-! ## Skeletons -/

/-- A piece without its constant. -/
def Piece.skeleton : Piece → Piece
  | value _ => value .null
  | p => p

namespace Draft

/-- A draft without its constants. -/
def skeleton (d : Draft) : Draft := ⟨d.pieces.map Piece.skeleton, d.failure⟩

/-- Drafts that differ in their constants at most. -/
def SameSkeleton (a b : Draft) : Prop := a.skeleton = b.skeleton

theorem skeleton_append (a b : Draft) : (a ++ b).skeleton = a.skeleton ++ b.skeleton := by
  obtain ⟨pieces, failure⟩ := a
  cases failure with
  | some e => rfl
  | none =>
    rw [append_of_success rfl, append_of_success (a := skeleton ⟨pieces, none⟩) rfl]
    simp [skeleton]

theorem SameSkeleton.congruence : Congruence SameSkeleton where
  refl _ := rfl
  append ha hb := by
    unfold SameSkeleton at *
    rw [skeleton_append, skeleton_append, ha, hb]

/-- Drafts with one skeleton fail alike. -/
theorem SameSkeleton.failure_eq {a b : Draft} (h : SameSkeleton a b) : a.failure = b.failure := by
  have hfailure : a.skeleton.failure = b.skeleton.failure := congrArg Draft.failure h
  exact hfailure

/-- Drafts with one skeleton have as many constants. -/
theorem SameSkeleton.length_constants {a b : Draft} (h : SameSkeleton a b) :
    a.constants.length = b.constants.length := by
  -- The skeleton keeps a piece for each constant.
  have hlength : ∀ pieces : List Piece, (pieces.filterMap Piece.value?).length =
      ((pieces.map Piece.skeleton).filterMap Piece.value?).length := by
    intro pieces
    induction pieces with
    | nil => rfl
    | cons p pieces ih =>
      cases p <;> simpa [Piece.skeleton, Piece.value?, List.filterMap_cons] using ih
  have hpieces : a.pieces.map Piece.skeleton = b.pieces.map Piece.skeleton :=
    congrArg Draft.pieces (show a.skeleton = b.skeleton from h)
  rw [constants, constants, hlength a.pieces, hlength b.pieces, hpieces]

/-- Drafts with one skeleton have one text with placeholders. -/
theorem SameSkeleton.placeholderText_eq {a b : Draft} (h : SameSkeleton a b) (d : Dialect)
    (base : String) (index : Nat) :
    a.placeholderText d base index = b.placeholderText d base index := by
  -- A placeholder has the number of its constant in its name and nothing of the value.
  have htexts : ∀ (pieces : List Piece) (index : Nat), placeholderTexts d base index pieces =
      placeholderTexts d base index (pieces.map Piece.skeleton) := by
    intro pieces
    induction pieces with
    | nil => exact fun _ => rfl
    | cons p pieces ih =>
      intro index
      cases p <;> simp [Piece.skeleton, placeholderTexts, Piece.literalText, ← ih]
  have hpieces : a.pieces.map Piece.skeleton = b.pieces.map Piece.skeleton :=
    congrArg Draft.pieces (show a.skeleton = b.skeleton from h)
  rw [placeholderText, placeholderText, htexts a.pieces, htexts b.pieces, hpieces]

end Draft

variable {config : Config} (f : Recoding config) {s : Setting}

open Draft (SameSkeleton)

/-- A recoded constant is a word or a value as the constant is. -/
theorem Recoding.sameSkeleton_constant (v : Value) :
    SameSkeleton (.constant v) (.constant (f v)) := by
  unfold Draft.constant
  rw [f.isNull]
  split <;> rfl

namespace Expression

/-! ## Expressions -/

@[simp] theorem isCompound_recode (e : Expression) : (e.recode f).isCompound = e.isCompound := by
  cases e <;> rfl

@[simp] theorem isNullConstant_recode (e : Expression) :
    (e.recode f).isNullConstant = e.isNullConstant := by
  have hconstant : ∀ v, isNullConstant (.constant v) = v.isNull := fun v => by cases v <;> rfl
  cases e with
  | constant v => rw [recode, hconstant, hconstant, f.isNull]
  | _ => rfl

@[simp] theorem boolConstant?_recode (e : Expression) :
    (e.recode f).boolConstant? = e.boolConstant? := by
  cases e with
  | constant v => exact f.bool? v
  | _ => rfl

theorem sameSkeleton_asOperand (e : Expression) {a a' : Draft} (h : SameSkeleton a a') :
    SameSkeleton (e.asOperand a) ((e.recode f).asOperand a') := by
  unfold asOperand
  rw [isCompound_recode]
  split
  · exact SameSkeleton.congruence.parens h
  · exact h

/-- The draft of an operation with two operands. -/
theorem sameSkeleton_operation {a a' b b' : Draft} (ha : SameSkeleton a a')
    (hb : SameSkeleton b b') (t : String) :
    SameSkeleton (a ++ .text t ++ b) (a' ++ .text t ++ b') :=
  SameSkeleton.congruence.append (SameSkeleton.congruence.append ha rfl) hb

section Nodes

variable (left right : Expression) {leftDraft leftDraft' rightDraft rightDraft' : Draft}
  (hl : SameSkeleton leftDraft leftDraft') (hr : SameSkeleton rightDraft rightDraft')
include hl hr

theorem sameSkeleton_arithmeticDraft (op : Arithmetic) :
    SameSkeleton (arithmeticDraft s op left right leftDraft rightDraft)
      (arithmeticDraft s op (left.recode f) (right.recode f) leftDraft' rightDraft') := by
  unfold arithmeticDraft
  split
  · exact SameSkeleton.congruence.append rfl
      (SameSkeleton.congruence.parens (sameSkeleton_operation hl hr _))
  · exact sameSkeleton_operation (sameSkeleton_asOperand f left hl)
      (sameSkeleton_asOperand f right hr) _

theorem sameSkeleton_comparisonDraft (op : Comparison) :
    SameSkeleton (comparisonDraft s op left right leftDraft rightDraft)
      (comparisonDraft s op (left.recode f) (right.recode f) leftDraft' rightDraft') := by
  have hleft := sameSkeleton_asOperand f left hl
  have hright := sameSkeleton_asOperand f right hr
  have htest : ∀ {d d' : Draft} (equality truth : Bool), SameSkeleton d d' →
      SameSkeleton (booleanTest equality truth d) (booleanTest equality truth d') := by
    intro d d' equality truth hd
    unfold booleanTest
    split
    · exact hd
    · exact SameSkeleton.congruence.append rfl hd
  have hplain := sameSkeleton_operation hleft hright (" " ++ op.symbol ++ " ")
  -- NULL and booleans are the constants that a comparison looks at, and they are kept.
  unfold comparisonDraft
  dsimp only
  rw [isNullConstant_recode, isNullConstant_recode, boolConstant?_recode, boolConstant?_recode]
  split
  · split
    · exact SameSkeleton.congruence.append hleft rfl
    · split
      · exact SameSkeleton.congruence.append hright rfl
      · split
        · split
          · exact htest _ _ hleft
          · exact htest _ _ hright
          · exact hplain
        · exact hplain
  · exact hplain

theorem sameSkeleton_bitwiseDraft (op : Bitwise) :
    SameSkeleton (bitwiseDraft s op left right leftDraft rightDraft)
      (bitwiseDraft s op (left.recode f) (right.recode f) leftDraft' rightDraft') := by
  unfold bitwiseDraft
  split
  · exact sameSkeleton_operation (sameSkeleton_asOperand f left hl)
      (sameSkeleton_asOperand f right hr) _
  · exact SameSkeleton.congruence.append rfl
      (SameSkeleton.congruence.parens (sameSkeleton_operation hl hr _))
  · rfl

end Nodes

theorem sameSkeleton_unaryDraft (op : Unary) (operand : Expression) {d d' : Draft}
    (h : SameSkeleton d d') :
    SameSkeleton (unaryDraft op operand d) (unaryDraft op (operand.recode f) d') := by
  cases op with
  | not | negate => exact SameSkeleton.congruence.append rfl (SameSkeleton.congruence.parens h)
  | bitNot => exact SameSkeleton.congruence.append rfl (sameSkeleton_asOperand f operand h)

/-- Operands put together by a dialect. -/
theorem sameSkeleton_concatenation (dialect : Dialect) {ds ds' : List Draft}
    (h : List.Forall₂ SameSkeleton ds ds') :
    SameSkeleton (.concatenation dialect ds) (.concatenation dialect ds') := by
  have hpairwise : ∀ {ds ds' : List Draft}, List.Forall₂ SameSkeleton ds ds' →
      SameSkeleton (Draft.concatenation.pairwise ds) (Draft.concatenation.pairwise ds') := by
    intro ds ds' h
    induction h with
    | nil => rfl
    | cons hd hds ih =>
      cases hds with
      | nil => exact hd
      | cons hd' hds' =>
        exact SameSkeleton.congruence.append rfl
          (SameSkeleton.congruence.parens (sameSkeleton_operation hd ih _))
  cases dialect with
  | sqlServer | oledb => exact SameSkeleton.congruence.joinWith " + " h
  | mySql | postgreSql =>
    exact SameSkeleton.congruence.append rfl
      (SameSkeleton.congruence.parens (SameSkeleton.congruence.joinWith ", " h))
  | sqlite | other => exact SameSkeleton.congruence.joinWith " || " h
  | oracle => exact hpairwise h

/-- Whether an expression is a constant text. -/
def isText : Expression → Bool
  | constant (.text _) => true
  | _ => false

theorem isText_recode (e : Expression) : (e.recode f).isText = e.isText := by
  cases e with
  | constant v =>
    have h := f.variant v
    rw [recode]
    cases hv : f v <;> cases v <;> simp_all [Value.SameVariant, isText]
  | _ => rfl

/-- A pattern that is no constant text is concatenated with the wildcards in every dialect. -/
theorem patternDraft_of_not_isText {pattern : Expression} {mode : LikeMode} {d : Draft}
    (h : pattern.isText = false ∨ s.dialect ≠ .sqlite) :
    patternDraft s pattern d mode =
      if mode = .exact then pattern.asOperand d
      else .concatenation s.dialect ((if mode.leading then [anyRunLiteral] else []) ++
        [pattern.asOperand d] ++ (if mode.trailing then [anyRunLiteral] else [])) := by
  unfold patternDraft
  dsimp only
  split
  · next hdialect => rcases h with h | h <;> simp_all [isText]
  · rfl

theorem sameSkeleton_patternDraft (pattern : Expression) (mode : LikeMode) {d d' : Draft}
    (h : SameSkeleton d d') :
    SameSkeleton (patternDraft s pattern d mode) (patternDraft s (pattern.recode f) d' mode) := by
  have hpattern := sameSkeleton_asOperand f pattern h
  by_cases hconcatenated : pattern.isText = false ∨ s.dialect ≠ .sqlite
  · have hconcatenated' : (pattern.recode f).isText = false ∨ s.dialect ≠ .sqlite := by
      rwa [isText_recode]
    rw [patternDraft_of_not_isText hconcatenated, patternDraft_of_not_isText hconcatenated']
    split
    · exact hpattern
    · refine sameSkeleton_concatenation _
        (List.rel_append (List.rel_append ?_ (.cons hpattern .nil)) ?_)
      · exact List.forall₂_same.mpr fun _ _ => rfl
      · exact List.forall₂_same.mpr fun _ _ => rfl
  · -- The wildcards go into the constant, and only its variant is left of it.
    rw [not_or, not_not, Bool.not_eq_false] at hconcatenated
    obtain ⟨htext, hdialect⟩ := hconcatenated
    obtain ⟨dialect, config, mode', depth⟩ := s
    obtain rfl : dialect = .sqlite := hdialect
    unfold isText at htext
    split at htext
    · next t =>
      obtain ⟨t', ht'⟩ := f.text t
      rw [recode, ht']
      rfl
    · cases htext

theorem sameSkeleton_membershipDraft (op : Membership) (subject : Expression)
    (values : List Value) {d d' : Draft} (h : SameSkeleton d d') :
    SameSkeleton (membershipDraft op subject d values)
      (membershipDraft op (subject.recode f) d' (values.map f)) := by
  have hvalues : SameSkeleton (Draft.list (values.map .constant))
      (Draft.list ((values.map f).map .constant)) := by
    refine SameSkeleton.congruence.items ?_
    rw [List.forall₂_map_right_iff]
    exact List.forall₂_same.mpr fun v _ => f.sameSkeleton_constant v
  unfold membershipDraft
  rw [List.isEmpty_map]
  split
  · rfl
  · exact sameSkeleton_operation (sameSkeleton_asOperand f subject h)
      (SameSkeleton.congruence.parens hvalues) _

theorem sameSkeleton_callDraft (function : Builtin) (distinct : Bool) {ds ds' : List Draft}
    (h : List.Forall₂ SameSkeleton ds ds') :
    SameSkeleton (callDraft s function ds distinct) (callDraft s function ds' distinct) := by
  have hbody : SameSkeleton
      ((if distinct then .text "DISTINCT " else .empty) ++ Draft.list ds : Draft).parens
      ((if distinct then .text "DISTINCT " else .empty) ++ Draft.list ds' : Draft).parens :=
    SameSkeleton.congruence.parens
      (SameSkeleton.congruence.append rfl (SameSkeleton.congruence.joinWith ", " h))
  unfold callDraft
  dsimp only
  generalize ((if distinct then .text "DISTINCT " else .empty) ++ Draft.list ds : Draft) = body,
    ((if distinct then .text "DISTINCT " else .empty) ++ Draft.list ds' : Draft) = body' at hbody ⊢
  split
  · rfl
  · exact SameSkeleton.congruence.append rfl
      (SameSkeleton.congruence.parens (SameSkeleton.congruence.append rfl hbody))
  · exact SameSkeleton.congruence.append rfl hbody

mutual

/-- A recoded expression has the skeleton of the expression. -/
theorem sameSkeleton_recode : ∀ e : Expression, SameSkeleton (e.draft s) ((e.recode f).draft s)
  | .constant v => f.sameSkeleton_constant v
  | .field _ _ | .wildcard _ => rfl
  | .arithmetic op left right =>
    sameSkeleton_arithmeticDraft f left right (sameSkeleton_recode left) (sameSkeleton_recode right)
      op
  | .comparison op left right =>
    sameSkeleton_comparisonDraft f left right (sameSkeleton_recode left) (sameSkeleton_recode right)
      op
  | .logic _ left right =>
    sameSkeleton_operation (sameSkeleton_asOperand f left (sameSkeleton_recode left))
      (sameSkeleton_asOperand f right (sameSkeleton_recode right)) _
  | .bitwise op left right =>
    sameSkeleton_bitwiseDraft f left right (sameSkeleton_recode left) (sameSkeleton_recode right) op
  | .unary op operand => sameSkeleton_unaryDraft f op operand (sameSkeleton_recode operand)
  | .like subject pattern mode =>
    sameSkeleton_operation (sameSkeleton_asOperand f subject (sameSkeleton_recode subject))
      (sameSkeleton_patternDraft f pattern mode (sameSkeleton_recode pattern)) _
  | .membership op subject values =>
    sameSkeleton_membershipDraft f op subject values (sameSkeleton_recode subject)
  | .call function args distinct =>
    sameSkeleton_callDraft function distinct (sameSkeleton_recodeList args)

/-- Recoded expressions have the skeletons of the expressions. -/
theorem sameSkeleton_recodeList : ∀ es : List Expression,
    List.Forall₂ SameSkeleton (draftList s es) (draftList s (recodeList f es))
  | [] => .nil
  | e :: es => .cons (sameSkeleton_recode e) (sameSkeleton_recodeList es)

end

end Expression

/-! ## Clauses -/

/-- One setting for both statements, with the configuration that a recoding respects. -/
def Setting.Same (config : Config) (s s' : Setting) : Prop := s' = s ∧ s.config = config

theorem Setting.Same.settingRelation (config : Config) :
    SettingRelation (Setting.Same config) where
  dialect h := by rw [h.1]
  depth h := by rw [h.1]
  nested h := ⟨by rw [h.1], h.2⟩

/-- Expressions of one setting are alike in the skeleton. -/
theorem Expression.alike_recode (e : Expression) :
    Alike (Setting.Same config) SameSkeleton (Expression.draft · e)
      (Expression.draft · (e.recode f)) := by
  rintro s _ ⟨rfl, -⟩
  exact e.sameSkeleton_recode f

theorem Order.alike_recode (o : Order) :
    Alike (Setting.Same config) SameSkeleton (Order.draft · o) (Order.draft · (o.recode f)) := by
  intro s s' hs
  exact SameSkeleton.congruence.append (o.expression.alike_recode f hs) rfl

theorem Projection.alike_recode (p : Projection) :
    Alike (Setting.Same config) SameSkeleton (Projection.draft · p)
      (Projection.draft · (p.recode f)) := by
  intro s s' hs
  obtain ⟨e, alias?⟩ := p
  cases alias? with
  | none => exact e.alike_recode f hs
  | some a =>
    exact SameSkeleton.congruence.append
      (SameSkeleton.congruence.append (e.alike_recode f hs) rfl) rfl

/-- Lists of items with other constants are alike, item by item. -/
theorem forall₂_map_recode {α : Type} {P : α → α → Prop} {g : α → α}
    (h : ∀ x, P x (g x)) (xs : List α) : List.Forall₂ P xs (xs.map g) := by
  rw [List.forall₂_map_right_iff]
  exact List.forall₂_same.mpr fun x _ => h x

/-- An order on the symbol of different rows can be recoded before or after. -/
theorem Order.ontoDistinct_recode (selection : List Projection) (o : Order) :
    (o.recode f).ontoDistinct (selection.map (·.recode f)) =
      (o.ontoDistinct selection).recode f := by
  -- The projected item is found by equality of expressions, which a recoding keeps.
  have hfind : (selection.map (·.recode f)).find? (·.expression == (o.recode f).expression) =
      (selection.find? (·.expression == o.expression)).map (·.recode f) := by
    induction selection with
    | nil => rfl
    | cons p selection ih =>
      have hbeq : ((p.recode f).expression == (o.recode f).expression) =
          (p.expression == o.expression) := Expression.beq_recode f p.expression o.expression
      rw [List.map_cons, List.find?_cons, List.find?_cons, hbeq, ih]
      split <;> rfl
  have hcolumn : ((selection.map (·.recode f)).find?
        (·.expression == (o.recode f).expression)).bind Projection.outputName? =
      (selection.find? (·.expression == o.expression)).bind Projection.outputName? := by
    rw [hfind, Option.bind_map]
    exact Option.bind_congr fun p _ => Projection.outputName?_recode f p
  unfold ontoDistinct
  dsimp only
  rw [hcolumn]
  split
  · rfl
  · exact Order.requalify_recode f _ o

/-- An aggregate can be recoded before or after it becomes a call. -/
theorem Aggregation.toExpression_recode (a : Aggregation) :
    (a.recode f).toExpression = a.toExpression.recode f := by
  obtain ⟨function, argument⟩ := a
  cases argument <;> rfl

/-! ## Queries -/

/-- A recoded query is related to the query if its source and conditions are. -/
theorem Query.related_recode (q : Query) (c c' : Clauses)
    (hsource : Alike (Setting.Same config) SameSkeleton c.source c'.source)
    (hfilter : c.filter.Rel (Alike (Setting.Same config) SameSkeleton) c'.filter)
    (hhaving : c.having.Rel (Alike (Setting.Same config) SameSkeleton) c'.having) :
    Query.Related (Setting.Same config) SameSkeleton q (q.recode f) c c' where
  distinct := q.distinct_recode f
  skip := q.skip_recode f
  take := q.take_recode f
  selection := by
    rw [selection_recode]
    exact forall₂_map_recode (Projection.alike_recode f) _
  orders := by
    rw [orders_recode]
    exact forall₂_map_recode (Order.alike_recode f) _
  distinctOrders := by
    rw [orders_recode, selection_recode]
    refine forall₂_map_recode (fun o => ?_) _
    -- Orders and items are recoded alike, so that an order finds the same item.
    rw [Order.ontoDistinct_recode]
    exact Order.alike_recode f _
  groupBy := by
    rw [groupBy_recode]
    exact forall₂_map_recode (Expression.alike_recode f) _
  aggregation := by
    rw [aggregation_recode]
    cases q.aggregation with
    | none => exact .none
    | some a =>
      refine .some ?_
      rw [Aggregation.toExpression_recode, Expression.relocate, Expression.relocate,
        Expression.requalify_recode]
      exact ⟨Expression.alike_recode f _, Expression.alike_recode f _⟩
  source := hsource
  filter := hfilter
  having := hhaving

/-- In one mode, limits by a pseudo-column have related drafts if the clauses of a query have. -/
theorem Query.windowRelated_of_same {R : Draft → Draft → Prop} (hR : Draft.Congruence R)
    {q q' : Query} {c c' : Clauses} (h : Query.Related (Setting.Same config) R q q' c c') :
    Query.WindowRelated (Setting.Same config) R q q' c c' := by
  rintro _ s take ⟨rfl, hconfig⟩ - hskip htake
  have hrows : ∀ {limit : Option Draft}, limit.Rel R limit →
      R (q.unpagedDraft c none limit s) (q'.unpagedDraft c' none limit s) := fun hlimit =>
    h.unpagedDraft hR ⟨rfl, hconfig⟩ none hlimit
  unfold pseudoColumnDraft
  rw [h.skip, h.take, hskip, htake]
  dsimp only
  split
  · exact hR.append (hR.append (hR.append (hR.refl _) (hR.parens (hrows .none))) (hR.refl _))
      (hR.refl _)
  · exact hrows (.some (hR.refl _))

/-! ## Sources, queries and set operations -/

theorem Source.isJoined_recode (r : Source) : (r.recode f).isJoined = r.isJoined := by
  cases r <;> rfl

theorem Query.isBare_recode (q : Query) : (q.recode f).isBare = q.isBare := by
  obtain ⟨source, criteria, selection, distinct, orders, skip, take, aggregation, groupBy,
    having⟩ := q
  cases criteria <;> cases having <;> simp [Query.recode, isBare, Criteria.recodeOption]

mutual

/-- A recoded condition is alike. -/
theorem Criteria.alike_recode :
    ∀ c : Criteria, Alike (Setting.Same config) SameSkeleton c.draft (c.recode f).draft
  | .expression e => e.alike_recode f
  | .compound op children => fun _ _ hs =>
    SameSkeleton.congruence.compoundDraft op (Criteria.alike_recodeList children hs)
  | .inSelect subject query op => fun _ _ hs => by
    have hquery := Query.alike_recode query ((Setting.Same.settingRelation config).nested hs)
    exact SameSkeleton.congruence.append
      (SameSkeleton.congruence.append (subject.alike_recode f hs) rfl)
      (SameSkeleton.congruence.parens hquery)

/-- Recoded conditions are alike. -/
theorem Criteria.alike_recodeList :
    ∀ cs : List Criteria, ∀ ⦃s s'⦄, Setting.Same config s s' →
      List.Forall₂ SameSkeleton (Criteria.draftList cs s)
        (Criteria.draftList (Criteria.recodeList f cs) s')
  | [], _, _, _ => .nil
  | c :: cs, _, _, hs => .cons (Criteria.alike_recode c hs) (Criteria.alike_recodeList cs hs)

/-- An optional recoded condition is alike. -/
theorem Criteria.alike_recodeOption :
    ∀ c? : Option Criteria, (Criteria.draftOption c?).Rel
      (Alike (Setting.Same config) SameSkeleton) (Criteria.draftOption (Criteria.recodeOption f c?))
  | none => .none
  | some c => .some (Criteria.alike_recode c)

/-- A recoded relation is alike. -/
theorem Relation.alike_recode :
    ∀ r : Relation, Alike (Setting.Same config) SameSkeleton r.draft (r.recode f).draft
  | .table _ => fun _ _ _ => rfl
  | .select query alias? => fun _ _ hs => by
    have hquery := Query.alike_recode query ((Setting.Same.settingRelation config).nested hs)
    exact SameSkeleton.congruence.derivedDraft hquery _
  | .set set alias? => fun _ _ hs => by
    have hset := QuerySet.alike_recode set ((Setting.Same.settingRelation config).nested hs)
    exact SameSkeleton.congruence.derivedDraft hset _

/-- A recoded source is alike. -/
theorem Source.alike_recode :
    ∀ r : Source, Alike (Setting.Same config) SameSkeleton r.draft (r.recode f).draft
  | .single r => Relation.alike_recode r
  | .joined kind left right on => fun _ _ hs => by
    rw [Source.recode, Source.draft, Source.draft, Source.isJoined_recode]
    exact SameSkeleton.congruence.joinDraft (Source.alike_recode left hs)
      (Source.alike_recode right hs) (Criteria.alike_recode on hs) kind right.isJoined

/-- A recoded query is alike. -/
theorem Query.alike_recode :
    ∀ q : Query, Alike (Setting.Same config) SameSkeleton q.draft (q.recode f).draft
  | ⟨source, criteria, selection, distinct, orders, skip, take, aggregation, groupBy, having⟩ =>
    fun s s' hs => by
    have hrelated := Query.related_recode f
      ⟨source, criteria, selection, distinct, orders, skip, take, aggregation, groupBy, having⟩
      ⟨fun s => source.draft s, Criteria.draftOption criteria, Criteria.draftOption having⟩
      ⟨fun s => (source.recode f).draft s, Criteria.draftOption (Criteria.recodeOption f criteria),
        Criteria.draftOption (Criteria.recodeOption f having)⟩
      (Source.alike_recode source) (Criteria.alike_recodeOption criteria)
      (Criteria.alike_recodeOption having)
    have hclauses := hrelated.clausesDraft SameSkeleton.congruence hs
      (Setting.Same.settingRelation config)
      (Query.windowRelated_of_same SameSkeleton.congruence hrelated)
    have hbare := Query.isBare_recode f
      ⟨source, criteria, selection, distinct, orders, skip, take, aggregation, groupBy, having⟩
    rw [Query.recode] at hclauses hbare ⊢
    -- Recoding neither adds clauses nor drops any, so that both queries are wrappers or neither is.
    cases source with
    | joined kind left right on => simpa [Query.draft, Source.recode] using hclauses
    | single r =>
      cases r with
      | table t => simpa [Query.draft, Source.recode, Relation.recode] using hclauses
      | select query alias? => simpa [Query.draft, Source.recode, Relation.recode] using hclauses
      | set set alias? =>
        rw [Source.recode, Relation.recode] at hclauses hbare ⊢
        rw [Query.draft, Query.draft, hbare]
        split
        · exact QuerySet.alike_recode set hs
        · exact hclauses

/-- A recoded operand is alike. -/
theorem SetOperand.alike_recode :
    ∀ o : SetOperand, Alike (Setting.Same config) SameSkeleton o.draft (o.recode f).draft
  | .query q => fun _ _ hs => by
    rw [SetOperand.recode, SetOperand.draft, SetOperand.draft, Query.orders_recode,
      List.isEmpty_map, Query.isPaged, Query.isPaged, Query.skip_recode, Query.take_recode]
    split
    · exact Query.alike_recode q hs
    · exact SameSkeleton.congruence.wrappedOperand
        (Query.alike_recode q ((Setting.Same.settingRelation config).nested hs))
  | .set set => fun _ _ hs =>
    SameSkeleton.congruence.wrappedOperand
      (QuerySet.alike_recode set ((Setting.Same.settingRelation config).nested hs))

/-- A recoded set operation is alike. -/
theorem QuerySet.alike_recode :
    ∀ q : QuerySet, Alike (Setting.Same config) SameSkeleton q.draft (q.recode f).draft
  | ⟨operator, left, right, orders⟩ => fun s s' hs => by
    have horders : List.Forall₂ (fun o o' => SameSkeleton (o.draft s) (o'.draft s')) orders
        (orders.map (·.recode f)) :=
      forall₂_map_recode (fun o => Order.alike_recode f o hs) orders
    exact SameSkeleton.congruence.operandsDraft ((Setting.Same.settingRelation config).dialect hs)
      operator horders (SetOperand.alike_recode left hs) (SetOperand.alike_recode right hs)

end

/-! ## Changes and statements -/

/-- Constants other than NULL have one skeleton. -/
theorem sameSkeleton_constant_of_not_isNull {v w : Value} (hv : v.isNull = false)
    (hw : w.isNull = false) : SameSkeleton (.constant v) (.constant w) := by
  unfold Draft.constant
  rw [hv, hw]
  rfl

theorem Numeric.isNull_toValue (n : Numeric) : n.toValue.isNull = false := by
  cases n <;> rfl

/-- What is assigned is alike with other constants. -/
theorem Assignment.alike_valueDraft (a : Assignment) :
    Alike (Setting.Same config) SameSkeleton (Assignment.valueDraft · a)
      (Assignment.valueDraft · (a.recode f)) := by
  rintro _ s ⟨rfl, hconfig⟩
  obtain ⟨column, value⟩ := a
  cases value with
  | bool b => rfl
  | null => rfl
  | char c =>
    simp only [recode, AssignedValue.recode]
    split <;> rfl
  | guid g =>
    simp only [recode, AssignedValue.recode]
    split <;> rfl
  | string t =>
    simp only [recode, AssignedValue.recode]
    split <;> rfl
  | timeSpan t =>
    simp only [recode, AssignedValue.recode]
    split <;> rfl
  | dateTime t =>
    -- Whether a datetime is written or NULL in its place is the same before and after.
    obtain ⟨t', ht'⟩ := f.dateTime t
    simp only [recode, AssignedValue.recode, ht', valueDraft, hconfig, f.inRange t t' ht']
    split <;> rfl
  | numeric n =>
    exact sameSkeleton_constant_of_not_isNull n.isNull_toValue (n.recode f).isNull_toValue
  | increment n =>
    exact sameSkeleton_constant_of_not_isNull n.isNull_toValue (n.recode f).isNull_toValue
  | expression e => exact e.sameSkeleton_recode f

theorem AssignedValue.isIncrement_recode (v : AssignedValue) :
    (v.recode f).isIncrement = v.isIncrement := by
  cases v <;> simp only [recode] <;> first | rfl | split <;> rfl

/-- An item of a SET list is alike with other constants. -/
theorem Assignment.alike_recode (a : Assignment) :
    Alike (Setting.Same config) SameSkeleton (Assignment.draft · a)
      (Assignment.draft · (a.recode f)) := by
  intro s s' hs
  have hvalue := a.alike_valueDraft f hs
  have hincrement : (a.recode f).value.isIncrement = a.value.isIncrement :=
    AssignedValue.isIncrement_recode f a.value
  obtain ⟨rfl, -⟩ := hs
  dsimp only
  rw [draft_eq_ite, draft_eq_ite, hincrement]
  refine SameSkeleton.congruence.append rfl ?_
  split
  · exact SameSkeleton.congruence.append rfl hvalue
  · exact hvalue

theorem Source.leftmost_recode : ∀ r : Source, (r.recode f).leftmost = r.leftmost.recode f
  | .single _ => rfl
  | .joined _ left _ _ => leftmost_recode left

theorem Relation.symbol_recode (r : Relation) : (r.recode f).symbol = r.symbol := by
  cases r <;> rfl

theorem Relation.alias?_recode (r : Relation) : (r.recode f).alias? = r.alias? := by
  cases r <;> rfl

/-- A recoded change is related to the change. -/
theorem Change.related_recode (c : Change) :
    Change.Related (Setting.Same config) SameSkeleton c (c.recode f) where
  kind := rfl
  target := by
    have hleftmost := Source.leftmost_recode f c.source
    unfold target
    rw [recode, hleftmost]
    cases c.source.leftmost <;> rfl
  joined := Source.isJoined_recode f c.source
  symbol := by rw [recode, Source.leftmost_recode, Relation.symbol_recode]
  aliased := by rw [recode, Source.leftmost_recode, Relation.alias?_recode]
  head := by
    intro s s' hs
    have hsource := Source.alike_recode f c.source hs
    obtain ⟨rfl, -⟩ := hs
    unfold headDraft
    obtain ⟨kind, source, criteria, assignments⟩ := c
    cases source with
    | joined _ _ _ _ => exact hsource
    | single r =>
      cases r with
      | table t => rfl
      | select _ _ => exact hsource
      | set _ _ => exact hsource
  source := Source.alike_recode f c.source
  filter := fun s s' hs => SameSkeleton.congruence.whereDraft
    (Alike.map_apply (Criteria.alike_recodeOption f c.criteria) hs) .none
  assignments := forall₂_map_recode (g := (·.recode f))
    (fun a => ⟨rfl, a.alike_valueDraft f, a.alike_recode f⟩) c.assignments

/-- A recoded statement is alike. -/
theorem Statement.alike_recode (t : Statement) :
    Alike (Setting.Same config) SameSkeleton t.draft (t.recode f).draft := by
  cases t with
  | query q => exact Query.alike_recode f q
  | set s => exact QuerySet.alike_recode f s
  | change c =>
    intro s s' hs
    exact (Change.related_recode f c).draft SameSkeleton.congruence
      (Setting.Same.settingRelation config) hs

/-- What is written of a recoded statement has the skeleton of what is written of the statement. -/
theorem Statement.sameSkeleton_drafted (t : Statement) (s : Setting) (hs : s.config = config) :
    SameSkeleton (Drafted.draft t s) (Drafted.draft (t.recode f) s) := by
  change SameSkeleton ((if s.numbersRows then t.implyOrders else t).draft s)
    ((if s.numbersRows then (t.recode f).implyOrders else t.recode f).draft s)
  rw [Statement.implyOrders_recode]
  split
  · exact Statement.alike_recode f _ ⟨rfl, hs⟩
  · exact Statement.alike_recode f _ ⟨rfl, hs⟩

/-- No constant leaks into a text with placeholders: a recoded statement has the same text and the
same names of parameters as the statement, or is refused for the same reason. -/
theorem Statement.renderBound_recode {σ : Type} (t : Statement) (d : Dialect) (supply : Supply σ)
    (state : σ) :
    (renderBound (t.recode f) d config supply state).map
        (fun r => (r.sql, r.parameters.map (·.name))) =
      (renderBound t d config supply state).map fun r => (r.sql, r.parameters.map (·.name)) := by
  have hskeleton := t.sameSkeleton_drafted f (.outermost d config .bound) rfl
  unfold renderBound
  dsimp only
  generalize Drafted.draft t (.outermost d config .bound) = draft,
    Drafted.draft (t.recode f) (.outermost d config .bound) = draft' at hskeleton
  rw [← hskeleton.failure_eq]
  cases draft.failure with
  | some e => rfl
  | none =>
    simp only [Except.map, map_name_parametersFrom, hskeleton.length_constants,
      hskeleton.placeholderText_eq]

theorem Statement.renderBound_window_reversed :
    (renderBound (window.recode (.reversing .standard)) .sqlite .standard .blank ()).map
        (fun r => (r.sql, r.parameters.map (·.name))) =
      (renderBound window .sqlite .standard .blank ()).map
        fun r => (r.sql, r.parameters.map (·.name)) :=
  renderBound_recode (.reversing .standard) window .sqlite .blank ()

end DialectSql
