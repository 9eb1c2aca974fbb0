import DialectSql.Proofs.Composed.Statement
import DialectSql.Proofs.Width.Glyph

/-!
# Items of a projection

Outside of its parentheses an expression has no comma and no word that begins or ends the items of a
query, so that it is a single item. It is a star only if it is a wildcard, or if it is a comparison
that is written as one of its sides.

## Main definitions

* `Draft.HasGlyphs`, `Draft.width?` — the glyphs of a draft, and the width of the query that it is
* `Draft.Operand`, `Draft.Column` — drafts that are single items, and those that are no stars
* `Expression.isStarIn` — expressions that a dialect writes as a star

## Main results

* `Expression.operand_draft`, `Projection.column_draft` — expressions and what is projected of them
* `Draft.exists_items_list` — a projection has an item for each of its parts
-/

namespace DialectSql

open Text

/-! ## Glyphs of drafts -/

namespace Draft

variable {a b : Draft} {gs hs : List Glyph}

/-- Drafts that have some glyphs outside of their parentheses, unless they fail. -/
def HasGlyphs (a : Draft) (gs : List Glyph) : Prop :=
  ∃ parts, Reads Piece.glyphs a parts ∧ Part.glyphsIn parts = gs

/-- The number of columns of the query that a draft is, where that is known. -/
def width? (a : Draft) : Option Nat := Glyph.width? (Part.glyphsIn (a.outline Piece.glyphs))

namespace HasGlyphs

theorem width?_eq (h : HasGlyphs a gs) (hfailure : a.failure = none) :
    a.width? = Glyph.width? gs := by
  obtain ⟨parts, hreads, rfl⟩ := h
  rw [width?, hreads.outline_eq hfailure]

/-- A draft without parentheses. -/
theorem leaves (h : Reads Piece.glyphs a (gs.map .leaf)) : HasGlyphs a gs :=
  ⟨_, h, Part.glyphsIn_map_leaf gs⟩

theorem empty : HasGlyphs .empty [] := ⟨[], .empty, rfl⟩

theorem text (t : String) : HasGlyphs (.text t) (glyphs t) := leaves (.text t)

/-- A text whose glyphs are known. -/
theorem text_of {t : String} (h : glyphs t = gs) : HasGlyphs (.text t) gs := h ▸ text t

theorem quoted (name : String) : HasGlyphs (.quoted name) [.name] := leaves (.quoted name)

theorem value (v : Value) : HasGlyphs (.piece (.value v)) [.other] := leaves (.value v)

/-- What fails may have any glyphs. -/
theorem fail (e : Error) (gs : List Glyph) : HasGlyphs (.fail e) gs := leaves (.fail e _)

theorem append (ha : HasGlyphs a gs) (hb : HasGlyphs b hs) : HasGlyphs (a ++ b) (gs ++ hs) := by
  obtain ⟨ps, hps, rfl⟩ := ha
  obtain ⟨qs, hqs, rfl⟩ := hb
  exact ⟨ps ++ qs, hps.append hqs, Part.glyphsIn_append ps qs⟩

/-- Parentheses are one glyph. -/
theorem parens (ha : HasGlyphs a gs) : HasGlyphs a.parens [.parens (Glyph.width? gs)] := by
  obtain ⟨ps, hps, rfl⟩ := ha
  exact ⟨_, hps.parens, rfl⟩

end HasGlyphs

/-- Every draft is read as some parts. -/
theorem Composed.exists_reads {α : Type} {d : Dialect} {T : String → Prop} (read : Piece → List α)
    (h : a.Composed d T) : ∃ parts, Reads read a parts := by
  induction h with
  | empty => exact ⟨_, .empty⟩
  | text _ => exact ⟨_, .text _⟩
  | quoted name => exact ⟨_, .quoted name⟩
  | bare name => exact ⟨_, .bare name⟩
  | value _ => exact ⟨_, .value _⟩
  | missing _ => exact ⟨[], .fail _ _⟩
  | append _ _ iha ihb =>
    obtain ⟨ps, hps⟩ := iha
    obtain ⟨qs, hqs⟩ := ihb
    exact ⟨_, hps.append hqs⟩
  | parens _ ih =>
    obtain ⟨ps, hps⟩ := ih
    exact ⟨_, hps.parens⟩

/-- Every draft has glyphs. -/
theorem Composed.exists_hasGlyphs {d : Dialect} {T : String → Prop} (h : a.Composed d T) :
    ∃ gs, HasGlyphs a gs := by
  obtain ⟨parts, hreads⟩ := h.exists_reads Piece.glyphs
  exact ⟨_, parts, hreads, rfl⟩

end Draft

/-! ## Items -/

namespace Glyph

variable {g : Glyph} {gs hs ks : List Glyph}

/-- Whether a glyph can stand inside an item. -/
def isInside (g : Glyph) : Bool := !g.isClause && g != comma

/-- The glyphs of a single item. -/
structure IsItem (gs : List Glyph) : Prop where
  /-- It does not begin with a point. -/
  head : ∃ g rest, gs = g :: rest ∧ g ≠ dot
  /-- It is not ended further in. -/
  inside : gs.all isInside = true

theorem IsItem.append (h : IsItem gs) (hrest : hs.all isInside = true) : IsItem (gs ++ hs) where
  head := by
    obtain ⟨g, rest, rfl, hg⟩ := h.head
    exact ⟨g, rest ++ hs, rfl, hg⟩
  inside := by rw [List.all_append, h.inside, hrest]; rfl

/-- An item that is no star is a column. -/
theorem IsItem.items (h : IsItem gs) (hstar : isStar gs = false) : Items 1 0 gs := by
  have hinside : ∀ g ∈ gs, g.isClause = false ∧ g ≠ comma := fun g hg => by
    simpa [isInside] using List.all_eq_true.mp h.inside g hg
  exact .column (fun hcomma => (hinside _ hcomma).2 rfl) (fun g hg => (hinside g hg).1) hstar

/-- A star is all there is of an item, or it follows the point behind a name. -/
theorem eq_of_isStar (h : isStar gs = true) : gs = [star] ∨ ∃ g, gs = [g, dot, star] := by
  unfold isStar at h
  split at h
  · exact .inl rfl
  · exact .inr ⟨_, rfl⟩
  · exact .inr ⟨_, rfl⟩
  · cases h

/-- What stands on both sides of an operator is no star. -/
theorem isStar_infix (hgs : gs ≠ []) (hks : ks ≠ []) (hhs : hs ≠ []) (hdot : dot ∉ hs) :
    isStar (gs ++ hs ++ ks) = false := by
  obtain ⟨g, gs, rfl⟩ := List.exists_cons_of_ne_nil hgs
  obtain ⟨h, hs, rfl⟩ := List.exists_cons_of_ne_nil hhs
  obtain ⟨k, ks, rfl⟩ := List.exists_cons_of_ne_nil hks
  refine Bool.eq_false_iff.mpr fun hstar => ?_
  rcases eq_of_isStar hstar with hsingle | ⟨g', hqualified⟩
  · simp at hsingle
  · -- There are three glyphs, so the operator is the one in the middle.
    cases gs with
    | nil =>
      obtain ⟨-, rfl, -⟩ : g = g' ∧ h = dot ∧ hs ++ k :: ks = [star] := by simpa using hqualified
      exact hdot List.mem_cons_self
    | cons g gs =>
      have hlength := congrArg List.length hqualified
      simp at hlength
      omega

/-- What stands behind a glyph that is no name is no star. -/
theorem isStar_cons (h : IsItem gs) : isStar (g :: gs) = false := by
  obtain ⟨first, rest, rfl, hfirst⟩ := h.head
  refine Bool.eq_false_iff.mpr fun hstar => ?_
  rcases eq_of_isStar hstar with hsingle | ⟨g', hqualified⟩
  · simp at hsingle
  · obtain ⟨-, rfl, -⟩ : g = g' ∧ first = dot ∧ rest = [star] := by simpa using hqualified
    exact hfirst rfl

/-- What ends in another glyph is no star. -/
theorem isStar_append (hlast : hs.getLast? = some g) (hg : g ≠ star) :
    isStar (gs ++ hs) = false := by
  refine Bool.eq_false_iff.mpr fun hstar => hg ?_
  have hend : (gs ++ hs).getLast? = some g := by
    rw [List.getLast?_append, hlast]
    rfl
  rcases eq_of_isStar hstar with hsingle | ⟨g', hqualified⟩
  · simpa [hsingle] using hend.symm
  · simpa [hqualified] using hend.symm

end Glyph

namespace Text

/-- Whether a text is an item by itself that is no star. -/
def isColumn (t : String) : Bool :=
  (glyphs t).head?.any (· != .dot) && (glyphs t).all Glyph.isInside && !Glyph.isStar (glyphs t)

/-- Whether a text can stand between two items. -/
def isBetween (t : String) : Bool :=
  !(glyphs t).isEmpty && (glyphs t).all Glyph.isInside && !(glyphs t).contains .dot

/-- Whether a text can stand behind an item. -/
def isBehind (t : String) : Bool :=
  (glyphs t).all Glyph.isInside && (glyphs t).getLast?.any (· != .star)

/-- Whether a text is a single glyph that can stand in front of an item. -/
def isInFront (t : String) : Bool := isColumn t && (glyphs t).length == 1

end Text

namespace Draft

variable {a b : Draft}

/-- Drafts that are single items. -/
def Operand (a : Draft) : Prop := ∃ gs, HasGlyphs a gs ∧ Glyph.IsItem gs

/-- Drafts that are single items and no stars. -/
def Column (a : Draft) : Prop := ∃ gs, HasGlyphs a gs ∧ Glyph.IsItem gs ∧ Glyph.isStar gs = false

namespace Operand

/-- A text between two items. -/
theorem separated {t : String} (ha : Operand a) (ht : isBetween t = true) (hb : Operand b) :
    Column (a ++ .text t ++ b) := by
  obtain ⟨gs, hgs, hitem⟩ := ha
  obtain ⟨ks, hks, hitem'⟩ := hb
  simp only [isBetween, Bool.and_eq_true, Bool.not_eq_true', List.contains_eq_mem,
    decide_eq_false_iff_not, List.isEmpty_eq_false_iff] at ht
  obtain ⟨⟨hne, hinside⟩, hdot⟩ := ht
  obtain ⟨g, rest, rfl, -⟩ := id hitem.head
  obtain ⟨k, rest', rfl, -⟩ := id hitem'.head
  exact ⟨_, (hgs.append (.text t)).append hks, (hitem.append hinside).append hitem'.inside,
    Glyph.isStar_infix (List.cons_ne_nil _ _) (List.cons_ne_nil _ _) hne hdot⟩

/-- A text behind an item. -/
theorem behind {t : String} (ha : Operand a) (ht : isBehind t = true) :
    Column (a ++ .text t) := by
  obtain ⟨gs, hgs, hitem⟩ := ha
  rw [isBehind, Bool.and_eq_true, Option.any_eq_true] at ht
  obtain ⟨hinside, g, hlast, hg⟩ := ht
  exact ⟨_, hgs.append (.text t), hitem.append hinside,
    Glyph.isStar_append hlast (bne_iff_ne.mp hg)⟩

/-- A text in front of an item. -/
theorem lead {t : String} (ha : Operand a) (ht : isInFront t = true) : Column (.text t ++ a) := by
  obtain ⟨gs, hgs, hitem⟩ := ha
  simp only [isInFront, isColumn, Bool.and_eq_true, Option.any_eq_true, beq_iff_eq] at ht
  obtain ⟨⟨⟨⟨g, hhead, hg⟩, hinside⟩, -⟩, hlength⟩ := ht
  obtain ⟨g', hsingle⟩ := List.length_eq_one_iff.mp hlength
  have htext : HasGlyphs (.text t) (glyphs t) := .text t
  rw [hsingle] at htext hinside hhead
  obtain rfl : g' = g := by simpa using hhead
  have hfront : Glyph.IsItem [g'] := ⟨⟨g', [], rfl, bne_iff_ne.mp hg⟩, hinside⟩
  exact ⟨_, htext.append hgs, hfront.append hitem.inside, Glyph.isStar_cons hitem⟩

end Operand

namespace Column

theorem operand (h : Column a) : Operand a := by
  obtain ⟨gs, hgs, hitem, -⟩ := h
  exact ⟨gs, hgs, hitem⟩

/-- A column is an item, whether or not it might have been a star. -/
theorem operand_and {p : Prop} (h : Column a) : Operand a ∧ (p → Column a) :=
  ⟨h.operand, fun _ => h⟩

theorem text {t : String} (ht : isColumn t = true) : Column (.text t) := by
  simp only [isColumn, Bool.and_eq_true, Bool.not_eq_true', Option.any_eq_true] at ht
  obtain ⟨⟨⟨g, hhead, hg⟩, hinside⟩, hstar⟩ := ht
  obtain ⟨rest, hrest⟩ := List.head?_eq_some_iff.mp hhead
  exact ⟨_, .text t, ⟨⟨g, rest, hrest, bne_iff_ne.mp hg⟩, hinside⟩, hstar⟩

theorem quoted (name : String) : Column (.quoted name) :=
  ⟨_, .quoted name, ⟨⟨.name, [], rfl, by decide⟩, rfl⟩, rfl⟩

theorem qualified (source name : String) : Column (.quoted source ++ .text "." ++ .quoted name) :=
  ⟨_, ((HasGlyphs.quoted source).append (.text ".")).append (.quoted name),
    ⟨⟨.name, [.dot, .name], rfl, by decide⟩, rfl⟩, rfl⟩

theorem fail (e : Error) : Column (.fail e) :=
  ⟨[.other], .fail e _, ⟨⟨.other, [], rfl, by decide⟩, rfl⟩, rfl⟩

theorem constant (v : Value) : Column (.constant v) := by
  unfold Draft.constant
  split
  · exact text rfl
  · exact ⟨_, .value v, ⟨⟨.other, [], rfl, by decide⟩, rfl⟩, rfl⟩

/-- Parentheses are an item, whatever is between them. -/
theorem parens {d : Dialect} {T : String → Prop} (ha : a.Composed d T) : Column a.parens := by
  obtain ⟨gs, hgs⟩ := ha.exists_hasGlyphs
  exact ⟨_, hgs.parens, ⟨⟨_, [], rfl, by simp⟩, rfl⟩, rfl⟩

/-- A function call. -/
theorem call {d : Dialect} {T : String → Prop} {name : String} (hname : isInFront name = true)
    (ha : a.Composed d T) : Column (.text name ++ a.parens) :=
  (parens ha).operand.lead hname

end Column

/-- Items with a text between them. -/
theorem operand_joinWith {separator : String} (hs : isBetween separator = true) :
    ∀ {ds : List Draft}, ds ≠ [] → (∀ a ∈ ds, Operand a) → Operand (.joinWith separator ds)
  | [], hne, _ => absurd rfl hne
  | [a], _, h => h a (by simp)
  | a :: b :: ds, _, h => by
    have hrest := operand_joinWith hs (List.cons_ne_nil b ds)
      fun x hx => h x (List.mem_cons_of_mem a hx)
    exact ((h a (by simp)).separated hs hrest).operand

/-- String operands put together by a dialect. -/
theorem operand_concatenation {d : Dialect} (dialect : Dialect) {parts : List Draft}
    (hne : parts ≠ []) (hcomposed : ∀ a ∈ parts, OperandDraft d a)
    (h : ∀ a ∈ parts, Operand a) : Operand (.concatenation dialect parts) := by
  cases dialect with
  | sqlServer | oledb => exact operand_joinWith rfl hne h
  | sqlite | other => exact operand_joinWith rfl hne h
  | mySql | postgreSql => exact (Column.call rfl (Composed.list hcomposed rfl)).operand
  | oracle =>
    -- All that is in front of the last operand are arguments.
    match parts, hne with
    | [a], _ => exact h a (by simp)
    | a :: b :: rest, _ =>
      have hrest : OperandDraft d (concatenation .oracle (b :: rest)) :=
        OperandDraft.concatenation .oracle fun x hx => hcomposed x (List.mem_cons_of_mem a hx)
      exact (Column.call rfl (Composed.separated (hcomposed a (by simp)) rfl hrest)).operand

end Draft

/-! ## Expressions -/

namespace Expression

open Draft

variable {s : Setting} {a : Draft}

/-- Whether an expression is a wildcard. -/
def isWildcard : Expression → Bool
  | wildcard _ => true
  | _ => false

/-- Whether an expression is the boolean constant that a comparison with it asks for. -/
def affirms (op : Comparison) (e : Expression) : Bool :=
  e.boolConstant?.any fun truth => equality? op == some truth

/-- Whether an expression is written as a star in a dialect: a wildcard, or a comparison of one with
a boolean constant that is written as the wildcard itself. -/
def isStarIn (d : Dialect) : Expression → Bool
  | wildcard _ => true
  | comparison op left right =>
    d = .sqlServer &&
      (left.isWildcard && right.affirms op || right.isWildcard && left.affirms op)
  | _ => false

/-- An expression that is neither a wildcard nor an operator is no star. -/
theorem isStarIn_of_not {d : Dialect} {e : Expression} (hwildcard : e.isWildcard = false)
    (hcompound : e.isCompound = false) : e.isStarIn d = false := by
  cases e with
  | wildcard => cases hwildcard
  | comparison => cases hcompound
  | _ => rfl

/-- An operand in parentheses or without. -/
theorem operand_asOperand {T : String → Prop} (e : Expression) (hcomposed : a.Composed s.dialect T)
    (h : Operand a) : Operand (e.asOperand a) := by
  unfold asOperand
  split
  · exact (Column.parens hcomposed).operand
  · exact h

/-- An operand that is no wildcard is no star. -/
theorem column_asOperand {T : String → Prop} {e : Expression} (hcomposed : a.Composed s.dialect T)
    (h : e.isStarIn s.dialect = false → Column a) (hwildcard : e.isWildcard = false) :
    Column (e.asOperand a) := by
  unfold asOperand
  split
  · exact .parens hcomposed
  · next hcompound => exact h (isStarIn_of_not hwildcard (by simpa using hcompound))

theorem column_plainComparison (op : Comparison) {left right : Draft} (hl : Operand left)
    (hr : Operand right) : Column (plainComparison op left right) := by
  refine hl.separated ?_ hr
  cases op <;> rfl

/-- A test of truth is its subject only if that is what the test asks for. -/
theorem operand_booleanTest (equality truth : Bool) (h : Operand a) :
    Operand (booleanTest equality truth a) ∧
      ((equality == truth) = false ∨ Column a → Column (booleanTest equality truth a)) := by
  unfold booleanTest
  cases hsame : equality == truth with
  | true => exact ⟨h, fun hcolumn => hcolumn.resolve_left (by simp)⟩
  | false =>
    have hnot : Column (.text "NOT " ++ a) := h.lead rfl
    exact ⟨hnot.operand, fun _ => hnot⟩

/-- A comparison is no star unless it is written as a wildcard. -/
theorem operand_comparisonDraft (op : Comparison) (left right : Expression)
    {leftDraft rightDraft : Draft} (hl : Operand (left.asOperand leftDraft))
    (hr : Operand (right.asOperand rightDraft))
    (hl' : left.isWildcard = false → Column (left.asOperand leftDraft))
    (hr' : right.isWildcard = false → Column (right.asOperand rightDraft)) :
    Operand (comparisonDraft s op left right leftDraft rightDraft) ∧
      ((comparison op left right).isStarIn s.dialect = false →
        Column (comparisonDraft s op left right leftDraft rightDraft)) := by
  have hplain := column_plainComparison op hl hr
  have hnull : ∀ test ∈ [" IS NULL", " IS NOT NULL"], isBehind test = true := by decide
  -- The test is its subject only if the constant is what the comparison asks for.
  have htruth : ∀ {equality truth : Bool} {subject constant : Expression} {a : Draft},
      equality? op = some equality → constant.boolConstant? = some truth →
      (subject.isWildcard && constant.affirms op) = false →
      (subject.isWildcard = false → Column a) →
      (equality == truth) = false ∨ Column a := by
    intro equality truth subject constant a hequality hconstant hstar ha
    cases hsubject : subject.isWildcard with
    | false => exact .inr (ha hsubject)
    | true =>
      refine .inl ?_
      simpa [hsubject, affirms, hconstant, hequality] using hstar
  have hwrites := writesComparison s op left right leftDraft rightDraft
  generalize comparisonDraft s op left right leftDraft rightDraft = draft at hwrites ⊢
  cases hwrites with
  | nullRight htest => exact (hl.behind (hnull _ htest)).operand_and
  | nullLeft htest => exact (hr.behind (hnull _ htest)).operand_and
  | @truthRight equality truth hdialect hequality hright =>
    obtain ⟨hoperand, htest⟩ := operand_booleanTest equality truth hl
    refine ⟨hoperand, fun hstar => htest (htruth hequality hright ?_ hl')⟩
    simp only [isStarIn, hdialect, decide_true, Bool.true_and, Bool.or_eq_false_iff] at hstar
    exact hstar.1
  | @truthLeft equality truth hdialect hequality _ hleft =>
    obtain ⟨hoperand, htest⟩ := operand_booleanTest equality truth hr
    refine ⟨hoperand, fun hstar => htest (htruth hequality hleft ?_ hr')⟩
    simp only [isStarIn, hdialect, decide_true, Bool.true_and, Bool.or_eq_false_iff] at hstar
    exact hstar.2
  | operator => exact hplain.operand_and

/-- A bitwise operation that a dialect has is an operator or a function. -/
theorem column_bitwiseDraft (op : Bitwise) (left right : Expression) {leftDraft rightDraft : Draft}
    (hlc : OperandDraft s.dialect leftDraft) (hrc : OperandDraft s.dialect rightDraft)
    (hl : Operand (left.asOperand leftDraft)) (hr : Operand (right.asOperand rightDraft)) :
    Column (bitwiseDraft s op left right leftDraft rightDraft) := by
  have hsymbols : ∀ symbol ∈ ["&", "|", "^", "#"], isBetween (" " ++ symbol ++ " ") = true := by
    decide
  have hwrites := writesBitwise s op left right leftDraft rightDraft
  generalize bitwiseDraft s op left right leftDraft rightDraft = draft at hwrites ⊢
  cases hwrites with
  | operator hsymbol => exact hl.separated (hsymbols _ hsymbol) hr
  | function => exact .call rfl (Composed.separated hlc rfl hrc)
  | missing => exact .fail _

theorem column_arithmeticDraft (op : Arithmetic) (left right : Expression)
    {leftDraft rightDraft : Draft} (hlc : OperandDraft s.dialect leftDraft)
    (hrc : OperandDraft s.dialect rightDraft) (hl : Operand (left.asOperand leftDraft))
    (hr : Operand (right.asOperand rightDraft)) :
    Column (arithmeticDraft s op left right leftDraft rightDraft) := by
  have hsymbol : ∀ op : Arithmetic, isBetween (" " ++ op.symbol ++ " ") = true := by
    intro op
    cases op <;> rfl
  unfold arithmeticDraft
  split
  · exact .call rfl (Composed.separated hlc rfl hrc)
  · exact hl.separated (hsymbol _) hr

theorem column_unaryDraft (op : Unary) (operand : Expression) (hc : OperandDraft s.dialect a)
    (h : Operand a) : Column (unaryDraft op operand a) := by
  cases op with
  | not => exact .call rfl hc
  | negate => exact .call rfl hc
  | bitNot => exact (operand_asOperand operand hc h).lead rfl

/-- A pattern is an operand, with its wildcards or without. -/
theorem operand_patternDraft (pattern : Expression) (mode : LikeMode)
    (hc : OperandDraft s.dialect a) (h : Operand a) : Operand (patternDraft s pattern a mode) := by
  have hpattern := operand_asOperand pattern hc h
  have hwrites := writesPattern s pattern a mode
  generalize patternDraft s pattern a mode = draft at hwrites ⊢
  cases hwrites with
  | folded text => exact (Column.constant _).operand
  | exact => exact hpattern
  | @concatenation operands hne hoperands =>
    have hcomposed : ∀ x ∈ operands, OperandDraft s.dialect x := by
      intro x hx
      rcases hoperands x hx with rfl | rfl
      · exact .text rfl
      · exact composed_asOperand pattern hc
    refine operand_concatenation s.dialect hne hcomposed fun x hx => ?_
    rcases hoperands x hx with rfl | rfl
    · exact (Column.text rfl).operand
    · exact hpattern

theorem column_membershipDraft (op : Membership) (subject : Expression) (values : List Value)
    (h : Operand (subject.asOperand a)) : Column (membershipDraft op subject a values) := by
  have hvalues : OperandDraft .other (Draft.list (values.map .constant)) :=
    .items (fun v _ => OperandDraft.constant v) rfl
  unfold membershipDraft
  split
  · refine .text ?_
    cases op <;> rfl
  · refine h.separated ?_ (Column.parens hvalues).operand
    cases op <;> rfl

theorem column_nowDraft (dialect : Dialect) : Column (nowDraft dialect) := by
  have hempty : OperandDraft dialect .empty := .empty
  have hnow : OperandDraft dialect (.text "'now'") := .text rfl
  cases dialect with
  | sqlServer | mySql | postgreSql => exact .call rfl hempty
  | sqlite => exact .call rfl hnow
  | oracle | oledb | other => exact .text rfl

theorem column_callDraft (function : Builtin) {args : List Draft} (distinct : Bool)
    (h : ∀ a ∈ args, OperandDraft s.dialect a) : Column (callDraft s function args distinct) := by
  have hbody : OperandDraft s.dialect
      ((if distinct then .text "DISTINCT " else .empty) ++ Draft.list args : Draft) :=
    .append (.ite (.text rfl) .empty) (.list h rfl)
  unfold callDraft
  dsimp only
  split
  · exact column_nowDraft _
  · have hinner : OperandDraft s.dialect (.text "RTRIM" ++ Draft.parens _) :=
      .lead rfl hbody.parens
    exact .call rfl hinner
  · refine .call ?_ hbody
    unfold builtinName
    split <;> rfl

end Expression

/-- A column reference is an item and no star. -/
theorem Field.column_draft (f : Field) : f.draft.Column := by
  unfold draft
  split
  · exact .qualified _ _
  · exact .quoted _

open Draft in
/-- A wildcard is an item. -/
theorem Expression.operand_wildcard (s : Setting) (source? : Option String) :
    ((wildcard source?).draft s).Operand := by
  cases source? with
  | none => exact ⟨_, .text "*", ⟨⟨.star, [], rfl, by decide⟩, rfl⟩⟩
  | some source =>
    exact ⟨_, (HasGlyphs.quoted source).append (.text ".*"),
      ⟨⟨.name, [.dot, .star], rfl, by decide⟩, rfl⟩⟩

open Draft in
/-- An expression is a single item, and a star only if it is written as one. -/
theorem Expression.operand_draft (s : Setting) (e : Expression) : (e.draft s).Operand ∧
    (e.isStarIn s.dialect = false → (e.draft s).Column) := by
  cases e with
  | constant v => exact (Column.constant v).operand_and
  | field f _ => exact f.column_draft.operand_and
  | arithmetic op left right =>
    have hl := operand_asOperand left (left.composed_draft s) (left.operand_draft s).1
    have hr := operand_asOperand right (right.composed_draft s) (right.operand_draft s).1
    exact (column_arithmeticDraft op left right (left.composed_draft s) (right.composed_draft s)
      hl hr).operand_and
  | comparison op left right =>
    have hl := left.operand_draft s
    have hr := right.operand_draft s
    exact operand_comparisonDraft op left right
      (operand_asOperand left (left.composed_draft s) hl.1)
      (operand_asOperand right (right.composed_draft s) hr.1)
      (column_asOperand (left.composed_draft s) hl.2)
      (column_asOperand (right.composed_draft s) hr.2)
  | logic op left right =>
    have hl := operand_asOperand left (left.composed_draft s) (left.operand_draft s).1
    have hr := operand_asOperand right (right.composed_draft s) (right.operand_draft s).1
    refine Column.operand_and (hl.separated ?_ hr)
    cases op <;> rfl
  | bitwise op left right =>
    have hl := operand_asOperand left (left.composed_draft s) (left.operand_draft s).1
    have hr := operand_asOperand right (right.composed_draft s) (right.operand_draft s).1
    exact (column_bitwiseDraft op left right (left.composed_draft s) (right.composed_draft s)
      hl hr).operand_and
  | unary op operand =>
    have hoperand := (operand.operand_draft s).1
    exact (column_unaryDraft op operand (operand.composed_draft s) hoperand).operand_and
  | like subject pattern mode =>
    have hsubject := operand_asOperand subject (subject.composed_draft s)
      (subject.operand_draft s).1
    have hpattern := operand_patternDraft pattern mode (pattern.composed_draft s)
      (pattern.operand_draft s).1
    exact (hsubject.separated rfl hpattern).operand_and
  | membership op subject values =>
    have hsubject := operand_asOperand subject (subject.composed_draft s)
      (subject.operand_draft s).1
    exact (column_membershipDraft op subject values hsubject).operand_and
  | call function args distinct =>
    exact (column_callDraft function distinct (composed_draftList s args)).operand_and
  | wildcard source? => exact ⟨operand_wildcard s source?, fun h => by cases h⟩

/-- What is projected of an expression is a column. -/
theorem Projection.column_draft {p : Projection} {s : Setting}
    (h : p.expression.isStarIn s.dialect = false) : (p.draft s).Column := by
  obtain ⟨hoperand, hcolumn⟩ := p.expression.operand_draft s
  unfold draft
  split
  · next name _ => exact hoperand.separated rfl (Draft.Column.quoted name).operand
  · exact hcolumn h

/-- A list of columns has as many items. -/
theorem Draft.exists_items_list : ∀ {ds : List Draft}, ds ≠ [] → (∀ a ∈ ds, a.Column) →
    ∃ gs, (Draft.list ds).HasGlyphs gs ∧ Glyph.Items ds.length 0 gs
  | [], hne, _ => absurd rfl hne
  | [a], _, h => by
    obtain ⟨gs, hgs, hitem, hstar⟩ := h a (by simp)
    exact ⟨gs, hgs, hitem.items hstar⟩
  | a :: b :: ds, _, h => by
    obtain ⟨gs, hgs, hitem, hstar⟩ := h a (by simp)
    obtain ⟨hs, hhs, hitems⟩ := exists_items_list (List.cons_ne_nil b ds)
      fun x hx => h x (List.mem_cons_of_mem a hx)
    have hcomma : glyphs ", " = [.comma] := rfl
    have hall := (hitem.items hstar).append hitems
    rw [Nat.add_comm 1] at hall
    refine ⟨_, (hgs.append (.text ", ")).append hhs, ?_⟩
    rwa [hcomma, List.append_assoc, List.singleton_append]

end DialectSql
