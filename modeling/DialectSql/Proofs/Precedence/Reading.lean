import DialectSql.Proofs.Precedence.Spelling

/-!
# Reading expressions

Operands that are operators themselves are written in parentheses, but not negations by NOT. Beside
an operator that binds more tightly, a bare negation takes more than its own operand when the text
is read. An expression without such negations is read as it is meant, and no other expression is.

## Main definitions

* `Expression.isGrouped` — expressions without negations beside operators that bind more tightly
* `Expression.text` — an expression as it stands in a statement

## Main results

* `Expression.fits_sketch` — what the operators of an expression demand
* `Expression.read_text` — which expressions are read as they are meant
-/

namespace DialectSql

open Text

/-- Whether a dialect has an operator for concatenations, and not a function. -/
def Dialect.concatenatesByOperator : Dialect → Bool
  | .sqlServer | .oledb | .sqlite | .other => true
  | .mySql | .postgreSql | .oracle => false

namespace Expression

/-- Whether an expression is a negation by NOT. -/
def isNegation : Expression → Bool
  | unary .not _ => true
  | _ => false

/-- Whether an operand may stand beside an operator that binds more tightly than NOT. -/
def isTight (e : Expression) (grouped : Bool) : Bool := !e.isNegation && grouped

mutual

/-- Whether no negation by NOT stands beside an operator that binds more tightly. -/
def isGrouped (s : Setting) : Expression → Bool
  | constant _ | field _ _ | wildcard _ => true
  | arithmetic op left right =>
    if op.isFunction s.dialect then left.isGrouped s && right.isGrouped s
    else left.isTight (left.isGrouped s) && right.isTight (right.isGrouped s)
  | comparison op left right =>
    match comparisonForm s op left right with
    | .nullTest _ side =>
      side.of (left.isTight (left.isGrouped s)) (right.isTight (right.isGrouped s))
    | .truthTest _ side => side.of (left.isGrouped s) (right.isGrouped s)
    | .operator => left.isTight (left.isGrouped s) && right.isTight (right.isGrouped s)
  | logic _ left right => left.isGrouped s && right.isGrouped s
  | bitwise op left right =>
    match bitwiseForm op s.dialect with
    | .operator _ => left.isTight (left.isGrouped s) && right.isTight (right.isGrouped s)
    | .function _ => left.isGrouped s && right.isGrouped s
    | .missing _ => true
  | unary op operand =>
    if op = .bitNot then operand.isTight (operand.isGrouped s) else operand.isGrouped s
  | like subject pattern mode =>
    subject.isTight (subject.isGrouped s) &&
      if mode = .exact ∨ s.dialect.concatenatesByOperator = true then
        pattern.isTight (pattern.isGrouped s)
      else pattern.isGrouped s
  | membership _ subject values => values.isEmpty || subject.isTight (subject.isGrouped s)
  | call function args _ => function = .now || (areGrouped s args).all id

/-- Whether no negation by NOT stands beside an operator that binds more tightly, for each
expression of a list. -/
def areGrouped (s : Setting) : List Expression → List Bool
  | [] => []
  | e :: es => e.isGrouped s :: areGrouped s es

end

/-! ## Levels -/

variable {s : Setting} {k : Nat} {p q : Bool}

theorem level_callSketch (function : Builtin) (args : List Sketch) (distinct : Bool)
    (index : Nat) : ((callSketch s function args distinct).term index).level = 9 := by
  unfold callSketch
  dsimp only
  split
  · unfold nowSketch
    split <;> rfl
  · split <;> rfl

/-- What is no operator between operands is an operand of every operator, but for negations. -/
theorem le_level_sketch {e : Expression} (hcompound : e.isCompound = false)
    (hnegation : e.isNegation = false) (index : Nat) : 8 ≤ ((e.sketch s).term index).level := by
  cases e with
  | constant v =>
    have hfits := Sketch.Fits.constant s.writer v (Nat.le_refl 8)
    exact ((hfits index).mpr rfl).1
  | field f type => exact Nat.le_succ 8
  | unary op operand =>
    cases op with
    | not => cases hnegation
    | negate | bitNot => exact Nat.le_refl 8
  | call function args distinct =>
    rw [sketch, level_callSketch]
    exact Nat.le_succ 8
  | wildcard source => cases source <;> exact Nat.le_succ 8
  | arithmetic _ _ _ | comparison _ _ _ | logic _ _ _ | bitwise _ _ _ | like _ _ _
  | membership _ _ _ => cases hcompound

/-- A negation is an operand of negations, and of what binds less tightly. -/
theorem level_sketch_of_isNegation {e : Expression} (h : e.isNegation = true) (index : Nat) :
    ((e.sketch s).term index).level = 5 := by
  unfold isNegation at h
  split at h
  · rfl
  · cases h

/-- Every operand binds as tightly as a negation. -/
theorem le_level_operandSketch (e : Expression) (index : Nat) :
    5 ≤ ((e.operandSketch (e.sketch s)).term index).level := by
  unfold operandSketch
  split
  · exact (by decide : 5 ≤ 9)
  · next hcompound =>
    cases hnegation : e.isNegation with
    | true => exact Nat.le_of_eq (level_sketch_of_isNegation hnegation index).symm
    | false =>
      exact Nat.le_trans (by decide) (le_level_sketch (by simpa using hcompound) hnegation index)

/-- Every expression binds more tightly than a comma. -/
theorem two_lt_level_sketch (e : Expression) (index : Nat) :
    2 < ((e.sketch s).term index).level := by
  have hoperand : e.isCompound = false → 2 < ((e.sketch s).term index).level := by
    intro hcompound
    have hle := e.le_level_operandSketch (s := s) index
    rw [operandSketch, if_neg (by simp [hcompound])] at hle
    exact Nat.lt_of_lt_of_le (by decide) hle
  cases e with
  | constant _ | field _ _ | unary _ _ | call _ _ _ | wildcard _ => exact hoperand rfl
  | arithmetic op left right =>
    rw [sketch, arithmeticSketch]
    split
    · exact (by decide : 2 < 9)
    · exact Nat.lt_of_lt_of_eq (by decide) op.binaryLevel_symbol.symm
  | comparison op left right =>
    have hside : ∀ side : Side, 5 ≤ ((side.of (left.operandSketch (left.sketch s))
        (right.operandSketch (right.sketch s))).term index).level := by
      rintro (_ | _)
      · exact left.le_level_operandSketch index
      · exact right.le_level_operandSketch index
    rw [sketch, comparisonSketch]
    split
    · exact Nat.lt_of_lt_of_eq (by decide) (binaryLevel_nullOperator _).symm
    · split
      · exact (by decide : 2 < unaryLevel "NOT")
      · exact Nat.lt_of_lt_of_le (by decide) (hside _)
    · exact Nat.lt_of_lt_of_eq (by decide) op.binaryLevel_symbol.symm
  | logic op left right => exact op.lt_binaryLevel_symbol
  | bitwise op left right =>
    rw [sketch, bitwiseSketch]
    split
    · next hform => exact Nat.lt_of_lt_of_eq (by decide) (binaryLevel_of_bitwiseForm hform).symm
    · exact (by decide : 2 < 9)
    · exact (by decide : 2 < 9)
  | like subject pattern mode => exact (by decide : 2 < binaryLevel "LIKE")
  | membership op subject values =>
    rw [sketch, membershipSketch]
    split
    · cases op <;> exact (by decide : 2 < binaryLevel "=")
    · exact Nat.lt_of_lt_of_eq (by decide) op.binaryLevel_symbol.symm

/-! ## Operands -/

/-- An argument of a function. -/
theorem fits_argument {e : Expression} (h : Sketch.Fits 0 (e.sketch s) p) (hk : k ≤ 3) :
    Sketch.Fits k (e.sketch s) p :=
  h.of_level fun index => Nat.le_trans hk (e.two_lt_level_sketch index)

/-- An operand where a negation is one. -/
theorem fits_operandSketch_of_le {e : Expression} (h : Sketch.Fits 0 (e.sketch s) p) (hk : k ≤ 5) :
    Sketch.Fits k (e.operandSketch (e.sketch s)) p := by
  have hoperand : Sketch.Fits 0 (e.operandSketch (e.sketch s)) p := by
    unfold operandSketch
    split
    · exact h.group (Nat.zero_le 9)
    · exact h
  exact hoperand.of_level fun index => Nat.le_trans hk (e.le_level_operandSketch index)

/-- An operand beside an operator that binds more tightly than a negation. -/
theorem fits_operandSketch {e : Expression} (h : Sketch.Fits 0 (e.sketch s) p) (hlt : 5 < k)
    (hk : k ≤ 8) : Sketch.Fits k (e.operandSketch (e.sketch s)) (e.isTight p) := by
  unfold isTight
  cases hnegation : e.isNegation with
  | true =>
    have hcompound : e.isCompound = false := by
      unfold isNegation at hnegation
      split at hnegation
      · rfl
      · cases hnegation
    intro index
    rw [operandSketch, if_neg (by simp [hcompound]), level_sketch_of_isNegation hnegation]
    exact iff_of_false (fun hfits => Nat.not_le_of_lt hlt hfits.1) Bool.false_ne_true
  | false =>
    unfold operandSketch
    split
    · exact h.group (Nat.le_succ_of_le hk)
    · next hcompound =>
      exact h.of_level fun index =>
        Nat.le_trans hk (le_level_sketch (by simpa using hcompound) hnegation index)

/-! ## Nodes -/

section Nodes

variable {left right : Expression} (hl : Sketch.Fits 0 (left.sketch s) p)
  (hr : Sketch.Fits 0 (right.sketch s) q)
include hl hr

/-- An operator between operands that binds more tightly than a negation. -/
theorem fits_operation {symbol : String} (hlt : 5 < binaryLevel symbol)
    (hle : binaryLevel symbol < 8) :
    Sketch.Fits 0 (.binary symbol (left.operandSketch (left.sketch s))
      (right.operandSketch (right.sketch s))) (left.isTight p && right.isTight q) :=
  .binary (Nat.lt_of_le_of_lt (Nat.zero_le _) hlt) (fits_operandSketch hl hlt (Nat.le_of_lt hle))
    (fits_operandSketch hr (Nat.lt_succ_of_lt hlt) hle) (Nat.zero_le _)

/-- A function of two operands. -/
theorem fits_function (function : String) :
    Sketch.Fits 0 (.call function (.binary "," (left.sketch s) (right.sketch s))) (p && q) := by
  have hcomma : 0 < binaryLevel "," := by decide
  exact .call function (.binary hcomma (fits_argument hl (by decide)) (fits_argument hr (by decide))
    (Nat.zero_le _)) (Nat.zero_le _)

theorem fits_arithmeticSketch (op : Arithmetic) :
    Sketch.Fits 0 (arithmeticSketch s op left right (left.sketch s) (right.sketch s))
      (if op.isFunction s.dialect then p && q else left.isTight p && right.isTight q) := by
  unfold arithmeticSketch
  split
  · exact fits_function hl hr "MOD"
  · exact fits_operation hl hr (by simp) (by simp)

theorem fits_comparisonSketch (op : Comparison) :
    Sketch.Fits 0 (comparisonSketch s op left right (left.sketch s) (right.sketch s))
      (match comparisonForm s op left right with
      | .nullTest _ side => side.of (left.isTight p) (right.isTight q)
      | .truthTest _ side => side.of p q
      | .operator => left.isTight p && right.isTight q) := by
  unfold comparisonSketch
  cases comparisonForm s op left right with
  | nullTest negated side =>
    have hside : Sketch.Fits (binaryLevel (nullOperator negated))
        (side.of (left.operandSketch (left.sketch s)) (right.operandSketch (right.sketch s)))
        (side.of (left.isTight p) (right.isTight q)) := by
      cases side with
      | left => exact fits_operandSketch hl (by simp) (by simp)
      | right => exact fits_operandSketch hr (by simp) (by simp)
    have hnull : Sketch.Fits (binaryLevel (nullOperator negated) + 1)
        (.leaf (.operand "NULL")) true := .leaf (by simp [Term.level]) trivial
    have htest := Sketch.Fits.binary (by simp) hside hnull (Nat.zero_le _)
    rwa [Bool.and_true] at htest
  | truthTest negated side =>
    have hnot : 0 < unaryLevel "NOT" := by decide
    -- NOT takes comparisons and everything tighter, so the side may be a negation itself.
    have hside : ∀ k ≤ 5, Sketch.Fits k (side.of (left.operandSketch (left.sketch s))
        (right.operandSketch (right.sketch s))) (side.of p q) := by
      intro k hk
      cases side with
      | left => exact fits_operandSketch_of_le hl hk
      | right => exact fits_operandSketch_of_le hr hk
    dsimp only
    split
    · exact .unary hnot (hside 5 (Nat.le_refl 5)) (Nat.zero_le _)
    · exact hside 0 (Nat.zero_le 5)
  | operator =>
    exact fits_operation hl hr (by simp) (by simp)

theorem fits_logic (op : Logic) :
    Sketch.Fits 0 (.binary op.symbol (left.operandSketch (left.sketch s))
      (right.operandSketch (right.sketch s))) (p && q) := by
  have hle : binaryLevel op.symbol < 5 := by cases op <;> decide
  exact .binary (Nat.lt_trans (by decide) op.lt_binaryLevel_symbol)
    (fits_operandSketch_of_le hl (Nat.le_of_lt hle)) (fits_operandSketch_of_le hr hle)
    (Nat.zero_le _)

theorem fits_bitwiseSketch (op : Bitwise) :
    Sketch.Fits 0 (bitwiseSketch s op left right (left.sketch s) (right.sketch s))
      (match bitwiseForm op s.dialect with
      | .operator _ => left.isTight p && right.isTight q
      | .function _ => p && q
      | .missing _ => true) := by
  unfold bitwiseSketch
  cases hform : bitwiseForm op s.dialect with
  | operator symbol =>
    have hsymbol := binaryLevel_of_bitwiseForm hform
    exact fits_operation hl hr (by simp [hsymbol]) (by simp [hsymbol])
  | function name => exact fits_function hl hr name
  | missing feature => exact .leaf (Nat.zero_le _) trivial

end Nodes

theorem fits_unarySketch (op : Unary) {operand : Expression}
    (h : Sketch.Fits 0 (operand.sketch s) p) :
    Sketch.Fits 0 (unarySketch op operand (operand.sketch s))
      (if op = .bitNot then operand.isTight p else p) := by
  have hpositive : 0 < unaryLevel "NOT" ∧ 0 < unaryLevel "-" ∧ 0 < unaryLevel "~" := by decide
  cases op with
  | not => exact .unary hpositive.1 (h.group (by decide)) (Nat.zero_le _)
  | negate => exact .unary hpositive.2.1 (h.group (by decide)) (Nat.zero_le _)
  | bitNot =>
    exact .unary hpositive.2.2 (fits_operandSketch h (by decide) (by decide)) (Nat.zero_le _)

/-! ### Patterns -/

theorem fits_anyRunSketch (hk : k ≤ 9) : Sketch.Fits k anyRunSketch true := .leaf hk trivial

/-- A chain of an operand with a wildcard on a side or two. -/
theorem fits_chain_surrounded {symbol : String} {a : Sketch} (hpos : 0 < binaryLevel symbol)
    (hfirst : Sketch.Fits (binaryLevel symbol) a p)
    (hnext : Sketch.Fits (binaryLevel symbol + 1) a p) {mode : LikeMode} (hmode : mode ≠ .exact)
    (hk : k ≤ binaryLevel symbol) :
    Sketch.Fits k (.chain symbol (surrounded mode anyRunSketch a)) p := by
  have hlt : binaryLevel symbol < 9 := Lexeme.binaryLevel_lt symbol
  have hlast : Sketch.Fits (binaryLevel symbol + 1) anyRunSketch true := fits_anyRunSketch hlt
  -- A chain leans to the left, so that its first operand may be as loose as the operator.
  have hbehind : ∀ k ≤ binaryLevel symbol,
      Sketch.Fits k (.binary symbol anyRunSketch a) p := fun _ =>
    .binary hpos (fits_anyRunSketch (Nat.le_of_lt hlt)) hnext
  cases mode with
  | exact => exact absurd rfl hmode
  | startsWith =>
    have hfront := Sketch.Fits.binary hpos hfirst hlast hk
    rwa [Bool.and_true] at hfront
  | endsWith => exact hbehind k hk
  | contains =>
    have hboth := Sketch.Fits.binary hpos (hbehind _ (Nat.le_refl _)) hlast hk
    rwa [Bool.and_true] at hboth

/-- Nested calls on an operand with a wildcard on a side or two. -/
theorem fits_pairwise_surrounded {a : Sketch} (ha : ∀ k ≤ 3, Sketch.Fits k a p) {mode : LikeMode}
    (hmode : mode ≠ .exact) (hk : k ≤ 9) :
    Sketch.Fits k (Sketch.concatenation.pairwise (surrounded mode anyRunSketch a)) p := by
  have hcomma : 0 < binaryLevel "," := by decide
  -- Arguments need no parentheses, whatever operators they have.
  have hfront : ∀ k ≤ 9, Sketch.Fits k (.call "concat" (.binary "," a anyRunSketch)) p := by
    intro k hk
    have hpair := Sketch.Fits.binary hcomma (ha _ (by decide)) (fits_anyRunSketch (by decide))
      (Nat.zero_le _)
    rw [Bool.and_true] at hpair
    exact .call "concat" hpair hk
  cases mode with
  | exact => exact absurd rfl hmode
  | startsWith => exact hfront k hk
  | endsWith =>
    exact .call "concat" (.binary hcomma (fits_anyRunSketch (by decide)) (ha _ (by decide))
      (Nat.zero_le _)) hk
  | contains =>
    exact .call "concat" (.binary hcomma (fits_anyRunSketch (by decide)) (hfront _ (by decide))
      (Nat.zero_le _)) hk

/-- A pattern with wildcards around it, on the right of LIKE. -/
theorem fits_concatenation {pattern : Expression} (h : Sketch.Fits 0 (pattern.sketch s) p)
    {mode : LikeMode} (hmode : mode ≠ .exact) (d : Dialect) :
    Sketch.Fits 7 (.concatenation d
        (surrounded mode anyRunSketch (pattern.operandSketch (pattern.sketch s))))
      (if d.concatenatesByOperator = true then pattern.isTight p else p) := by
  have hplus : 0 < binaryLevel "+" := by decide
  have hbars : 0 < binaryLevel "||" := by decide
  have hcomma : 0 < binaryLevel "," := by decide
  have htight : ∀ k, 5 < k → k ≤ 8 →
      Sketch.Fits k (pattern.operandSketch (pattern.sketch s)) (pattern.isTight p) :=
    fun _ => fits_operandSketch h
  have hloose : ∀ k ≤ 3, Sketch.Fits k (pattern.operandSketch (pattern.sketch s)) p :=
    fun _ hk => fits_operandSketch_of_le h (Nat.le_trans hk (by decide))
  cases d with
  | sqlServer | oledb =>
    exact fits_chain_surrounded hplus (htight 7 (by decide) (by decide))
      (htight 8 (by decide) (by decide)) hmode (Nat.le_refl _)
  | sqlite | other =>
    exact fits_chain_surrounded hbars (htight 7 (by decide) (by decide))
      (htight 8 (by decide) (by decide)) hmode (Nat.le_refl _)
  | mySql | postgreSql =>
    exact .call "concat" (fits_chain_surrounded hcomma (hloose 2 (by decide))
      (hloose 3 (by decide)) hmode (Nat.zero_le _)) (by decide)
  | oracle => exact fits_pairwise_surrounded hloose hmode (by decide)

/-- A pattern on the right of LIKE. -/
theorem fits_patternSketch {pattern : Expression} (h : Sketch.Fits 0 (pattern.sketch s) p)
    (mode : LikeMode) :
    Sketch.Fits 7 (patternSketch s pattern (pattern.sketch s) mode)
      (if mode = .exact ∨ s.dialect.concatenatesByOperator = true then pattern.isTight p
        else p) := by
  unfold patternSketch
  cases hfolded : foldedPattern? s pattern with
  | some t =>
    obtain ⟨v, rfl⟩ : ∃ v, pattern = constant v := by
      unfold foldedPattern? at hfolded
      split at hfolded
      · exact ⟨_, rfl⟩
      · cases hfolded
    -- A constant respects the levels, so the condition holds.
    have hfits := Sketch.Fits.constant s.writer v (Nat.zero_le 8)
    have hp : p = true := (h 0).mp ((hfits 0).mpr rfl)
    have hcondition : (if mode = .exact ∨ s.dialect.concatenatesByOperator = true then
        (constant v).isTight p else p) = true := by
      rw [hp]
      exact ite_self true
    rw [hcondition]
    exact .constant s.writer _ (by decide)
  | none =>
    dsimp only
    by_cases hmode : mode = .exact
    · rw [if_pos hmode, if_pos (.inl hmode)]
      exact fits_operandSketch h (by decide) (by decide)
    · rw [if_neg hmode]
      have hcondition : (mode = .exact ∨ s.dialect.concatenatesByOperator = true) ↔
          s.dialect.concatenatesByOperator = true := or_iff_right hmode
      simp only [hcondition]
      exact fits_concatenation h hmode s.dialect

/-! ### Lists -/

/-- Membership in a list of constants. -/
theorem fits_membershipSketch (op : Membership) {subject : Expression}
    (h : Sketch.Fits 0 (subject.sketch s) p) (values : List Value) :
    Sketch.Fits 0 (membershipSketch s op subject (subject.sketch s) values)
      (values.isEmpty || subject.isTight p) := by
  have hvalues : Sketch.Fits 0 (.chain "," (values.map (.constant s.writer))) true := by
    have hall : List.Forall₂ (fun a p => ∀ m ≤ 3, Sketch.Fits m a p)
        (values.map (.constant s.writer)) (values.map fun _ => true) := by
      induction values with
      | nil => exact .nil
      | cons v values ih =>
        exact .cons (fun m hm => .constant s.writer v (Nat.le_trans hm (by decide))) ih
    have hchain := Sketch.Fits.chain (Nat.zero_le 1) hall
    have htrue : (values.map fun _ => true).all id = true := by simp
    rwa [htrue] at hchain
  unfold membershipSketch
  cases values.isEmpty with
  | true =>
    -- The test that stands for an empty list has no subject.
    have hlevelled : (emptyMembershipTerm op).Levelled := by
      cases op <;> simp [emptyMembershipTerm, Term.Levelled, Term.level, binaryLevel]
    exact .leaf (Nat.zero_le _) hlevelled
  | false =>
    have hsubject : Sketch.Fits (binaryLevel op.symbol) (subject.operandSketch (subject.sketch s))
        (subject.isTight p) := fits_operandSketch h (by simp) (by simp)
    have hbinary := Sketch.Fits.binary (by simp) hsubject (hvalues.group (by simp))
      (Nat.zero_le _)
    rwa [Bool.and_true] at hbinary

theorem fits_nowSketch (d : Dialect) : Sketch.Fits 0 (nowSketch d) true := by
  cases d with
  | sqlServer | mySql | postgreSql =>
    exact .call _ (.leaf (Nat.zero_le _) trivial) (Nat.zero_le _)
  | sqlite => exact .call _ (.leaf (Nat.zero_le _) trivial) (Nat.zero_le _)
  | oracle | oledb | other => exact .leaf (Nat.zero_le _) trivial

/-- A function call. -/
theorem fits_callSketch (function : Builtin) {args : List Sketch} {conditions : List Bool}
    (distinct : Bool)
    (h : List.Forall₂ (fun a p => ∀ m ≤ 3, Sketch.Fits m a p) args conditions) :
    Sketch.Fits 0 (callSketch s function args distinct)
      (function = .now || conditions.all id) := by
  have hdistinct : unaryLevel "DISTINCT" = 1 := rfl
  have hbody : Sketch.Fits 0
      (if distinct then .unary "DISTINCT" (.chain "," args) else .chain "," args)
      (conditions.all id) := by
    split
    · exact .unary (by decide) (.chain (Nat.le_of_eq hdistinct) h) (Nat.zero_le _)
    · exact .chain (Nat.zero_le 1) h
  unfold callSketch
  dsimp only
  -- The current time is written without arguments, so these may be anything.
  by_cases hnow : function = .now
  · rw [if_pos hnow, decide_eq_true hnow, Bool.true_or]
    exact fits_nowSketch s.dialect
  · rw [if_neg hnow, decide_eq_false hnow, Bool.false_or]
    split
    · exact .call _ (.call _ hbody (Nat.zero_le _)) (Nat.zero_le _)
    · exact .call _ hbody (Nat.zero_le _)

/-! ## Expressions -/

mutual

/-- The sketch of an expression respects the levels if no negation stands beside an operator that
binds more tightly. -/
theorem fits_sketch : ∀ e : Expression, Sketch.Fits 0 (e.sketch s) (e.isGrouped s)
  | .constant v => .constant s.writer v (Nat.zero_le 8)
  | .field f _ => .leaf (Nat.zero_le _) trivial
  | .arithmetic op left right =>
    fits_arithmeticSketch (fits_sketch left) (fits_sketch right) op
  | .comparison op left right =>
    fits_comparisonSketch (fits_sketch left) (fits_sketch right) op
  | .logic op left right => fits_logic (fits_sketch left) (fits_sketch right) op
  | .bitwise op left right => fits_bitwiseSketch (fits_sketch left) (fits_sketch right) op
  | .unary op operand => fits_unarySketch op (fits_sketch operand)
  | .like subject pattern mode => by
    have hlike : 0 < binaryLevel "LIKE" := by decide
    exact .binary hlike (fits_operandSketch (fits_sketch subject) (by decide) (by decide))
      (fits_patternSketch (fits_sketch pattern) mode) (Nat.zero_le _)
  | .membership op subject values => fits_membershipSketch op (fits_sketch subject) values
  | .call function args distinct => fits_callSketch function distinct (fits_sketchList args)
  | .wildcard (some source) => .leaf (Nat.zero_le _) trivial
  | .wildcard none => .leaf (Nat.zero_le _) trivial

/-- The sketches of a list of expressions as arguments of a function. -/
theorem fits_sketchList : ∀ es : List Expression,
    List.Forall₂ (fun a p => ∀ m ≤ 3, Sketch.Fits m a p) (sketchList s es) (areGrouped s es)
  | [] => .nil
  | e :: es => .cons (fun _ hm => fits_argument (fits_sketch e) hm) (fits_sketchList es)

end

/-- The text of an expression whose constants are counted from `index` on. -/
def text (e : Expression) (s : Setting) (index : Nat) : String :=
  (Drafted.draft e s).written s.dialect s.writer index

end Expression

/-- A constant is written as one operand, if the names of parameters are words. -/
theorem Setting.spells_writer {s : Setting}
    (hbase : s.mode = .bound → Config.isParameterBase s.config.parameterBase = true) :
    Writer.Spells s.dialect s.writer := by
  intro index v
  unfold writer
  cases hmode : s.mode with
  | inline => exact v.scans_literal s.dialect
  | bound => exact s.dialect.scans_parameterName (hbase hmode) index

/-- An expression that can be written is read as it is meant, each operator applied to the operands
of its node, exactly if no negation by NOT stands beside an operator that binds more tightly. This
holds with literals and with placeholders, wherever the constants are counted from, if no identifier
ends its quotes early and the parameters have valid names. -/
theorem Expression.read_text {e : Expression} {s : Setting}
    (hnames : ∀ n ∈ e.names, s.dialect.identifierQuotes.2 ∉ n.toList)
    (hbase : s.mode = .bound → Config.isParameterBase s.config.parameterBase = true)
    (h : (Drafted.draft e s).failure = none) (index : Nat) :
    Text.read s.dialect (e.text s index) = some ((e.sketch s).term index) ↔
      e.isGrouped s = true := by
  obtain ⟨-, hscans⟩ := spells_draft (Setting.spells_writer hbase) e hnames h
  have hread : Text.read s.dialect (e.text s index) =
      Lexeme.read ((e.sketch s).term index).lexemes := (hscans index).read_eq
  rw [hread, Lexeme.read_lexemes_iff]
  exact (and_iff_right (Nat.zero_le _)).symm.trans (fits_sketch e index)

/-- A negation on the left of a comparison. -/
def Expression.negationEqual : Expression :=
  .comparison .equal (.unary .not (.field ⟨"A", none⟩ none)) (.field ⟨"B", none⟩ none)

/-- The negation is read as one of the whole comparison. -/
theorem Expression.read_negationEqual :
    renderInline negationEqual .postgreSql .standard = .ok "NOT (\"A\") = \"B\"" ∧
      Text.read .postgreSql "NOT (\"A\") = \"B\"" =
        some (.unary "NOT" (.binary "=" (.group (.operand "\"A\"")) (.operand "\"B\""))) ∧
      (negationEqual.sketch (.outermost .postgreSql .standard .inline)).term 0 =
        .binary "=" (.unary "NOT" (.group (.operand "\"A\""))) (.operand "\"B\"") :=
  ⟨rfl, rfl, rfl⟩

/-- A negation beside a comparison. -/
def Expression.negationAnd : Expression :=
  .logic .and (.unary .not (.field ⟨"A", none⟩ none))
    (.comparison .equal (.field ⟨"B", none⟩ none) (.constant (.int 1)))

/-- A negation beside a comparison is read as it is meant, and one in a comparison is not. -/
theorem Expression.read_text_negations :
    Text.read .postgreSql (negationAnd.text (.outermost .postgreSql .standard .bound) 0) =
        some ((negationAnd.sketch (.outermost .postgreSql .standard .bound)).term 0) ∧
      Text.read .postgreSql (negationEqual.text (.outermost .postgreSql .standard .bound) 0) ≠
        some ((negationEqual.sketch (.outermost .postgreSql .standard .bound)).term 0) := by
  have hread := read_text (e := negationAnd) (s := .outermost .postgreSql .standard .bound)
    (by decide) (fun _ => rfl) rfl 0
  have hmisread := read_text (e := negationEqual) (s := .outermost .postgreSql .standard .bound)
    (by decide) (fun _ => rfl) rfl 0
  refine ⟨hread.mpr rfl, fun hsame => ?_⟩
  cases hmisread.mp hsame

end DialectSql
