import DialectSql.Proofs.Precedence.Expression

/-!
# Lexemes of expressions

An expression in writing has the lexemes of its sketch. Names and constants are single operands,
every operator stands between blanks or in front of its operand, and the arguments of functions are
between parentheses.

## Main results

* `Field.spells_draft` — a column reference is an operand
* `Expression.spells_draft` — an expression in writing has the lexemes of its sketch
-/

namespace DialectSql

open Text

/-! ## Names -/

section Names

variable {d : Dialect} {write : Writer}

theorem Text.joins_point : Joins d ['.'] := .of_isOperandChar fun c hc =>
  isOperandChar_of_class d (p := (· == '.')) (by decide) (by simpa using hc)

/-- A quoted name with more of an operand behind it is an operand. -/
theorem Text.Joins.scans_quoted_append {name behind : String}
    (hname : d.identifierQuotes.2 ∉ name.toList) (hbehind : Joins d behind.toList) :
    Scans d (d.quoteIdentifier name ++ behind).toList
      [.operand (d.quoteIdentifier name ++ behind)] := by
  have hjoins : Joins d (d.quoteIdentifier name ++ behind).toList := by
    rw [String.toList_append]
    exact (Joins.quoteIdentifier hname).append hbehind
  have hquote : d.identifierQuotes.1 ∈ (d.quoteIdentifier name ++ behind).toList := by
    simp [Dialect.quoteIdentifier, enclosed]
  exact hjoins.scans_of_mem hquote (isForeignChar_identifierQuotes d)

/-- A wildcard belongs to its qualifier. -/
theorem Text.scans_qualified_wildcard {source : String}
    (h : d.identifierQuotes.2 ∉ source.toList) :
    Scans d (d.quoteIdentifier source ++ ".*").toList
      [.operand (d.quoteIdentifier source ++ ".*")] := by
  have hqualifier : Joins d ((d.quoteIdentifier source).toList ++ ['.']) :=
    (Joins.quoteIdentifier h).append joins_point
  have hquote : d.identifierQuotes.1 ∈ (d.quoteIdentifier source ++ ".*").toList := by
    simp [Dialect.quoteIdentifier, enclosed]
  have hname := isOperatorName_eq_false hquote (isForeignChar_identifierQuotes d)
  have hchars : (d.quoteIdentifier source ++ ".*").toList =
      (d.quoteIdentifier source).toList ++ ['.'] ++ ['*'] := by
    rw [String.toList_append, List.append_assoc]
    rfl
  have hregion : regionBehind d '*' = .code := by cases d <;> rfl
  -- The sign is in the run of its qualifier because of the point in front of it.
  refine ⟨[], (d.quoteIdentifier source ++ ".*").toList, ?_, fun rest => ?_⟩
  · simp [flush, hname, String.ofList_toList]
  · rw [hchars, List.append_assoc, hqualifier.scan_append [] _ (by simp), List.nil_append,
      List.singleton_append, scan]
    simp [separator?, goesOn, hregion]

theorem Text.scans_wildcard : Scans d "*".toList Term.star.lexemes :=
  ⟨[], ['*'], rfl, fun _ => by cases d <;> rfl⟩

/-- A column reference is an operand if its names have no closing quote. -/
theorem Field.spells_draft {f : Field} (h : ∀ n ∈ f.names, d.identifierQuotes.2 ∉ n.toList) :
    Draft.Spells d write f.draft (.leaf (.operand (f.text d))) := by
  rw [names, List.forall_mem_cons] at h
  unfold draft text
  cases hsource : f.source with
  | some source =>
    have hbehind : Joins d ("." ++ d.quoteIdentifier f.name).toList := by
      rw [String.toList_append]
      exact joins_point.append (.quoteIdentifier h.1)
    have hscans := Joins.scans_quoted_append (h.2 source (by simp [hsource])) hbehind
    rw [← String.append_assoc] at hscans
    refine .of_written rfl (fun index => ?_) hscans
    rw [Draft.written_append rfl, Draft.written_append rfl, Draft.written_quoted,
      Draft.written_text, Draft.written_quoted]
  | none =>
    have hend : Joins d "".toList := .of_isNameChar rfl
    have hscans := Joins.scans_quoted_append h.1 hend
    rw [String.append_empty] at hscans
    exact .of_written rfl (fun index => Draft.written_quoted _) hscans

end Names

namespace Expression

/-! ## Operands -/

/-- An operand in writing, in parentheses if it is an operator itself. -/
def operandText (e : Expression) (sql : String) : String :=
  if e.isCompound then "(" ++ sql ++ ")" else sql

theorem failure_asOperand (e : Expression) (x : Draft) : (e.asOperand x).failure = x.failure := by
  unfold asOperand
  split
  · exact Draft.failure_parens x
  · rfl

theorem constants_asOperand (e : Expression) {x : Draft} (h : x.failure = none) :
    (e.asOperand x).constants = x.constants := by
  unfold asOperand
  split
  · exact Draft.constants_parens h
  · rfl

theorem written_asOperand (e : Expression) {x : Draft} (h : x.failure = none) {d : Dialect}
    {write : Writer} (index : Nat) :
    (e.asOperand x).written d write index = e.operandText (x.written d write index) := by
  unfold asOperand operandText
  split
  · exact Draft.written_parens h index
  · rfl

/-! ## Spelling -/

theorem scans_builtinName {d : Dialect} (function : Builtin) (dialect : Dialect) :
    Scans d (builtinName function dialect).toList [.operand (builtinName function dialect)] := by
  have hword : (builtinName function dialect).toList.all Config.isNameChar = true ∧
      (builtinName function dialect).toList ≠ [] ∧
      isOperatorName (builtinName function dialect) = false := by
    unfold builtinName
    split <;> decide
  exact scans_word hword.1 hword.2.1 hword.2.2

variable {s : Setting} {x y : Draft} {a b : Sketch}

theorem spells_asOperand (e : Expression) (h : x.Spells s.dialect s.writer a) :
    (e.asOperand x).Spells s.dialect s.writer (e.operandSketch a) := by
  unfold asOperand operandSketch
  split
  · exact h.parens
  · exact h

section Nodes

variable (left right : Expression) (hx : x.Spells s.dialect s.writer a)
  (hy : y.Spells s.dialect s.writer b)
include hx hy

theorem spells_arithmeticDraft (op : Arithmetic) :
    (arithmeticDraft s op left right x y).Spells s.dialect s.writer
      (arithmeticSketch s op left right a b) := by
  have hmod : Scans s.dialect "MOD".toList [.operand "MOD"] := scans_word rfl (by decide) rfl
  rw [arithmeticDraft_eq]
  unfold arithmeticSketch
  split
  · exact .call hmod (hx.arguments hy)
  · exact .operation (by simp) (spells_asOperand left hx) (spells_asOperand right hy)

theorem spells_plainComparison (op : Comparison) :
    (plainComparison op x y).Spells s.dialect s.writer (.binary op.symbol a b) :=
  .operation (by simp) hx hy

omit hy in
/-- A test for NULL. -/
theorem spells_nullTest (negated : Bool) :
    (x ++ .text (" " ++ nullOperator negated ++ " " ++ "NULL") : Draft).Spells s.dialect s.writer
      (.binary (nullOperator negated) a (.leaf (.operand "NULL"))) := by
  have hop : 2 < binaryLevel (nullOperator negated) := by simp
  have hnull : Scans s.dialect "NULL".toList [.operand "NULL"] := scans_word rfl (by decide) rfl
  intro hfailure
  obtain ⟨hxfailure, -⟩ := Draft.failure_append_eq_none hfailure
  obtain ⟨hcount, hscans⟩ := hx hxfailure
  refine ⟨?_, fun index => ?_⟩
  · rw [Draft.constants_append hxfailure, List.length_append, hcount]
    rfl
  · rw [Draft.written_append hxfailure, Draft.written_text, String.toList_append,
      String.toList_append, ← List.append_assoc]
    exact (hscans index).separated (separates_operator hop) hnull

theorem spells_comparisonDraft (op : Comparison) :
    (comparisonDraft s op left right x y).Spells s.dialect s.writer
      (comparisonSketch s op left right a b) := by
  have hleft := spells_asOperand left hx
  have hright := spells_asOperand right hy
  have hside : ∀ side : Side, (side.of (left.asOperand x) (right.asOperand y)).Spells s.dialect
      s.writer (side.of (left.operandSketch a) (right.operandSketch b)) := by
    rintro (_ | _)
    · exact hleft
    · exact hright
  have hnot : Settles s.dialect "NOT ".toList [.operator "NOT"] := settles_keyword (.inl rfl)
  rw [comparisonDraft_eq]
  unfold comparisonSketch
  dsimp only
  split
  · next negated side _ => exact spells_nullTest (hside side) negated
  · next negated side _ =>
    split
    · exact .lead hnot (hside side)
    · exact hside side
  · exact spells_plainComparison hleft hright op

theorem spells_bitwiseDraft (op : Bitwise) :
    (bitwiseDraft s op left right x y).Spells s.dialect s.writer
      (bitwiseSketch s op left right a b) := by
  unfold bitwiseDraft bitwiseSketch
  cases hform : bitwiseForm op s.dialect with
  | operator symbol =>
    exact .operation (by simp [binaryLevel_of_bitwiseForm hform]) (spells_asOperand left hx)
      (spells_asOperand right hy)
  | function name =>
    obtain rfl := eq_of_bitwiseForm hform
    exact .call (scans_word rfl (by decide) rfl) (hx.arguments hy)
  | missing feature => exact .fail _ _

end Nodes

theorem spells_unaryDraft (op : Unary) (operand : Expression)
    (h : x.Spells s.dialect s.writer a) :
    (unaryDraft op operand x).Spells s.dialect s.writer (unarySketch op operand a) := by
  have hnot : Settles s.dialect "NOT ".toList [.operator "NOT"] := settles_keyword (.inl rfl)
  have hminus : Separates s.dialect "-".toList [.operator "-"] := fun _ _ => rfl
  have htilde : Separates s.dialect "~".toList [.operator "~"] := fun _ _ => rfl
  cases op with
  | not => exact .lead hnot h.parens
  | negate => exact .lead hminus.settles h.parens
  | bitNot => exact .lead htilde.settles (spells_asOperand operand h)

theorem spells_nowDraft (d : Dialect) :
    (nowDraft d).Spells s.dialect s.writer (nowSketch d) := by
  have hname := scans_builtinName (d := s.dialect) .now d
  cases d with
  | sqlServer | mySql | postgreSql => exact .call hname .empty
  | sqlite => exact .call hname (.text (scans_quoted s.dialect (t := "now") rfl))
  | oracle | oledb | other => exact .text hname

theorem spells_callDraft (function : Builtin) {args : List Draft} {sketches : List Sketch}
    (distinct : Bool) (h : List.Forall₂ (Draft.Spells s.dialect s.writer) args sketches) :
    (callDraft s function args distinct).Spells s.dialect s.writer
      (callSketch s function sketches distinct) := by
  have hdistinct : Settles s.dialect "DISTINCT ".toList [.operator "DISTINCT"] :=
    settles_keyword (.inr rfl)
  have hbody : ((if distinct then .text "DISTINCT " else .empty) ++ Draft.list args :
      Draft).Spells s.dialect s.writer
        (if distinct then .unary "DISTINCT" (.chain "," sketches) else .chain "," sketches) := by
    split
    · exact .lead hdistinct (.list h)
    · rw [Draft.empty_append]
      exact .list h
  have hleading : Scans s.dialect "LTRIM".toList [.operand "LTRIM"] :=
    scans_word rfl (by decide) rfl
  have htrailing : Scans s.dialect "RTRIM".toList [.operand "RTRIM"] :=
    scans_word rfl (by decide) rfl
  rw [callDraft_eq]
  unfold callSketch
  dsimp only
  split
  · exact spells_nowDraft _
  · split
    · exact .call hleading (.call htrailing hbody)
    · exact .call (scans_builtinName function _) hbody

section Constants

variable (hwrite : Writer.Spells s.dialect s.writer)
include hwrite

theorem spells_patternDraft (pattern : Expression) (mode : LikeMode)
    (h : x.Spells s.dialect s.writer a) :
    (patternDraft s pattern x mode).Spells s.dialect s.writer
      (patternSketch s pattern a mode) := by
  have hpattern := spells_asOperand pattern h
  have hany : anyRunLiteral.Spells s.dialect s.writer anyRunSketch :=
    .text (scans_quoted s.dialect (t := "%") rfl)
  have hparts : List.Forall₂ (Draft.Spells s.dialect s.writer)
      (surrounded mode anyRunLiteral (pattern.asOperand x))
      (surrounded mode anyRunSketch (pattern.operandSketch a)) := by
    unfold surrounded
    cases mode.leading <;> cases mode.trailing <;> simp [hany, hpattern]
  rw [patternDraft_eq]
  unfold patternSketch
  split
  · exact .constant hwrite _
  · split
    · exact hpattern
    · exact .concatenation _ hparts

/-- A list of constants. -/
theorem forall_spells_constant (values : List Value) :
    List.Forall₂ (Draft.Spells s.dialect s.writer) (values.map .constant)
      (values.map (.constant s.writer)) := by
  induction values with
  | nil => exact .nil
  | cons v values ih => exact .cons (.constant hwrite v) ih

theorem spells_membershipDraft (op : Membership) (subject : Expression) (values : List Value)
    (h : x.Spells s.dialect s.writer a) :
    (membershipDraft op subject x values).Spells s.dialect s.writer
      (membershipSketch s op subject a values) := by
  have hempty : Scans s.dialect (emptyMembership op).toList (emptyMembershipTerm op).lexemes := by
    refine ⟨(emptyMembershipTerm op).lexemes.dropLast, ['1'], ?_, fun rest => ?_⟩
    · cases op <;> decide
    · obtain ⟨dialect, config, mode, depth⟩ := s
      cases op <;> cases dialect <;> rfl
  unfold membershipDraft membershipSketch
  split
  · exact .text hempty
  · exact .operation (by simp) (spells_asOperand subject h)
      (.parens (.list (forall_spells_constant hwrite values)))

end Constants

mutual

/-- The draft of an expression has the lexemes of its sketch, if no identifier ends its quotes
early. -/
theorem spells_draft (hwrite : Writer.Spells s.dialect s.writer) :
    ∀ e : Expression, (∀ n ∈ e.names, s.dialect.identifierQuotes.2 ∉ n.toList) →
      (e.draft s).Spells s.dialect s.writer (e.sketch s)
  | .constant v, _ => .constant hwrite v
  | .field f _, h => Field.spells_draft h
  | .arithmetic op left right, h => by
    rw [names, List.forall_mem_append] at h
    exact spells_arithmeticDraft left right (spells_draft hwrite left h.1)
      (spells_draft hwrite right h.2) op
  | .comparison op left right, h => by
    rw [names, List.forall_mem_append] at h
    exact spells_comparisonDraft left right (spells_draft hwrite left h.1)
      (spells_draft hwrite right h.2) op
  | .logic op left right, h => by
    rw [names, List.forall_mem_append] at h
    exact .operation op.lt_binaryLevel_symbol
      (spells_asOperand left (spells_draft hwrite left h.1))
      (spells_asOperand right (spells_draft hwrite right h.2))
  | .bitwise op left right, h => by
    rw [names, List.forall_mem_append] at h
    exact spells_bitwiseDraft left right (spells_draft hwrite left h.1)
      (spells_draft hwrite right h.2) op
  | .unary op operand, h => spells_unaryDraft op operand (spells_draft hwrite operand h)
  | .like subject pattern mode, h => by
    rw [names, List.forall_mem_append] at h
    have hlike : 2 < binaryLevel "LIKE" := by decide
    exact .operation hlike (spells_asOperand subject (spells_draft hwrite subject h.1))
      (spells_patternDraft hwrite pattern mode (spells_draft hwrite pattern h.2))
  | .membership op subject values, h =>
    spells_membershipDraft hwrite op subject values (spells_draft hwrite subject h)
  | .call function args distinct, h =>
    spells_callDraft function distinct (spells_draftList hwrite args h)
  | .wildcard (some source), h => by
    have hsource : s.dialect.identifierQuotes.2 ∉ source.toList := h source (by simp [names])
    exact .of_written rfl (fun index => by
      rw [draft, Draft.written_append rfl, Draft.written_quoted, Draft.written_text])
      (scans_qualified_wildcard hsource)
  | .wildcard none, _ => .text scans_wildcard

/-- The drafts of a list of expressions have the lexemes of their sketches. -/
theorem spells_draftList (hwrite : Writer.Spells s.dialect s.writer) :
    ∀ es : List Expression, (∀ n ∈ namesList es, s.dialect.identifierQuotes.2 ∉ n.toList) →
      List.Forall₂ (Draft.Spells s.dialect s.writer) (draftList s es) (sketchList s es)
  | [], _ => .nil
  | e :: es, h => by
    rw [namesList, List.forall_mem_append] at h
    exact .cons (spells_draft hwrite e h.1) (spells_draftList hwrite es h.2)

end

end Expression

end DialectSql
