import DialectSql.Expression.Build
import DialectSql.Proofs.Call
import DialectSql.Proofs.Precedence.Reading
import DialectSql.Proofs.Quoted

/-!
# Patterns

The wildcards at the ends of a constant pattern are taken off it when a match is built, and put back
when it is rendered: inside the constant, or as further operands of a concatenation, of which there
are four forms. Read as a string expression the operand stands for the pattern as it was given.

## Main definitions

* `LikeMode.putBack` — a pattern with the wildcards of a mode
* `Term.string?`, `Text.string?` — the text that a string expression stands for
* `Parameter.text?` — the text that is bound to a placeholder
* `Text.IsPattern` — operands that stand for a pattern

## Main results

* `Expression.putBack_splitPattern` — a pattern is put together from its parts
* `Term.string?_concatenation` — a concatenation stands for its operands, one behind the other
* `Expression.isPattern_matching` — a match against a constant pattern, as it is rendered
-/

namespace DialectSql

/-! ## Wildcards -/

/-- A pattern with the wildcards of a mode. -/
def LikeMode.putBack (mode : LikeMode) (pattern : String) : String :=
  (if mode.leading then "%" else "") ++ pattern ++ (if mode.trailing then "%" else "")

/-- A pattern is put together from what is left of it and its mode. -/
theorem Expression.putBack_splitPattern (pattern : List Char) :
    (splitPattern pattern).2.putBack (String.ofList (splitPattern pattern).1) =
      String.ofList pattern := by
  have hany : ∀ b : Bool, (if b then "%" else "").toList = if b then [anyRun] else [] := by
    rintro (_ | _) <;> rfl
  -- The wildcard in front is taken off first, so that a pattern of one wildcard has it there alone.
  have htrailing : ∀ rest : List Char,
      (if rest.getLast? == some anyRun then rest.dropLast else rest) ++
        (if rest.getLast? == some anyRun then [anyRun] else []) = rest := by
    intro rest
    by_cases hlast : rest.getLast? = some anyRun
    · simp [hlast, List.dropLast_append_getLast? _ hlast]
    · simp [hlast]
  have hleading : (if pattern.head? == some anyRun then [anyRun] else []) ++
      (if pattern.head? == some anyRun then pattern.tail else pattern) = pattern := by
    cases pattern with
    | nil => rfl
    | cons c chars => by_cases hc : c = anyRun <;> simp [hc]
  apply String.toList_inj.mp
  simp only [splitPattern, LikeMode.putBack, LikeMode.leading_ofSides, LikeMode.trailing_ofSides,
    String.toList_append, String.toList_ofList, hany]
  rw [List.append_assoc, htrailing, hleading]

/-! ## String expressions -/

/-- The text that an operand stands for: that of a literal, or what is bound to a placeholder. -/
def Dialect.textOf? (d : Dialect) (bound : String → Option String) (operand : String) :
    Option String :=
  match d.readText operand.toList with
  | some (text, []) => some (String.ofList text)
  | _ => bound operand

/-- The text that a string expression stands for. Operators and the function of a concatenation put
the texts of their operands one behind the other; commas only do so between arguments. -/
def Term.string? (d : Dialect) (bound : String → Option String) :
    (arguments : Bool) → Term → Option String
  | _, operand t => d.textOf? bound t
  | _, group inner => inner.string? d bound false
  | _, call function list => if function = "concat" then list.string? d bound true else none
  | arguments, binary symbol left right =>
    if symbol = "+" ∨ symbol = "||" then
      (left.string? d bound false).bind fun t => (right.string? d bound false).map (t ++ ·)
    else if symbol = "," ∧ arguments = true then
      (left.string? d bound true).bind fun t => (right.string? d bound false).map (t ++ ·)
    else none
  | _, nothing | _, star | _, unary _ _ => none

/-- The text that a text of SQL stands for as a string expression. -/
def Text.string? (d : Dialect) (bound : String → Option String) (t : String) : Option String :=
  (Text.read d t).bind (·.string? d bound false)

namespace Term

variable {d : Dialect} {bound : String → Option String} {t u : Term} {x y : String}

/-- An argument stands for what it stands for alone. -/
theorem string?_argument (h : t.string? d bound false = some x) :
    t.string? d bound true = some x := by
  cases t with
  | binary symbol left right =>
    rw [string?] at h ⊢
    split at h
    · next hsymbol => rwa [if_pos hsymbol]
    · simp at h
  | _ => exact h

theorem string?_operator {symbol : String} (hsymbol : symbol = "+" ∨ symbol = "||")
    (ht : t.string? d bound false = some x) (hu : u.string? d bound false = some y) :
    (binary symbol t u).string? d bound false = some (x ++ y) := by
  rw [string?, if_pos hsymbol, ht, hu]
  rfl

theorem string?_comma (ht : t.string? d bound true = some x)
    (hu : u.string? d bound false = some y) :
    (binary "," t u).string? d bound true = some (x ++ y) := by
  rw [string?, if_neg (by decide), if_pos ⟨rfl, rfl⟩, ht, hu]
  rfl

theorem string?_concat (h : t.string? d bound true = some x) :
    (call "concat" t).string? d bound false = some x := h

end Term

/-! ## Concatenations -/

/-- The text that operands from a place on stand for, one behind the other. -/
def Sketch.strings? (d : Dialect) (bound : String → Option String) :
    (index : Nat) → List Sketch → Option String
  | _, [] => some ""
  | index, a :: parts =>
    ((a.term index).string? d bound false).bind fun x =>
      (strings? d bound (index + a.count) parts).map (x ++ ·)

namespace Sketch

variable {d : Dialect} {bound : String → Option String} {index : Nat} {a : Sketch}
  {parts : List Sketch} {x : String}

theorem strings?_cons_eq_some_iff :
    strings? d bound index (a :: parts) = some x ↔
      ∃ y z, (a.term index).string? d bound false = some y ∧
        strings? d bound (index + a.count) parts = some z ∧ y ++ z = x := by
  simp [strings?, Option.bind_eq_some_iff]

/-- Operators of a chain put the texts of their operands one behind the other, from the left. -/
theorem string?_foldl {symbol : String} {arguments : Bool}
    (hstep : ∀ {t u : Term} {x y : String}, t.string? d bound arguments = some x →
      u.string? d bound false = some y →
        (Term.binary symbol t u).string? d bound arguments = some (x ++ y))
    {y : String} (ha : (a.term index).string? d bound arguments = some x)
    (hparts : strings? d bound (index + a.count) parts = some y) :
    ((parts.foldl (binary symbol) a).term index).string? d bound arguments = some (x ++ y) := by
  induction parts generalizing a x y with
  | nil =>
    cases hparts
    rw [List.foldl_nil, String.append_empty, ha]
  | cons b parts ih =>
    obtain ⟨z, rest, hb, hrest, rfl⟩ := strings?_cons_eq_some_iff.mp hparts
    -- The operator takes the next operand, and stands in front of the others with it.
    rw [List.foldl_cons, ← String.append_assoc]
    rw [Nat.add_assoc] at hrest
    exact ih (hstep ha hb) hrest

/-- Nested calls put the texts of their operands one behind the other, from the right. -/
theorem string?_pairwise (h : strings? d bound index parts = some x) (hne : parts ≠ []) :
    ((concatenation.pairwise parts).term index).string? d bound false = some x := by
  induction parts generalizing index x with
  | nil => exact absurd rfl hne
  | cons a parts ih =>
    obtain ⟨y, z, ha, hparts, rfl⟩ := strings?_cons_eq_some_iff.mp h
    cases parts with
    | nil =>
      cases hparts
      rw [concatenation.pairwise, String.append_empty, ha]
    | cons b parts =>
      have hnested := ih hparts (List.cons_ne_nil b parts)
      exact Term.string?_concat (Term.string?_comma (Term.string?_argument ha) hnested)

/-- A concatenation stands for its operands, one behind the other, in the form of any dialect. -/
theorem string?_concatenation (dialect : Dialect) (h : strings? d bound index parts = some x)
    (hne : parts ≠ []) :
    ((concatenation dialect parts).term index).string? d bound false = some x := by
  have hpairwise := string?_pairwise h hne
  obtain ⟨a, parts, rfl⟩ := List.exists_cons_of_ne_nil hne
  obtain ⟨y, z, ha, hparts, rfl⟩ := strings?_cons_eq_some_iff.mp h
  have hoperator : ∀ symbol, symbol = "+" ∨ symbol = "||" →
      ((chain symbol (a :: parts)).term index).string? d bound false = some (y ++ z) :=
    fun symbol hsymbol => string?_foldl (Term.string?_operator hsymbol) ha hparts
  have hcall : ((call "concat" (chain "," (a :: parts))).term index).string? d bound false =
      some (y ++ z) :=
    Term.string?_concat (string?_foldl Term.string?_comma (Term.string?_argument ha) hparts)
  cases dialect with
  | sqlServer | oledb => exact hoperator "+" (.inl rfl)
  | mySql | postgreSql => exact hcall
  | sqlite | other => exact hoperator "||" (.inr rfl)
  | oracle => exact hpairwise

end Sketch

open Expression in
/-- An operand with wildcards around it stands for its text with them. -/
theorem Sketch.strings?_surrounded {d : Dialect} {bound : String → Option String} {index : Nat}
    {a : Sketch} {x : String} (mode : LikeMode)
    (h : (a.term index).string? d bound false = some x) :
    strings? d bound index (surrounded mode anyRunSketch a) = some (mode.putBack x) := by
  have hany : ∀ index, (anyRunSketch.term index).string? d bound false = some "%" := fun _ => by
    cases d <;> rfl
  have hcount : index + anyRunSketch.count = index := rfl
  cases mode with
  | exact => simp [surrounded, LikeMode.putBack, LikeMode.leading, LikeMode.trailing, strings?, h]
  | startsWith =>
    simp [surrounded, LikeMode.putBack, LikeMode.leading, LikeMode.trailing, strings?, h, hany]
  | endsWith =>
    simp [surrounded, LikeMode.putBack, LikeMode.leading, LikeMode.trailing, strings?, h, hany,
      hcount]
  | contains =>
    simp [surrounded, LikeMode.putBack, LikeMode.leading, LikeMode.trailing, strings?, h, hany,
      hcount, String.append_assoc]

/-! ## Constants -/

namespace Dialect

/-- A literal stands for its text, whatever is bound. -/
theorem textOf?_quoteText (d : Dialect) (bound : String → Option String) (t : String) :
    d.textOf? bound (d.quoteText t) = some t := by
  have hread := (d.readText_quoteText_iff t []).mpr (by simp)
  rw [List.append_nil] at hread
  rw [textOf?, hread]
  exact congrArg some String.ofList_toList

/-- A placeholder stands for what is bound to it. -/
theorem textOf?_parameterName (d : Dialect) (bound : String → Option String) (base : String)
    (index : Nat) : d.textOf? bound (d.parameterName base index) =
      bound (d.parameterName base index) := by
  have hread : d.readText (d.parameterName base index).toList = none := by
    rw [toList_parameterName]
    cases d <;> rfl
  rw [textOf?, hread]

end Dialect

/-- Operands that stand for a pattern. SQLite has no concatenation there, but one literal or one
placeholder. -/
structure Text.IsPattern (d : Dialect) (bound : String → Option String) (operand t : String) :
    Prop where
  string? : Text.string? d bound operand = some t
  single : d = .sqlite → Text.read d operand = some (.operand operand)

namespace Expression

variable {s : Setting} {bound : String → Option String} {index : Nat} {u : String}

/-- A text constant is a single operand. -/
theorem term_constant_text (s : Setting) (index : Nat) (u : String) :
    (Sketch.constant s.writer (.text u)).term index =
      .operand (s.writer index (.text u)) := by
  refine Term.ofConstant_of_head ?_
  have hmarker : s.dialect.parameterMarker ≠ '-' := by cases s.dialect <;> decide
  unfold Setting.writer
  cases s.mode with
  | inline => simp [literals, Value.literal, Dialect.quoteText, Text.enclosed]
  | bound => simpa [placeholders, Dialect.toList_parameterName] using hmarker

/-- A text constant stands for its text, if that is bound to its placeholder. -/
theorem string?_constant (hbound : s.mode = .bound →
    bound (s.dialect.parameterName s.config.parameterBase index) = some u) :
    ((Sketch.constant s.writer (.text u)).term index).string? s.dialect bound false = some u := by
  rw [term_constant_text, Term.string?]
  unfold Setting.writer
  cases hmode : s.mode with
  | inline => exact s.dialect.textOf?_quoteText bound u
  | bound => exact (s.dialect.textOf?_parameterName bound _ index).trans (hbound hmode)

/-- The constant that is written for a pattern, with its wildcards or without them. -/
def patternConstant (d : Dialect) (mode : LikeMode) (pattern : String) : String :=
  if d = .sqlite then mode.putBack pattern else pattern

/-- The operand of a match against a constant text. -/
def textPatternDraft (s : Setting) (pattern : String) (mode : LikeMode) : Draft :=
  patternDraft s (constant (.text pattern)) ((constant (.text pattern)).draft s) mode

/-- The operand never fails, and its one constant is that of the pattern. -/
theorem constants_textPatternDraft (s : Setting) (u : String) (mode : LikeMode) :
    (textPatternDraft s u mode).failure = none ∧
      (textPatternDraft s u mode).constants = [.text (patternConstant s.dialect mode u)] := by
  obtain ⟨dialect, config, m, depth⟩ := s
  cases dialect <;> cases mode <;> exact ⟨rfl, rfl⟩

/-- The sketch of a match against a constant text, which is a single operand on SQLite. -/
theorem string?_patternSketch (mode : LikeMode) (hbound : s.mode = .bound →
      bound (s.dialect.parameterName s.config.parameterBase index) =
        some (patternConstant s.dialect mode u)) :
    ((patternSketch s (constant (.text u)) (.constant s.writer (.text u)) mode).term index).string?
      s.dialect bound false = some (mode.putBack u) := by
  by_cases hdialect : s.dialect = .sqlite
  · have hfolded : foldedPattern? s (constant (.text u)) = some u := if_pos hdialect
    -- The constant has its wildcards inside.
    rw [patternConstant, if_pos hdialect] at hbound
    rw [patternSketch, hfolded]
    exact string?_constant hbound
  · have hfolded : foldedPattern? s (constant (.text u)) = none := if_neg hdialect
    -- The wildcards are operands of their own, and the constant is what stands between them.
    rw [patternConstant, if_neg hdialect] at hbound
    have hconstant := string?_constant hbound
    rw [patternSketch, hfolded]
    dsimp only
    split
    · next hmode =>
      subst hmode
      have hoperand : (constant (.text u)).operandSketch (.constant s.writer (.text u)) =
          .constant s.writer (.text u) := rfl
      simpa [hoperand, LikeMode.putBack, LikeMode.leading, LikeMode.trailing] using hconstant
    · exact Sketch.string?_concatenation _ (Sketch.strings?_surrounded mode hconstant)
        (by simp [surrounded])

/-- The operand of a match stands for the pattern with its wildcards, in either mode, if the
constant of the pattern is bound to its placeholder. -/
theorem isPattern_textPatternDraft
    (hbase : s.mode = .bound → Config.isParameterBase s.config.parameterBase = true)
    (mode : LikeMode) (hbound : s.mode = .bound →
      bound (s.dialect.parameterName s.config.parameterBase index) =
        some (patternConstant s.dialect mode u)) :
    Text.IsPattern s.dialect bound
      ((textPatternDraft s u mode).written s.dialect s.writer index) (mode.putBack u) := by
  have hwrite := Setting.spells_writer hbase
  have hstring := string?_patternSketch mode hbound
  -- A constant is no negation, so the operand is read as its sketch.
  have hread : Text.read s.dialect ((textPatternDraft s u mode).written s.dialect s.writer index) =
      some ((patternSketch s (constant (.text u)) (.constant s.writer (.text u)) mode).term
        index) := by
    have hfits := fits_patternSketch (fits_sketch (s := s) (constant (.text u))) mode
    have htrue : (if mode = .exact ∨ s.dialect.concatenatesByOperator = true then
        (constant (.text u)).isTight ((constant (.text u)).isGrouped s)
      else (constant (.text u)).isGrouped s) = true := ite_self true
    obtain ⟨-, hscans⟩ := spells_patternDraft hwrite (constant (.text u)) mode
      (.constant hwrite (.text u)) (constants_textPatternDraft s u mode).1
    exact (hscans index).read_eq.trans (Lexeme.read_lexemes ((hfits index).mpr htrue).2)
  refine ⟨by rw [Text.string?, hread, Option.bind_some, hstring], fun hdialect => ?_⟩
  have hfolded : foldedPattern? s (constant (.text u)) = some u := if_pos hdialect
  have hwritten : (textPatternDraft s u mode).written s.dialect s.writer index =
      s.writer index (.text (mode.putBack u)) := by
    rw [textPatternDraft, patternDraft_eq, hfolded]
    exact Draft.written_value _
  rw [hread, hwritten, patternSketch, hfolded]
  exact congrArg some (term_constant_text s index _)

/-- The match of an expression that can be written against a constant text: its constants, and its
text, in which the operand of the pattern stands behind all of the subject. -/
theorem draft_matching (s : Setting) {left : Expression} (h : (left.draft s).failure = none)
    (t : String) :
    ∃ u mode, mode.putBack u = t ∧
      ((left.matching (.constant (.text t))).draft s).failure = none ∧
      ((left.matching (.constant (.text t))).draft s).constants =
        (left.draft s).constants ++ [.text (patternConstant s.dialect mode u)] ∧
      ∀ write index, ((left.matching (.constant (.text t))).draft s).written s.dialect write index =
        left.operandText ((left.draft s).written s.dialect write index) ++ " LIKE " ++
          (textPatternDraft s u mode).written s.dialect write
            (index + (left.draft s).constants.length) := by
  refine ⟨_, _, (putBack_splitPattern t.toList).trans String.ofList_toList, ?_⟩
  obtain ⟨hfailure, hconstants⟩ := constants_textPatternDraft s
    (String.ofList (splitPattern t.toList).1) (splitPattern t.toList).2
  have hsubject := (failure_asOperand left (left.draft s)).trans h
  have hlike := Draft.failure_append_text hsubject " LIKE "
  -- The constant of the pattern is counted behind those of the subject.
  have hfront : (left.asOperand (left.draft s) ++ .text " LIKE " : Draft).constants =
      (left.draft s).constants := by
    rw [Draft.constants_append_text hsubject, constants_asOperand left h]
  have hdraft : (left.matching (.constant (.text t))).draft s =
      left.asOperand (left.draft s) ++ .text " LIKE " ++ textPatternDraft s
        (String.ofList (splitPattern t.toList).1) (splitPattern t.toList).2 := rfl
  rw [hdraft]
  refine ⟨?_, ?_, fun write index => ?_⟩
  · rw [Draft.failure_append, hlike, hfailure]
    rfl
  · rw [Draft.constants_append hlike, hfront, hconstants]
  · rw [Draft.written_append hlike, Draft.written_append hsubject, Draft.written_text, hfront,
      written_asOperand left h]

end Expression

/-! ## Parameters -/

/-- The text that is bound to a placeholder. -/
def Parameter.text? (parameters : List Parameter) (name : String) : Option String :=
  (parameters.find? (·.name == name)).bind fun p =>
    match p.value with
    | .text t => some t
    | _ => none

/-- The last of some constants is bound to its placeholder, because no other has its name. -/
theorem Parameter.text?_parametersFrom {σ : Type} (supply : Supply σ) (d : Dialect) (base : String)
    (index : Nat) (front : List Value) (t : String) (state : σ) :
    Parameter.text? (parametersFrom supply d base index (front ++ [.text t]) state).1
      (d.parameterName base (index + front.length)) = some t := by
  induction front generalizing index state with
  | nil => simp [parametersFrom, Parameter.text?, Value.bound]
  | cons v front ih =>
    -- The parameter in front has another number, and so another name.
    have hne : d.parameterName base index ≠
        d.parameterName base (index + (v :: front).length) := by
      intro heq
      have hindex := d.parameterName_injective base heq
      rw [List.length_cons] at hindex
      omega
    have hnext : index + (v :: front).length = index + 1 + front.length := by
      rw [List.length_cons]
      omega
    have hfind := ih (index + 1) (supply.create state).2
    rw [← hnext] at hfind
    simp only [List.cons_append, parametersFrom, Parameter.text?]
    rw [List.find?_cons_of_neg (by simpa using hne)]
    exact hfind

/-! ## Rendering -/

section Rendering

variable {α : Type} [Drafted α] {node : α} {d : Dialect} {config : Config}

/-- What is rendered between literals is the draft in writing. -/
theorem renderInline_eq_ok_iff {sql : String} :
    renderInline node d config = .ok sql ↔
      (Drafted.draft node (.outermost d config .inline)).failure = none ∧
        (Drafted.draft node (.outermost d config .inline)).written d (literals d) 0 = sql := by
  unfold renderInline
  dsimp only
  rw [Draft.literalText_eq_written d _ 0]
  cases (Drafted.draft node (.outermost d config .inline)).failure <;> simp

/-- What is rendered with placeholders is the draft in writing, and the parameters of its
constants. -/
theorem renderBound_eq_ok_iff {σ : Type} {supply : Supply σ} {state : σ} {r : Rendered σ} :
    renderBound node d config supply state = .ok r ↔
      let draft := Drafted.draft node (.outermost d config .bound)
      draft.failure = none ∧ draft.written d (placeholders d config.parameterBase) 0 = r.sql ∧
        parametersFrom supply d config.parameterBase 0 draft.constants state =
          (r.parameters, r.state) := by
  unfold renderBound
  dsimp only
  rw [Draft.placeholderText_eq_written]
  obtain ⟨sql, parameters, last⟩ := r
  cases (Drafted.draft node (.outermost d config .bound)).failure <;> simp [Prod.ext_iff]

end Rendering

/-- A match against a constant text is rendered where its subject is, with the subject in front of
LIKE, in parentheses if it is an operator itself, and an operand that stands for the text behind it.
Between literals the operand needs no parameters, and otherwise it stands for the text with what the
parameters carry, if they have valid names. -/
theorem Expression.isPattern_matching {σ : Type} (left : Expression) (t : String) (d : Dialect)
    (config : Config) (supply : Supply σ) (state : σ) :
    (∀ sql, renderInline left d config = .ok sql →
      ∃ operand, renderInline (left.matching (.constant (.text t))) d config =
          .ok (left.operandText sql ++ " LIKE " ++ operand) ∧
        Text.IsPattern d (fun _ => none) operand t) ∧
    (Config.isParameterBase config.parameterBase = true →
      ∀ r, renderBound left d config supply state = .ok r →
      ∃ operand r', renderBound (left.matching (.constant (.text t))) d config supply state =
          .ok r' ∧
        r'.sql = left.operandText r.sql ++ " LIKE " ++ operand ∧
        Text.IsPattern d (Parameter.text? r'.parameters) operand t) := by
  constructor
  · intro sql hsql
    obtain ⟨hleft, rfl⟩ := renderInline_eq_ok_iff.mp hsql
    obtain ⟨u, mode, rfl, hfailure, -, hwritten⟩ := draft_matching _ hleft t
    refine ⟨_, renderInline_eq_ok_iff.mpr ⟨hfailure, hwritten _ _⟩, ?_⟩
    exact isPattern_textPatternDraft (s := .outermost d config .inline) (fun h => by cases h) mode
      (fun h => by cases h)
  · intro hbase r hr
    obtain ⟨hleft, hsql, -⟩ := renderBound_eq_ok_iff.mp hr
    obtain ⟨u, mode, rfl, hfailure, hconstants, hwritten⟩ := draft_matching _ hleft t
    have hbound := Parameter.text?_parametersFrom supply d config.parameterBase 0
      (left.draft (.outermost d config .bound)).constants (patternConstant d mode u) state
    have hpattern := isPattern_textPatternDraft (s := .outermost d config .bound) (u := u)
      (fun _ => hbase) mode fun _ => hbound
    change _ = _ ++ [Value.text (patternConstant d mode u)] at hconstants
    rw [← hconstants] at hpattern
    refine ⟨_, ⟨_, _, _⟩, renderBound_eq_ok_iff.mpr ⟨hfailure, rfl, rfl⟩, ?_, hpattern⟩
    rw [← hsql]
    exact hwritten _ _

/-- A comparison with a constant of its own. -/
def Expression.equalOne : Expression :=
  .comparison .equal (.field ⟨"a", none⟩ none) (.constant (.int 1))

/-- A pattern of quotes, backslashes and wildcards, for a comparison. -/
theorem Expression.isPattern_matching_escapes :
    (∃ operand, renderInline (equalOne.matching (.constant (.text "%'\\%%"))) .mySql .standard =
        .ok ("(\x60a\x60 = 1)" ++ " LIKE " ++ operand) ∧
      Text.IsPattern .mySql (fun _ => none) operand "%'\\%%") ∧
    ∃ operand r, renderBound (equalOne.matching (.constant (.text "%'\\%%"))) .mySql .standard
        .counting 0 = .ok r ∧
      r.sql = "(\x60a\x60 = ?p0)" ++ " LIKE " ++ operand ∧
      Text.IsPattern .mySql (Parameter.text? r.parameters) operand "%'\\%%" := by
  obtain ⟨hinline, hbound⟩ := isPattern_matching equalOne "%'\\%%" .mySql .standard .counting 0
  exact ⟨hinline _ rfl, hbound rfl _ rfl⟩

end DialectSql
