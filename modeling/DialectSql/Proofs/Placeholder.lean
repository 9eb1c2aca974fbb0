import Mathlib.Data.List.Nodup
import Mathlib.Logic.Function.Iterate
import DialectSql.Proofs.Phrase.Change
import DialectSql.Proofs.Written

/-!
# Placeholders

In the text of a statement with placeholders, the markers stand at the placeholders and nowhere
else, so that a reader who looks for markers finds the names of the parameters in their order. This
needs identifiers without markers; the constants are not in the text at all.

## Main definitions

* `Text.markedRuns` — the runs of a marker and a word behind it

## Main results

* `Phrase.markedRuns_written` — the runs of a phrase are its placeholders
* `Statement.markedRuns_renderBound` — the runs of a statement are the names of its parameters
-/

namespace DialectSql

open Text

/-- The runs of a marker with the letters, digits and underscores behind it, from left to right. -/
def Text.markedRuns (marker : Char) : List Char → List String
  | [] => []
  | c :: chars =>
    if c = marker then
      String.ofList (c :: chars.takeWhile Config.isNameChar) :: markedRuns marker chars
    else markedRuns marker chars

namespace Text

variable {marker : Char}

/-- Characters without markers bring no runs. -/
theorem markedRuns_append_of_not_mem {front : List Char} (h : marker ∉ front) (rest : List Char) :
    markedRuns marker (front ++ rest) = markedRuns marker rest := by
  induction front with
  | nil => rfl
  | cons c front ih =>
    rw [List.mem_cons, not_or] at h
    rw [List.cons_append, markedRuns, if_neg (Ne.symm h.1), ih h.2]

/-- A marker with a word is a run where no word goes on behind it. -/
theorem markedRuns_append_of_word {word rest : List Char}
    (hmarker : Config.isNameChar marker = false) (hword : word.all Config.isNameChar = true)
    (hrest : beginsApart rest = true) :
    markedRuns marker (marker :: word ++ rest) =
      String.ofList (marker :: word) :: markedRuns marker rest := by
  have hmem : marker ∉ word := by
    intro hmem
    rw [List.all_eq_true.mp hword marker hmem] at hmarker
    cases hmarker
  have htake : (word ++ rest).takeWhile Config.isNameChar = word := by
    rw [List.takeWhile_append_of_pos (by simpa using hword)]
    cases rest with
    | nil => simp
    | cons c rest =>
      have hc : Config.isNameChar c = false := by simpa [beginsApart] using hrest
      simp [hc]
  rw [List.cons_append, markedRuns, if_pos rfl, htake, markedRuns_append_of_not_mem hmem]

end Text

namespace Dialect

/-- A marker is no part of a word. -/
theorem isNameChar_parameterMarker (d : Dialect) :
    Config.isNameChar d.parameterMarker = false := by
  cases d <;> decide

/-- A marker is no part of a keyword, a number or an operator. -/
theorem parameterMarker_not_mem_of_isPlain (d : Dialect) {t : String} (h : isPlain t = true) :
    d.parameterMarker ∉ t.toList := by
  intro hmem
  have hplain : isPlainChar d.parameterMarker = true := List.all_eq_true.mp h _ hmem
  revert hplain
  cases d <;> decide

/-- Parentheses and the quotes of text literals are no markers. -/
theorem parameterMarker_ne_of_enclosing (d : Dialect) :
    d.parameterMarker ≠ '\'' ∧ d.parameterMarker ≠ '(' ∧ d.parameterMarker ≠ ')' := by
  cases d <;> decide

/-- The quotes of a dialect are no markers. -/
theorem parameterMarker_not_mem_quoteIdentifier (d : Dialect) {name : String}
    (h : d.parameterMarker ∉ name.toList) :
    d.parameterMarker ∉ (d.quoteIdentifier name).toList := by
  have hquotes : d.parameterMarker ≠ d.identifierQuotes.1 ∧
      d.parameterMarker ≠ d.identifierQuotes.2 := by
    cases d <;> decide
  simp [quoteIdentifier, enclosed, h, hquotes.1, hquotes.2]

/-- A placeholder is a marker with a word behind it. -/
theorem toList_parameterName (d : Dialect) (base : String) (index : Nat) :
    (d.parameterName base index).toList =
      d.parameterMarker :: (base.toList ++ (natural index).toList) := by
  simp [parameterName]

/-- Different parameters have different placeholders. -/
theorem parameterName_injective (d : Dialect) (base : String) :
    Function.Injective (d.parameterName base) := by
  intro i j h
  have hchars := congrArg String.toList h
  rw [toList_parameterName, toList_parameterName, List.cons.injEq, List.append_cancel_left_eq]
    at hchars
  exact natural_injective (String.toList_inj.mp hchars.2)

end Dialect

/-- The runs of a phrase with placeholders are its placeholders, where the identifiers have no
marker and no word runs on behind the phrase. -/
theorem Phrase.markedRuns_written {N B T : String → Prop} {opens closes : Bool} {draft : Draft}
    {d : Dialect} {base : String} (hN : ∀ n, N n → d.parameterMarker ∉ n.toList)
    (hB : ∀ n, B n → d.parameterMarker ∉ n.toList)
    (hbase : Config.isParameterBase base = true) (h : Phrase N B T opens closes draft)
    (hfailure : draft.failure = none) (index : Nat) {rest : List Char}
    (hrest : closes = true ∨ beginsApart rest = true) :
    markedRuns d.parameterMarker
        ((draft.written d (placeholders d base) index).toList ++ rest) =
      (List.range' index draft.constants.length).map (d.parameterName base) ++
        markedRuns d.parameterMarker rest := by
  induction h generalizing index rest with
  | text hplain _ =>
    rw [Draft.written_text,
      markedRuns_append_of_not_mem (d.parameterMarker_not_mem_of_isPlain hplain)]
    rfl
  | mark hplain _ =>
    rename_i t _
    have hmark : d.parameterMarker ∉ ("'" ++ t ++ "'").toList := by
      simp [d.parameterMarker_not_mem_of_isPlain hplain, d.parameterMarker_ne_of_enclosing]
    rw [Draft.written_text, markedRuns_append_of_not_mem hmark]
    rfl
  | quoted hname =>
    rw [Draft.written_quoted, markedRuns_append_of_not_mem
      (d.parameterMarker_not_mem_quoteIdentifier (hN _ hname))]
    rfl
  | bare hname =>
    rw [Draft.written_bare, markedRuns_append_of_not_mem (hB _ hname)]
    rfl
  | value v =>
    -- The run ends where the placeholder does, because no word goes on behind it.
    have hword : (base.toList ++ (natural index).toList).all Config.isNameChar = true := by
      rw [Config.isParameterBase, Bool.and_eq_true] at hbase
      rw [List.all_append, hbase.2, all_isNameChar_natural, Bool.true_and]
    rw [Draft.written_value, placeholders, Dialect.toList_parameterName,
      markedRuns_append_of_word d.isNameChar_parameterMarker hword (by simpa using hrest),
      ← Dialect.toList_parameterName, String.ofList_toList]
    rfl
  | fail e => cases hfailure
  | noArguments =>
    rw [Draft.written_parens rfl]
    have hparens : d.parameterMarker ∉ ("(" ++ Draft.empty.written d (placeholders d base) index ++
        ")").toList := by
      simp [d.parameterMarker_ne_of_enclosing]
    rw [markedRuns_append_of_not_mem hparens]
    rfl
  | parens _ ih =>
    rename_i inner _
    rw [Draft.failure_parens] at hfailure
    -- Inside of parentheses the closing one ends the last word.
    have hclosing : beginsApart (')' :: rest) = true := rfl
    have hinner := ih hfailure index (.inr hclosing)
    have hopen : d.parameterMarker ∉ ['('] := by simp [d.parameterMarker_ne_of_enclosing]
    have hclose : d.parameterMarker ∉ [')'] := by simp [d.parameterMarker_ne_of_enclosing]
    have hchars : (inner.parens.written d (placeholders d base) index).toList ++ rest =
        ['('] ++ ((inner.written d (placeholders d base) index).toList ++ ([')'] ++ rest)) := by
      rw [Draft.written_parens hfailure]
      simp
    rw [hchars, markedRuns_append_of_not_mem hopen, Draft.constants_parens hfailure,
      List.singleton_append, hinner, ← List.singleton_append, markedRuns_append_of_not_mem hclose]
  | append _ hb hapart iha ihb =>
    rename_i closes₁ _ _ a b _
    obtain ⟨hfirst, hsecond⟩ := Draft.failure_append_eq_none hfailure
    -- Where the two parts meet, no word of the first part runs into the second.
    have hmeet : closes₁ = true ∨ beginsApart ((b.written d (placeholders d base)
        (index + a.constants.length)).toList ++ rest) = true := by
      rw [Bool.or_eq_true] at hapart
      exact hapart.imp_right fun hopens => hb.beginsApart_written hopens hsecond _ rest
    rw [Draft.written_append hfirst, String.toList_append, List.append_assoc,
      iha hfirst index hmeet, ihb hsecond _ hrest, Draft.constants_append hfirst,
      List.length_append, ← List.append_assoc, ← List.map_append, List.range'_append_1]
  | weaken _ _ hle ih => exact ih hfailure index (hrest.imp_left hle)

/-! ## The parameters of constants -/

section Parameters

variable {σ : Type} (supply : Supply σ) (d : Dialect) (base : String)

/-- Parameters have the names of their placeholders. -/
theorem map_name_parametersFrom (index : Nat) (values : List Value) (state : σ) :
    (parametersFrom supply d base index values state).1.map (·.name) =
      (List.range' index values.length).map (d.parameterName base) := by
  induction values generalizing index state with
  | nil => rfl
  | cons v values ih =>
    rw [parametersFrom, List.map_cons, ih, List.length_cons, List.range'_succ, List.map_cons]

/-- A supply is asked once for each parameter. -/
theorem state_parametersFrom (index : Nat) (values : List Value) (state : σ) :
    (parametersFrom supply d base index values state).2 =
      (fun s => (supply.create s).2)^[values.length] state := by
  induction values generalizing index state with
  | nil => rfl
  | cons v values ih =>
    rw [parametersFrom, ih, List.length_cons, Function.iterate_succ_apply]

end Parameters

/-! ## Statements -/

/-- What is written of a statement, with or without implied orders, is a phrase. -/
theorem Statement.phrase_drafted {N : String → Prop} (hN : AdmitsSymbols N) {t : Statement}
    (h : ∀ n ∈ t.names, N n) (s : Setting) : AnyPhrase N N false false (Drafted.draft t s) := by
  change AnyPhrase N N false false ((if s.numbersRows then t.implyOrders else t).draft s)
  split
  · exact phrase_draft hN (names_implyOrders hN h) s
  · exact phrase_draft hN h s

/-- If no identifier of a statement has a marker, then the runs of markers in its text with
placeholders are the names of its parameters in their order. The parameters are numbered from zero,
no name occurs twice, and the supply was asked once for each of them. -/
theorem Statement.markedRuns_renderBound {σ : Type} {t : Statement} {d : Dialect} {config : Config}
    (supply : Supply σ) (state : σ) {r : Rendered σ}
    (hbase : Config.isParameterBase config.parameterBase = true)
    (hnames : ∀ n ∈ t.names, d.parameterMarker ∉ n.toList)
    (hr : renderBound t d config supply state = .ok r) :
    markedRuns d.parameterMarker r.sql.toList = r.parameters.map (·.name) ∧
      r.parameters.map (·.name) =
        (List.range r.parameters.length).map (d.parameterName config.parameterBase) ∧
      (r.parameters.map (·.name)).Nodup ∧
      r.state = (fun s => (supply.create s).2)^[r.parameters.length] state := by
  have hsymbols : AdmitsSymbols fun n => d.parameterMarker ∉ n.toList :=
    .of_separator d.isNameChar_parameterMarker
  unfold renderBound at hr
  dsimp only at hr
  have hphrase := phrase_drafted hsymbols hnames (.outermost d config .bound)
  generalize Drafted.draft t (.outermost d config .bound) = draft at hr hphrase
  cases hfailure : draft.failure with
  | some e => simp [hfailure] at hr
  | none =>
    have hlist := map_name_parametersFrom supply d config.parameterBase 0 draft.constants state
    -- Nothing stands behind the whole text, so no placeholder can run into it.
    have hend : beginsApart [] = true := rfl
    have hruns :=
      hphrase.markedRuns_written (fun _ => id) (fun _ => id) hbase hfailure 0 (.inr hend)
    simp only [hfailure, Except.ok.injEq] at hr
    subst hr
    rw [Draft.placeholderText_eq_written]
    dsimp only
    rw [length_parametersFrom, hlist, List.range_eq_range']
    refine ⟨?_, rfl, ?_, state_parametersFrom _ _ _ _ _ _⟩
    · simpa [markedRuns] using hruns
    · exact List.Nodup.map (d.parameterName_injective _) List.nodup_range'

/-- Different rows of a join behind the first five, restricted by a pattern, a list and a subquery.
-/
def Statement.window : Statement :=
  .query
    { source := .joined .inner (.ofTableAs "users" "u")
        (.ofQuery ((Query.ofTable "orders").filter
          (.expression
            (.comparison .greaterThan (.ofField ⟨"total", none⟩) (.constant (.int 100))))) "o")
        (.expression (.eq (.ofField ⟨"id", some "u"⟩) (.ofField ⟨"user", some "o"⟩)))
      criteria := some (.compound .and
        [.expression (.like (.ofField ⟨"name", some "u"⟩) (.constant (.text "@p7")) .contains),
          .inSelect (.ofField ⟨"id", some "u"⟩)
            (((Query.ofTable "members").project (.ofField ⟨"user", none⟩) none).filter
              (.expression (.membership .notIn (.ofField ⟨"kind", none⟩) [.int 1, .null, .int 2])))
            .isIn])
      selection := [⟨.ofField ⟨"name", some "u"⟩, none⟩]
      distinct := true
      orders := [⟨.arithmetic .add (.ofField ⟨"total", some "o"⟩) (.constant (.int 1)), .desc⟩]
      skip := some 5
      take := none
      aggregation := none
      groupBy := []
      having := none }

/-- A supply that counts how often it is asked. -/
def Supply.counting : Supply Nat := ⟨fun count => (⟨"", .null⟩, count + 1)⟩

theorem Statement.markedRuns_window :
    ∃ r, renderBound window .sqlServer .standard .counting 0 = .ok r ∧
      markedRuns '@' r.sql.toList = ["@p0", "@p1", "@p2", "@p3", "@p4"] ∧ r.state = 5 := by
  have hr : renderBound window .sqlServer .standard .counting 0 = .ok _ := rfl
  obtain ⟨hruns, hnames, -, hstate⟩ := markedRuns_renderBound .counting 0 rfl (by decide) hr
  exact ⟨_, hr, hruns.trans (hnames.trans rfl), hstate⟩

end DialectSql
