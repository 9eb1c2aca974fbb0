import DialectSql.Dialect
import DialectSql.Proofs.Word

/-!
# Surfaces

The surface of a text is what a reader sees of it who passes over everything between parentheses,
every quoted identifier and every text literal. A doubled quote in a literal closes it and opens it
again, which makes no difference to what is seen.

## Main definitions

* `Text.Region`, `Text.surface` — where a reader stands, and what the reader sees from there on
* `Text.frame` — the words of a surface that begin, order, limit or combine queries
* `Text.Passes` — characters behind which the reader stands where he stood in front of them

## Main results

* `Text.Passes.append`, `Text.Passes.parens` — what passes can be put together
* `Text.Passes.quoteIdentifier`, `Text.Passes.quoteText` — nothing of an identifier or a literal is
  seen
-/

namespace DialectSql.Text

/-- Where in a text a reader stands. -/
inductive Region
  /-- Outside of identifiers and literals. -/
  | code
  /-- In an identifier between quotes. -/
  | identifier
  /-- In a text literal. -/
  | literal
  /-- In a text literal behind a backslash that escapes the next character. -/
  | escape

/-- What is seen at a depth of parentheses. -/
def shown {α : Type} (depth : Nat) (items : List α) : List α := if depth = 0 then items else []

/-- What stands outside of parentheses, identifiers and literals, with a blank for each of them. -/
def surface (d : Dialect) : Region → (depth : Nat) → List Char → List Char
  | _, _, [] => []
  | .code, depth, c :: chars =>
    if c = '\'' then shown depth [' '] ++ surface d .literal depth chars
    else if c = d.identifierQuotes.1 then shown depth [' '] ++ surface d .identifier depth chars
    else if c = '(' then shown depth [' '] ++ surface d .code (depth + 1) chars
    else if c = ')' then surface d .code (depth - 1) chars
    else shown depth [c] ++ surface d .code depth chars
  | .identifier, depth, c :: chars =>
    if c = d.identifierQuotes.2 then surface d .code depth chars
    else surface d .identifier depth chars
  | .literal, depth, c :: chars =>
    if c = '\'' then surface d .code depth chars
    else if d.doubledInText c then surface d .escape depth chars
    else surface d .literal depth chars
  | .escape, depth, _ :: chars => surface d .literal depth chars

/-- The words of some characters that begin a query, order or limit its rows, or combine it with
another one. -/
def frameOf (chars : List Char) : List String := (wordsOf chars).filter frameWords.contains

/-- The words outside of parentheses, identifiers and literals that begin a query, order or limit
its rows, or combine it with another one. -/
def frame (d : Dialect) (t : String) : List String := frameOf (surface d .code 0 t.toList)

/-- A separator ends the words in front of it. -/
theorem frameOf_append_cons {c : Char} (hc : Config.isNameChar c = false) (front rest : List Char) :
    frameOf (front ++ c :: rest) = frameOf front ++ frameOf rest := by
  rw [frameOf, wordsOf_append_cons hc, List.filter_append, frameOf, frameOf]

/-- What can stand in the interior of a query has no frame words. -/
theorem frameOf_of_isInterior {t : String} (h : isInterior t = true) : frameOf t.toList = [] := by
  refine List.filter_eq_nil_iff.mpr fun word hword => ?_
  simpa using List.all_eq_true.mp h word hword

section Shown

variable {α : Type} (depth : Nat)

@[simp] theorem shown_nil : shown depth ([] : List α) = [] := ite_self []

theorem shown_append (a b : List α) : shown depth (a ++ b) = shown depth a ++ shown depth b := by
  unfold shown
  split <;> rfl

/-- Nothing is seen between parentheses. -/
@[simp] theorem shown_succ (a : List α) : shown (depth + 1) a = [] := if_neg depth.succ_ne_zero

end Shown

/-- Characters behind which the reader stands where he stood in front of them, and what he sees of
them outside of parentheses. -/
def Passes (d : Dialect) (chars seen : List Char) : Prop :=
  ∀ depth rest, surface d .code depth (chars ++ rest) =
    shown depth seen ++ surface d .code depth rest

/-- A character that neither opens nor closes anything. -/
def isCodeChar (d : Dialect) (c : Char) : Bool :=
  c != '\'' && c != d.identifierQuotes.1 && c != '(' && c != ')'

/-- Characters of a class without quotes and parentheses neither open nor close anything. -/
theorem isCodeChar_of_class (d : Dialect) {p : Char → Bool} {c : Char}
    (hp : ['\'', '"', '[', '\x60', '(', ')'].all (!p ·) = true) (hc : p c = true) :
    isCodeChar d c = true := by
  have hother : ∀ e ∈ ['\'', '"', '[', '\x60', '(', ')'], c ≠ e := by
    rintro e he rfl
    have hnone := List.all_eq_true.mp hp c he
    rw [hc] at hnone
    cases hnone
  -- The opening quotes of all dialects are in the list.
  have hquote : c ≠ d.identifierQuotes.1 := hother _ (by cases d <;> decide)
  simp [isCodeChar, hquote, hother '\'' (by decide), hother '(' (by decide), hother ')' (by decide)]

/-- Keywords, numbers and operators neither open nor close anything. -/
theorem all_isCodeChar_of_isPlain (d : Dialect) {t : String} (h : isPlain t = true) :
    t.toList.all (isCodeChar d) = true :=
  List.all_eq_true.mpr fun c hc =>
    isCodeChar_of_class d (by decide) (List.all_eq_true.mp h c hc)

namespace Passes

variable {d : Dialect} {chars seen chars' seen' : List Char}

/-- What is seen of a whole text. -/
theorem surface_eq (h : Passes d chars seen) : surface d .code 0 chars = seen := by
  have hwhole := h 0 []
  rw [List.append_nil, surface, List.append_nil] at hwhole
  exact hwhole

/-- The words of a whole text. -/
theorem frame_eq {t : String} (h : Passes d t.toList seen) : frame d t = frameOf seen := by
  rw [frame, h.surface_eq]

/-- One part behind another. -/
theorem append (h : Passes d chars seen) (h' : Passes d chars' seen') :
    Passes d (chars ++ chars') (seen ++ seen') := by
  intro depth rest
  rw [List.append_assoc, h, h', shown_append, List.append_assoc]

/-- What neither opens nor closes anything is seen as it is. -/
theorem of_isCodeChar (h : chars.all (isCodeChar d) = true) : Passes d chars chars := by
  intro depth rest
  induction chars with
  | nil => simp
  | cons c chars ih =>
    rw [List.all_cons, Bool.and_eq_true] at h
    obtain ⟨hc, hchars⟩ := h
    simp only [isCodeChar, Bool.and_eq_true, bne_iff_ne] at hc
    obtain ⟨⟨⟨hliteral, hquote⟩, hopening⟩, hclosing⟩ := hc
    rw [List.cons_append, surface, if_neg hliteral, if_neg hquote, if_neg hopening,
      if_neg hclosing, ih hchars, ← List.append_assoc, ← shown_append, List.singleton_append]

/-- Keywords, numbers and operators are seen as they are. -/
theorem of_isPlain {t : String} (h : isPlain t = true) : Passes d t.toList t.toList :=
  of_isCodeChar (all_isCodeChar_of_isPlain d h)

/-- Nothing between parentheses is seen. -/
theorem parens (h : Passes d chars seen) : Passes d ('(' :: chars ++ [')']) [' '] := by
  intro depth rest
  -- The reader goes in by one level, sees nothing, and comes out again.
  have hopening : '(' ≠ d.identifierQuotes.1 := by cases d <;> decide
  have hclosing : ')' ≠ d.identifierQuotes.1 := by cases d <;> decide
  rw [List.append_assoc, List.cons_append, surface, if_neg (by decide), if_neg hopening, if_pos rfl,
    h, shown_succ, List.nil_append, List.singleton_append, surface, if_neg (by decide),
    if_neg hclosing, if_neg (by decide), if_pos rfl, Nat.add_sub_cancel]

/-! ## Identifiers -/

/-- Nothing of an identifier is seen that has no closing quote. -/
theorem quoteIdentifier {name : String} (h : d.identifierQuotes.2 ∉ name.toList) :
    Passes d (d.quoteIdentifier name).toList [' '] := by
  have hinside : ∀ depth rest, surface d .identifier depth
      (name.toList ++ d.identifierQuotes.2 :: rest) = surface d .code depth rest := by
    intro depth rest
    generalize name.toList = chars at h ⊢
    induction chars with
    | nil => rw [List.nil_append, surface, if_pos rfl]
    | cons c chars ih =>
      rw [List.mem_cons, not_or] at h
      rw [List.cons_append, surface, if_neg (Ne.symm h.1), ih h.2]
  intro depth rest
  have hquote : d.identifierQuotes.1 ≠ '\'' := by cases d <;> decide
  rw [Dialect.quoteIdentifier, enclosed, String.toList_append, String.toList_append,
    String.toList_singleton, String.toList_singleton, List.append_assoc, List.append_assoc,
    List.singleton_append, List.singleton_append, surface, if_neg hquote, if_pos rfl, hinside]

/-! ## Literals -/

/-- A reader comes out of a literal behind its last quote. Only quotes of its own are seen, as the
blanks in which it closes and opens again. -/
theorem surface_doubled (depth : Nat) (rest : List Char) :
    ∀ chars : List Char, surface d .literal depth (doubled d.doubledInText chars ++ '\'' :: rest) =
      shown depth (List.replicate (chars.count '\'') ' ') ++ surface d .code depth rest
  | [] => by simp [surface]
  | c :: chars => by
    have ih := surface_doubled depth rest chars
    rw [doubled_cons, List.append_assoc]
    by_cases hquote : c = '\''
    · subst hquote
      -- The first quote closes the literal and the second one opens it again.
      have hdoubled : d.doubledInText '\'' = true := by cases d <;> rfl
      rw [if_pos hdoubled, List.cons_append, surface, if_pos rfl, List.singleton_append, surface,
        if_pos rfl, ih, List.count_cons_self, List.replicate_succ, ← List.append_assoc,
        ← shown_append, List.singleton_append]
    · have hcount : (c :: chars).count '\'' = chars.count '\'' := List.count_cons_of_ne hquote
      by_cases hdoubled : d.doubledInText c = true
      -- A doubled backslash escapes itself.
      · rw [if_pos hdoubled, List.cons_append, surface, if_neg hquote, if_pos hdoubled,
          List.singleton_append, surface, ih, hcount]
      · rw [if_neg hdoubled, List.singleton_append, surface, if_neg hquote, if_neg hdoubled, ih,
          hcount]

/-- Nothing of a text literal is seen. -/
theorem quoteText (d : Dialect) (text : String) :
    Passes d (d.quoteText text).toList (List.replicate (text.toList.count '\'' + 1) ' ') := by
  intro depth rest
  rw [Dialect.quoteText, enclosed, String.toList_append, String.toList_append,
    String.toList_singleton, String.toList_ofList, List.append_assoc, List.append_assoc,
    List.singleton_append, List.singleton_append, surface, if_pos rfl, surface_doubled,
    ← List.append_assoc, ← shown_append, List.replicate_succ, List.singleton_append]

end Passes

end DialectSql.Text
