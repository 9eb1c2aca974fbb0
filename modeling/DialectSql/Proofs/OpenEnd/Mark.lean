import DialectSql.Proofs.Composed
import DialectSql.Proofs.Frame
import DialectSql.Proofs.Outline

/-!
# Marks of open ends

A subquery has an open end if it is closed by an ORDER BY although no TOP limits it. A draft is
marked by the keywords outside of its parentheses that decide this, and by whether something between
its parentheses has an open end. Marks are put together as drafts are.

## Main definitions

* `Text.isOpenEnded` — whether the frame of a query has an order without a limit
* `Draft.hasOpenEnd` — whether a subquery of a draft has an open end
* `Draft.Marked`, `Draft.Unmarked` — what is known of the keywords of a draft

## Main results

* `Draft.Marked.append`, `Draft.Marked.parens` — marks of drafts that are put together
* `Draft.Composed.unmarked` — expressions have no open ends
-/

namespace DialectSql

open Text

/-! ## Reading -/

/-- Whether the frame of a query has an order without a limit. -/
def Text.isOpenEnded (words : List String) : Bool :=
  words.contains "SELECT" && words.contains "ORDER" && !words.contains "TOP"

/-- The frame words of a piece. -/
def Piece.frameWords : Piece → List String
  | text t => frameOf t.toList
  | _ => []

namespace Draft

/-- Whether a subquery of a draft has an open end, at any depth of parentheses. -/
def hasOpenEnd (a : Draft) : Bool :=
  (Part.groupsIn (a.outline Piece.frameWords)).any fun group => isOpenEnded (Part.leaves group)

/-- Drafts of which it is known whether a SELECT, an ORDER and a TOP stand outside of parentheses,
and whether between parentheses something has an open end. -/
def Marked (a : Draft) (select order top inner : Bool) : Prop :=
  ∃ ps, Reads Piece.frameWords a ps ∧ (Part.leaves ps).contains "SELECT" = select ∧
    (Part.leaves ps).contains "ORDER" = order ∧ (Part.leaves ps).contains "TOP" = top ∧
    (Part.groupsIn ps).any (fun group => isOpenEnded (Part.leaves group)) = inner

/-- Drafts with none of these words outside of parentheses. -/
abbrev Unmarked (a : Draft) (inner : Bool) : Prop := Marked a false false false inner

namespace Marked

variable {a b : Draft} {select order top inner select' order' top' inner' : Bool}

/-- What is known of a draft that is written to the end is true of its text. -/
theorem hasOpenEnd_eq (h : Marked a select order top inner) (hfailure : a.failure = none) :
    a.hasOpenEnd = inner := by
  obtain ⟨ps, hreads, -, -, -, hinner⟩ := h
  rw [hasOpenEnd, hreads.outline_eq hfailure, hinner]

theorem of_eq (h : Marked a select order top inner) (hselect : select = select')
    (horder : order = order') (htop : top = top') (hinner : inner = inner') :
    Marked a select' order' top' inner' := by
  subst hselect horder htop hinner
  exact h

/-- Words that are written without parentheses. -/
theorem text (t : String) : Marked (.text t) ((frameOf t.toList).contains "SELECT")
    ((frameOf t.toList).contains "ORDER") ((frameOf t.toList).contains "TOP") false := by
  refine ⟨_, .text t, ?_, ?_, ?_, ?_⟩ <;> simp [Piece.frameWords]

theorem empty : Unmarked .empty false := ⟨[], .empty, rfl, rfl, rfl, rfl⟩

/-- Texts without frame words. -/
theorem interior {t : String} (h : isInterior t = true) : Unmarked (.text t) false := by
  have hmarked := text t
  rwa [frameOf_of_isInterior h] at hmarked

/-- One draft behind another. -/
theorem append (ha : Marked a select order top inner) (hb : Marked b select' order' top' inner') :
    Marked (a ++ b) (select || select') (order || order') (top || top') (inner || inner') := by
  obtain ⟨ps, hps, rfl, rfl, rfl, rfl⟩ := ha
  obtain ⟨qs, hqs, rfl, rfl, rfl, rfl⟩ := hb
  refine ⟨ps ++ qs, hps.append hqs, ?_, ?_, ?_, ?_⟩ <;> simp

/-- A draft between parentheses is a subquery, or holds some. -/
theorem parens (ha : Marked a select order top inner) :
    Unmarked a.parens (select && order && !top || inner) := by
  obtain ⟨ps, hps, rfl, rfl, rfl, rfl⟩ := ha
  refine ⟨_, hps.parens, rfl, rfl, rfl, ?_⟩
  simp [isOpenEnded]

end Marked

/-- What fails is read as anything. -/
theorem Marked.fail (e : Error) : ∀ inner, Unmarked (.fail e) inner
  | false => ⟨[], .fail _ _, rfl, rfl, rfl, rfl⟩
  | true => ⟨[.parens [.leaf "SELECT", .leaf "ORDER"]], .fail _ _, rfl, rfl, rfl, rfl⟩

/-- A draft of interior texts has no frame words, not even between parentheses. -/
theorem Composed.unmarked {d : Dialect} {a : Draft} (h : a.Composed d (isInterior · = true)) :
    Unmarked a false := by
  induction h with
  | empty => exact .empty
  | text ht => exact .interior ht
  | quoted => exact ⟨_, .quoted _, rfl, rfl, rfl, rfl⟩
  | bare => exact ⟨_, .bare _, rfl, rfl, rfl, rfl⟩
  | value => exact ⟨_, .value _, rfl, rfl, rfl, rfl⟩
  | missing => exact .fail _ _
  | append _ _ iha ihb => exact iha.append ihb
  | parens _ ih => exact ih.parens

/-- A text without words of clauses has no frame words. -/
theorem isInterior_of_isOperand {t : String} (h : isOperand t = true) : isInterior t = true := by
  refine List.all_eq_true.mpr fun word hword => ?_
  have hclause := List.all_eq_true.mp h word hword
  simp only [clauseWords, List.contains_append, Bool.not_or, Bool.and_eq_true] at hclause
  exact hclause.1

/-- An expression has no frame words, not even between parentheses. -/
theorem unmarked_expression (e : Expression) (s : Setting) : Unmarked (e.draft s) false :=
  ((e.composed_draft s).mono fun _ => isInterior_of_isOperand).unmarked

namespace Unmarked

variable {a b : Draft} {select order top inner inner' : Bool}

/-- A text without frame words in front of a draft. -/
theorem lead {t : String} (ht : isInterior t = true) (ha : Marked a select order top inner) :
    Marked (.text t ++ a) select order top inner := by
  simpa using (Marked.interior ht).append ha

/-- A text without frame words between two drafts. -/
theorem separated {t : String} (ha : Unmarked a inner) (ht : isInterior t = true)
    (hb : Unmarked b inner') : Unmarked (a ++ .text t ++ b) (inner || inner') := by
  simpa using (ha.append (.interior ht)).append hb

/-- Two drafts with a text without frame words in front and another one between them. -/
theorem introduced {t u : String} (ht : isInterior t = true) (ha : Unmarked a inner)
    (hu : isInterior u = true) (hb : Unmarked b inner') :
    Unmarked (.text t ++ a ++ .text u ++ b) (inner || inner') :=
  .separated (.lead ht ha) hu hb

/-- A comma-separated list of items without open ends. -/
theorem items {α : Type} {f : α → Draft} {xs : List α} (h : ∀ x ∈ xs, Unmarked (f x) false) :
    Unmarked (.list (xs.map f)) false :=
  joinWith_induction (P := (Unmarked · false)) Marked.empty Marked.append (.interior rfl)
    (List.forall_mem_map.mpr h)

end Unmarked

end Draft

/-! ## Texts with numbers -/

namespace Text

/-- A number is no frame word. -/
theorem frameOf_natural (n : Nat) : frameOf (natural n).toList = [] := by
  obtain ⟨c, hc, hdigit⟩ := exists_isDigit_natural n
  exact frameOf_of_digit (all_isNameChar_natural n) hc hdigit

/-- A text that ends apart is read on its own. -/
theorem frameOf_append_of_closesApart {t : String} (h : closesApart t = true) (u : String) :
    frameOf (t ++ u).toList = frameOf t.toList ++ frameOf u.toList := by
  rw [String.toList_append, frameOf, wordsOf_append_of_lastApart h, List.filter_append, frameOf,
    frameOf]

/-- A text that begins apart is read on its own. -/
theorem frameOf_append_of_opensApart {u : String} (h : opensApart u = true) (t : String) :
    frameOf (t ++ u).toList = frameOf t.toList ++ frameOf u.toList := by
  rw [String.toList_append, frameOf, wordsOf_append_of_headApart h, List.filter_append, frameOf,
    frameOf]

end Text

/-- The name of a column of row numbers is no frame word but the one that it is at the outside. -/
theorem frameOf_rowNumberName (s : Setting) :
    ∀ word ∈ frameOf (rowNumberName "rownum" s).toList, word = "ROWNUM" := by
  unfold rowNumberName
  split
  · intro word hword
    have houtside : word ∈ ["ROWNUM"] := hword
    exact List.mem_singleton.mp houtside
  · obtain ⟨c, hc, hdigit⟩ := exists_isDigit_natural s.depth
    have hname : ("rownum" ++ "_" ++ natural s.depth).toList.all Config.isNameChar = true := by
      rw [String.toList_append, List.all_append, all_isNameChar_natural]
      rfl
    have hmem : c ∈ ("rownum" ++ "_" ++ natural s.depth).toList := by
      rw [String.toList_append]
      exact List.mem_append_right _ hc
    rw [frameOf_of_digit hname hmem hdigit]
    simp

namespace Draft

/-- Words behind which nothing but a column of row numbers is named. -/
theorem Marked.numbered {t front : String}
    (h : ∃ column, frameOf t.toList = frameOf front.toList ++ column ∧
      ∀ word ∈ column, word = "ROWNUM") :
    Marked (.text t) ((frameOf front.toList).contains "SELECT")
      ((frameOf front.toList).contains "ORDER") ((frameOf front.toList).contains "TOP") false := by
  obtain ⟨column, hwords, hcolumn⟩ := h
  have hother : ∀ word, word ≠ "ROWNUM" → column.contains word = false := fun word hne =>
    Bool.eq_false_iff.mpr fun hmem => hne (hcolumn word (List.contains_iff_mem.mp hmem))
  have hmarked := Marked.text t
  rw [hwords] at hmarked
  simpa only [List.contains_append, hother "SELECT" (by decide), hother "ORDER" (by decide),
    hother "TOP" (by decide), Bool.or_false] using hmarked

/-- A text with the name of a column of row numbers behind it. -/
theorem Marked.column {t : String} (h : closesApart t = true) (s : Setting) :
    Marked (.text (t ++ rowNumberName "rownum" s)) ((frameOf t.toList).contains "SELECT")
      ((frameOf t.toList).contains "ORDER") ((frameOf t.toList).contains "TOP") false :=
  .numbered ⟨_, frameOf_append_of_closesApart h _, frameOf_rowNumberName s⟩

/-- The condition of a wrapper around numbered rows. -/
theorem unmarked_skipped (s : Setting) (skip : Nat) :
    Unmarked (.text (" " ++ pagingSymbol ++ " WHERE " ++ rowNumberName "rownum" s ++ " > " ++
      natural skip)) false := by
  have hsign : ∀ t : String, closesApart (t ++ " > ") = true := fun t => closesApart_append rfl
  -- The sign and the number behind the column are no frame words.
  have hwords : frameOf (" " ++ pagingSymbol ++ " WHERE " ++ rowNumberName "rownum" s ++ " > " ++
      natural skip).toList = frameOf (" " ++ pagingSymbol ++ " WHERE ").toList ++
        frameOf (rowNumberName "rownum" s).toList := by
    rw [frameOf_append_of_closesApart (hsign _), frameOf_natural, List.append_nil,
      frameOf_append_of_opensApart rfl, frameOf_append_of_closesApart rfl]
    exact List.append_nil _
  exact Marked.numbered ⟨_, hwords, frameOf_rowNumberName s⟩

/-- A limit in front of the projection. -/
theorem marked_top (count : Nat) :
    Marked (.text ("TOP " ++ natural count ++ " ")) false false true false := by
  have hmarked := Marked.text ("TOP " ++ natural count ++ " ")
  rw [frameOf_append_of_opensApart rfl, frameOf_append_of_closesApart rfl, frameOf_natural]
    at hmarked
  exact hmarked

end Draft

end DialectSql
