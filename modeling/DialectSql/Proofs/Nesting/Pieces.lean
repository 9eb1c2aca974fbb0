import DialectSql.Proofs.Surface
import DialectSql.Proofs.Written

/-!
# Telling pieces apart

A text without constants can be split again into the pieces of its draft: identifiers between
quotes, parentheses, and the words between them. Two drafts of which each piece of words stands
between identifiers or parentheses are therefore equal if their texts are.

## Main definitions

* `Text.pieces` — the pieces of a text
* `Draft.IsTold` — drafts of which the pieces can be told from the text

## Main results

* `Draft.IsTold.quoted`, `Draft.IsTold.parens`, `Draft.IsTold.separated` — which drafts these are
* `Draft.IsTold.pieces_literalText` — the pieces of a draft are those of its text
-/

namespace DialectSql

namespace Text

/-- The piece that some words are, if there are any. -/
def wordPieces (words : List Char) : List Piece :=
  if words.isEmpty then [] else [.text (String.ofList words)]

/-- The pieces of some characters. What has been read of the piece at hand is `run`, which is an
identifier or else words. -/
def piecesFrom (d : Dialect) : (isQuoted : Bool) → (run : List Char) → List Char → List Piece
  | _, run, [] => wordPieces run
  | false, run, c :: chars =>
    if c = d.identifierQuotes.1 then wordPieces run ++ piecesFrom d true [] chars
    else if c = '(' then wordPieces run ++ .opening :: piecesFrom d false [] chars
    else if c = ')' then wordPieces run ++ .closing :: piecesFrom d false [] chars
    else piecesFrom d false (run ++ [c]) chars
  | true, run, c :: chars =>
    if c = d.identifierQuotes.2 then .quoted (String.ofList run) :: piecesFrom d false [] chars
    else piecesFrom d true (run ++ [c]) chars

/-- The pieces of a text. -/
def pieces (d : Dialect) (t : String) : List Piece := piecesFrom d false [] t.toList

variable {d : Dialect}

/-- Characters of an identifier that do not close it go on with it. -/
theorem piecesFrom_quoted {name : List Char} (h : d.identifierQuotes.2 ∉ name) (run : List Char)
    (rest : List Char) :
    piecesFrom d true run (name ++ d.identifierQuotes.2 :: rest) =
      .quoted (String.ofList (run ++ name)) :: piecesFrom d false [] rest := by
  induction name generalizing run with
  | nil => rw [List.nil_append, piecesFrom, if_pos rfl, List.append_nil]
  | cons c name ih =>
    rw [List.mem_cons, not_or] at h
    rw [List.cons_append, piecesFrom, if_neg (Ne.symm h.1), ih h.2, List.append_assoc,
      List.singleton_append]

/-- Keywords and operators go on with the words in front of them. -/
theorem piecesFrom_words {words : List Char} (h : words.all (isCodeChar d) = true)
    (run : List Char) (rest : List Char) :
    piecesFrom d false run (words ++ rest) = piecesFrom d false (run ++ words) rest := by
  induction words generalizing run with
  | nil => rw [List.nil_append, List.append_nil]
  | cons c words ih =>
    rw [List.all_cons, Bool.and_eq_true] at h
    obtain ⟨hc, hwords⟩ := h
    simp only [isCodeChar, Bool.and_eq_true, bne_iff_ne] at hc
    obtain ⟨⟨⟨-, hquote⟩, hopening⟩, hclosing⟩ := hc
    rw [List.cons_append, piecesFrom, if_neg hquote, if_neg hopening, if_neg hclosing, ih hwords,
      List.append_assoc, List.singleton_append]

end Text

namespace Draft

open Text

/-- Whether the pieces of a draft without constants can be told from its text, behind any words and
in front of anything. -/
structure IsTold (d : Dialect) (draft : Draft) : Prop where
  /-- The draft did not fail. -/
  success : draft.failure = none
  /-- The draft has no constants. -/
  constants : draft.constants = []
  /-- The pieces of the draft are found in its text. -/
  pieces : ∀ run rest, piecesFrom d false run ((draft.literalText d).toList ++ rest) =
    wordPieces run ++ draft.pieces ++ piecesFrom d false [] rest

namespace IsTold

variable {d : Dialect} {x y : Draft}

/-- The pieces of a draft are those of its text. -/
theorem pieces_literalText (h : IsTold d x) : Text.pieces d (x.literalText d) = x.pieces := by
  have hwhole := h.pieces [] []
  rw [List.append_nil] at hwhole
  rw [Text.pieces, hwhole]
  simp [wordPieces, piecesFrom]

/-- An identifier ends at its closing quote. -/
theorem quoted {name : String} (h : d.identifierQuotes.2 ∉ name.toList) :
    IsTold d (.quoted name) where
  success := rfl
  constants := rfl
  pieces run rest := by
    have htext : ((Draft.quoted name).literalText d).toList ++ rest =
        d.identifierQuotes.1 :: (name.toList ++ d.identifierQuotes.2 :: rest) := by
      simp [Draft.quoted, piece, literalText, Piece.literalText, Dialect.quoteIdentifier, enclosed]
    rw [htext, piecesFrom, if_pos rfl, piecesFrom_quoted h, List.nil_append, String.ofList_toList,
      List.append_assoc]
    rfl

/-- Parentheses are pieces of their own. -/
theorem parens (h : IsTold d x) : IsTold d x.parens where
  success := by rw [failure_parens, h.success]
  constants := by rw [constants_parens h.success, h.constants]
  pieces run rest := by
    have htext : (x.parens.literalText d).toList ++ rest =
        '(' :: ((x.literalText d).toList ++ ')' :: rest) := by
      unfold literalText
      rw [pieces_parens h.success]
      simp [Piece.literalText]
    -- No dialect has a parenthesis for a quote.
    have hopening : '(' ≠ d.identifierQuotes.1 := by cases d <;> decide
    have hclosing : ')' ≠ d.identifierQuotes.1 := by cases d <;> decide
    rw [htext, pieces_parens h.success, piecesFrom, if_neg hopening, if_pos rfl, h.pieces,
      piecesFrom, if_neg hclosing, if_neg (by decide), if_pos rfl]
    simp [wordPieces]

/-- Words between two drafts are a piece of their own. -/
theorem separated {words : String} (hx : IsTold d x) (hwords : isPlain words = true)
    (hne : words ≠ "") (hy : IsTold d y) : IsTold d (x ++ .text words ++ y) where
  success := by rw [failure_append, failure_append, hx.success, hy.success]; rfl
  constants := by
    rw [constants_append (failure_append_text hx.success words), constants_append_text hx.success,
      hx.constants, hy.constants]
    rfl
  pieces run rest := by
    have hfront := failure_append_text hx.success words
    have htext : ((x ++ text words ++ y).literalText d).toList ++ rest =
        (x.literalText d).toList ++ (words.toList ++ ((y.literalText d).toList ++ rest)) := by
      rw [literalText_append hfront, literalText_append hx.success]
      simp [text, piece, literalText, Piece.literalText]
    have hpieces : (x ++ text words ++ y).pieces = x.pieces ++ (.text words :: y.pieces) := by
      rw [append_of_success hfront, append_of_success hx.success]
      simp [text, piece]
    have hpiece : wordPieces words.toList = [.text words] := by
      rw [wordPieces, if_neg (by simpa using hne), String.ofList_toList]
    rw [htext, hpieces, hx.pieces, piecesFrom_words (all_isCodeChar_of_isPlain d hwords),
      List.nil_append, hy.pieces, hpiece]
    simp

end IsTold

end Draft

end DialectSql
