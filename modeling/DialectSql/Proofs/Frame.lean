import DialectSql.Proofs.Phrase.Query
import DialectSql.Proofs.Surface.Literal
import DialectSql.Proofs.Written

/-!
# Frames of drafts

The frame of a draft are the words outside of parentheses that begin a query, order or limit its
rows, or combine it with another one. An interior phrase has no frame, and a SELECT in front of one
has a single word. What a reader sees of the text of a draft has the same frame, unless an
identifier ends its quotes early.

## Main definitions

* `Draft.frame` — the frame of a draft
* `Draft.Balanced` — drafts behind which the depth is what it was in front of them

## Main results

* `Phrase.balanced`, `Phrase.frame_eq_nil`, `SelectPhrase.frame_eq` — frames of phrases
* `Phrase.shows_written` — the frame of a phrase is seen in its text
-/

namespace DialectSql

open Text

/-- The frame of pieces at a depth of parentheses. -/
def frameOfPieces : (depth : Nat) → List Piece → List String
  | _, [] => []
  | depth, .opening :: pieces => frameOfPieces (depth + 1) pieces
  | depth, .closing :: pieces => frameOfPieces (depth - 1) pieces
  | depth, .text t :: pieces => shown depth (frameOf t.toList) ++ frameOfPieces depth pieces
  | depth, _ :: pieces => frameOfPieces depth pieces

namespace Draft

variable {a b d : Draft}

/-- The words of a draft outside of parentheses that begin a query, order or limit its rows, or
combine it with another one. -/
def frame (d : Draft) : List String := frameOfPieces 0 d.pieces

/-- Drafts behind which the depth of parentheses is what it was in front of them, so that what is
behind them is read as if it stood alone. -/
def Balanced (d : Draft) : Prop :=
  ∀ depth rest, frameOfPieces depth (d.pieces ++ rest) =
    shown depth d.frame ++ frameOfPieces depth rest

@[simp] theorem frame_text (t : String) : (text t).frame = frameOf t.toList := by
  simp [text, piece, frame, frameOfPieces, shown]

@[simp] theorem frame_empty : empty.frame = [] := rfl

/-- A piece without a frame that is no parenthesis. -/
theorem balanced_piece {p : Piece} (h : ∀ depth rest, frameOfPieces depth (p :: rest) =
    frameOfPieces depth rest) : Balanced (piece p) := by
  intro depth rest
  have hnone : (piece p).frame = [] := h 0 []
  rw [hnone, shown_nil, List.nil_append]
  exact h depth rest

theorem balanced_empty : Balanced empty := by
  intro depth rest
  rw [frame_empty, shown_nil]
  rfl

theorem balanced_text (t : String) : Balanced (text t) := by
  intro depth rest
  rw [frame_text]
  rfl

/-- The frame of a sequence is that of its first part, then that of its second. -/
theorem frame_append (h : a.failure = none) (ha : a.Balanced) (b : Draft) :
    (a ++ b).frame = a.frame ++ b.frame := by
  rw [frame, append_of_success h, ha]
  rfl

theorem Balanced.append (h : a.failure = none) (ha : a.Balanced) (hb : b.Balanced) :
    (a ++ b).Balanced := by
  intro depth rest
  rw [frame_append h ha, append_of_success h, List.append_assoc, ha, hb, shown_append,
    List.append_assoc]

/-- Behind the closing parenthesis the depth is that in front of the opening one. -/
theorem frameOfPieces_parens (h : d.failure = none) (hd : d.Balanced) (depth : Nat)
    (rest : List Piece) :
    frameOfPieces depth (d.parens.pieces ++ rest) = frameOfPieces depth rest := by
  rw [pieces_parens h]
  simp only [List.append_assoc, List.cons_append, List.nil_append]
  rw [frameOfPieces, hd, shown_succ, List.nil_append, frameOfPieces, Nat.add_sub_cancel]

/-- Nothing between parentheses is in the frame. -/
theorem frame_parens (h : d.failure = none) (hd : d.Balanced) : d.parens.frame = [] := by
  have hwhole := frameOfPieces_parens h hd 0 []
  rwa [List.append_nil] at hwhole

theorem Balanced.parens (h : d.failure = none) (hd : d.Balanced) : d.parens.Balanced := by
  intro depth rest
  rw [frameOfPieces_parens h hd, frame_parens h hd, shown_nil, List.nil_append]

end Draft

/-! ## Phrases -/

variable {N B T : String → Prop} {opens closes : Bool} {d : Draft}

/-- A phrase closes the parentheses that it opens. -/
theorem Phrase.balanced (h : Phrase N B T opens closes d) (hfailure : d.failure = none) :
    d.Balanced := by
  induction h with
  | text _ _ => exact Draft.balanced_text _
  | mark _ _ => exact Draft.balanced_text _
  | quoted _ | bare _ | value _ => exact Draft.balanced_piece fun _ _ => rfl
  | fail e => cases hfailure
  | noArguments => exact Draft.balanced_empty.parens rfl
  | parens _ ih =>
    rw [Draft.failure_parens] at hfailure
    exact (ih hfailure).parens hfailure
  | append _ _ _ iha ihb =>
    obtain ⟨hfirst, hsecond⟩ := Draft.failure_append_eq_none hfailure
    exact (iha hfirst).append hfirst (ihb hsecond)
  | weaken _ _ _ ih => exact ih hfailure

/-- The frame of one phrase behind another. -/
theorem Phrase.frame_append {e : Draft} (h : Phrase N B T opens closes d)
    (hfailure : (d ++ e).failure = none) : (d ++ e).frame = d.frame ++ e.frame := by
  obtain ⟨hfirst, -⟩ := Draft.failure_append_eq_none hfailure
  exact Draft.frame_append hfirst (h.balanced hfirst) e

/-- A text literal of the language itself has no frame. -/
theorem frameOf_mark {t : String} (h : isInterior t = true) :
    frameOf ("'" ++ t ++ "'").toList = [] := by
  -- The quotes are separators, so the words are those between them.
  have hchars : ("'" ++ t ++ "'").toList = [] ++ '\'' :: (t.toList ++ '\'' :: []) := by simp
  rw [hchars, frameOf_append_cons rfl, frameOf_append_cons rfl, frameOf_of_isInterior h]
  rfl

/-- An interior phrase has no frame. -/
theorem Phrase.frame_eq_nil (hT : ∀ t, T t → isInterior t = true)
    (h : Phrase N B T opens closes d) (hfailure : d.failure = none) : d.frame = [] := by
  induction h with
  | text _ ht => rw [Draft.frame_text, frameOf_of_isInterior (hT _ ht)]
  | mark _ hinterior => rw [Draft.frame_text, frameOf_mark hinterior]
  | quoted _ => rfl
  | bare _ => rfl
  | value v => rfl
  | fail e => cases hfailure
  | noArguments => rfl
  | parens h _ =>
    rw [Draft.failure_parens] at hfailure
    exact Draft.frame_parens hfailure (h.balanced hfailure)
  | append ha _ _ iha ihb =>
    obtain ⟨hfirst, hsecond⟩ := Draft.failure_append_eq_none hfailure
    rw [ha.frame_append hfailure, iha hT hfirst, ihb hT hsecond, List.append_nil]
  | weaken _ _ _ ih => exact ih hT hfailure

/-- The frame of a query without orders and limits is a SELECT. -/
theorem SelectPhrase.frame_eq (h : SelectPhrase N B (isInterior · = true) d)
    (hfailure : d.failure = none) : d.frame = ["SELECT"] := by
  obtain ⟨t, rest, rfl, -, ht, -, hrest⟩ := h
  obtain ⟨hselect, hsuccess⟩ := Draft.failure_append_eq_none hfailure
  have hchars : ("SELECT " ++ t).toList = "SELECT".toList ++ ' ' :: t.toList := by simp
  rw [Draft.frame_append hselect (Draft.balanced_text _), hrest.frame_eq_nil (fun _ => id) hsuccess,
    List.append_nil, Draft.frame_text, hchars, frameOf_append_cons rfl, frameOf_of_isInterior ht]
  rfl

/-! ## Phrases in writing -/

/-- What is seen of a text that passes: its frame, and that it stands apart where it is said to. -/
def Text.Shows (d : Dialect) (opens closes : Bool) (t : String) (words : List String) : Prop :=
  ∃ seen, Passes d t.toList seen ∧ frameOf seen = words ∧ opens ≤ headApart seen ∧
    closes ≤ lastApart seen

namespace Text.Shows

variable {dialect : Dialect} {opens closes opens' closes' : Bool} {t u : String}
  {words words' : List String}

theorem frame_eq (h : Shows dialect opens closes t words) : frame dialect t = words := by
  obtain ⟨seen, hpasses, hframe, -, -⟩ := h
  rw [hpasses.frame_eq, hframe]

/-- A text of which no frame words are seen. -/
theorem of_passes (h : ∃ seen, Passes dialect t.toList seen ∧ frameOf seen = []) :
    Shows dialect false false t [] := by
  obtain ⟨seen, hpasses, hframe⟩ := h
  exact ⟨seen, hpasses, hframe, Bool.false_le _, Bool.false_le _⟩

/-- A text of which nothing is seen but blanks. -/
theorem of_blanks {n : Nat} (h : Passes dialect t.toList (List.replicate (n + 1) ' ')) :
    Shows dialect true true t [] := by
  refine ⟨_, h, frameOf_blanks _, fun _ => rfl, fun _ => ?_⟩
  rw [lastApart, List.replicate_succ', List.getLast?_concat]
  rfl

/-- Keywords, numbers and operators. -/
theorem of_isPlain (h : isPlain t = true) :
    Shows dialect (opensApart t) (closesApart t) t (frameOf t.toList) :=
  ⟨_, .of_isPlain h, rfl, Bool.le_refl _, Bool.le_refl _⟩

/-- Nothing between parentheses is seen. -/
theorem parens (h : Shows dialect opens closes t words) :
    Shows dialect true true ("(" ++ t ++ ")") [] := by
  obtain ⟨seen, hpasses, -⟩ := h
  have hchars : ("(" ++ t ++ ")").toList = '(' :: t.toList ++ [')'] := by simp
  refine of_blanks (n := 0) ?_
  rw [hchars]
  exact hpasses.parens

/-- One text behind another, where no word runs from one into the other. -/
theorem append (h : Shows dialect opens closes t words) (h' : Shows dialect opens' closes' u words')
    (hapart : (closes || opens') = true) :
    Shows dialect opens closes' (t ++ u) (words ++ words') := by
  obtain ⟨seen, hpasses, rfl, hopens, hcloses⟩ := h
  obtain ⟨seen', hpasses', rfl, hopens', hcloses'⟩ := h'
  -- The reader's words do not run together, because one of the ends is apart.
  have hwords : wordsOf (seen ++ seen') = wordsOf seen ++ wordsOf seen' := by
    rw [Bool.or_eq_true] at hapart
    rcases hapart with hfront | hback
    · exact wordsOf_append_of_lastApart (hcloses hfront) _
    · exact wordsOf_append_of_headApart (hopens' hback) _
  refine ⟨seen ++ seen', ?_, ?_, fun hhead => headApart_append (hopens hhead) _,
    fun hlast => lastApart_append (hcloses' hlast) _⟩
  · rw [String.toList_append]
    exact hpasses.append hpasses'
  · rw [frameOf, hwords, List.filter_append, frameOf, frameOf]

end Text.Shows

/-- The frame of a phrase is seen in its text, if no identifier has a closing quote and of no
constant a frame word is seen. -/
theorem Phrase.shows_written {dialect : Dialect} {write : Writer}
    (hN : ∀ n, N n → dialect.identifierQuotes.2 ∉ n.toList) (hB : ∀ n, ¬B n)
    (hwrite : ∀ index v, ∃ seen, Passes dialect (write index v).toList seen ∧ frameOf seen = [])
    (h : Phrase N B T opens closes d) (hfailure : d.failure = none) (index : Nat) :
    Shows dialect opens closes (d.written dialect write index) d.frame := by
  induction h generalizing index with
  | text hplain _ =>
    rw [Draft.written_text, Draft.frame_text]
    exact .of_isPlain hplain
  | mark hplain hinterior =>
    -- Between quotes a word is seen as blanks.
    obtain ⟨n, hblanks⟩ := dialect.exists_passes_quoted (List.all_eq_true.mpr fun c hc => by
      rw [List.all_eq_true.mp hplain c hc, Bool.true_or])
    rw [Draft.written_text, Draft.frame_text, frameOf_mark hinterior]
    exact .of_blanks hblanks
  | quoted hname =>
    rw [Draft.written_quoted]
    exact .of_blanks (n := 0) (.quoteIdentifier (hN _ hname))
  | bare hname => exact absurd hname (hB _)
  | value v =>
    rw [Draft.written_value]
    exact .of_passes (hwrite index v)
  | fail e => cases hfailure
  | noArguments =>
    rw [Draft.written_parens rfl]
    exact (Shows.of_isPlain (t := "") rfl).parens
  | parens h ih =>
    rw [Draft.failure_parens] at hfailure
    rw [Draft.written_parens hfailure, Draft.frame_parens hfailure (h.balanced hfailure)]
    exact (ih hfailure index).parens
  | append ha hb hapart iha ihb =>
    -- No word is made of the end of the first part and the beginning of the second.
    rw [ha.frame_append hfailure]
    obtain ⟨hfirst, hsecond⟩ := Draft.failure_append_eq_none hfailure
    rw [Draft.written_append hfirst]
    exact (iha hfirst index).append (ihb hsecond _) hapart
  | weaken _ hopens hcloses ih =>
    obtain ⟨seen, hpasses, hframe, hhead, hlast⟩ := ih hfailure index
    exact ⟨seen, hpasses, hframe, Bool.le_trans hopens hhead, Bool.le_trans hcloses hlast⟩

end DialectSql
