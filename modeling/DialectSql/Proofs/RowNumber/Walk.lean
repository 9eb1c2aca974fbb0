import DialectSql.Draft.Query
import DialectSql.Proofs.Composed
import DialectSql.Proofs.RowNumber.Column
import DialectSql.Proofs.Surface.Literal

/-!
# A reader of columns on its way through a draft

Drafts move a reader of columns from one clause of a query to another. What they do is put together
from what their parts do: a text moves the reader by its words, parentheses in a FROM are a derived
table, and all other parentheses are passed by.

A column of row numbers carries the number of subqueries around it, so that the columns of a query
are kept apart from those of its FROM by a bound on these numbers.

## Main definitions

* `rowNumberWord`, `Numbered` — the columns of row numbers, and those from some depth on
* `Draft.ReadsAs` — drafts that are read as parts with some property
* `Draft.Moves` — drafts that move a reader from one place to another
* `Draft.Reaches` — drafts that move a reader behind a FROM
* `Draft.Selects` — queries whose columns are numbered from some depth on
* `Draft.Quiet`, `Draft.Rests`, `Draft.Closes` — operands, clauses behind the FROM, and what can end
  a query
* `Draft.Settled`, `Draft.Fresh` — drafts that hold, or are, queries with a column of their own

## Main results

* `rowNumberWord_injective` — columns of different depths have different names
* `Draft.Selects.derived`, `Draft.Moves.wrapper` — a query between parentheses in a FROM, and one
  with nothing else in its FROM
* `Draft.Reaches.selects`, `Draft.Reaches.selects_numbered` — queries without and with a column of
  their own
-/

namespace DialectSql

open Text DialectSql.Part

/-! ## Names of columns -/

/-- The name of the column of row numbers below `depth` subqueries, as a reader sees it. -/
def rowNumberWord (d : Dialect) (depth : Nat) : String :=
  let base := if d.rowLimiting = .numbering then "ROWNUM" else "PAGING_ROWNUMBER"
  if depth = 0 then base else base ++ "_" ++ natural depth

/-- The columns of row numbers below `k` subqueries or more. -/
def Numbered (d : Dialect) (k : Nat) (c : String) : Prop :=
  ∃ depth, k ≤ depth ∧ c = rowNumberWord d depth

/-- Columns of different depths have different names. -/
theorem rowNumberWord_injective (d : Dialect) : Function.Injective (rowNumberWord d) := by
  intro m n h
  unfold rowNumberWord at h
  generalize (if d.rowLimiting = .numbering then "ROWNUM" else "PAGING_ROWNUMBER") = base at h
  -- The name at the outside is shorter than all others.
  have hlonger : ∀ k, base ≠ base ++ "_" ++ natural k := by
    intro k heq
    have hlength := congrArg (fun t : String => t.toList.length) heq
    simp at hlength
  by_cases hm : m = 0
  · by_cases hn : n = 0
    · rw [hm, hn]
    · exact absurd (by simpa [hm, hn] using h) (hlonger n)
  · by_cases hn : n = 0
    · exact absurd (by simpa [hm, hn] using h.symm) (hlonger m)
    · have hsuffix : base ++ "_" ++ natural m = base ++ "_" ++ natural n := by
        simpa [hm, hn] using h
      exact natural_injective (String.append_right_inj (base ++ "_") |>.mp hsuffix)

namespace Numbered

variable {d : Dialect} {j k : Nat} {c : String}

theorem mono (h : Numbered d k c) (hle : j ≤ k) : Numbered d j c := by
  obtain ⟨depth, hdepth, rfl⟩ := h
  exact ⟨depth, Nat.le_trans hle hdepth, rfl⟩

theorem self (d : Dialect) (k : Nat) : Numbered d k (rowNumberWord d k) :=
  ⟨k, Nat.le_refl k, rfl⟩

/-- A column further out is none of those further in. -/
theorem not_of_lt (h : j < k) : ¬Numbered d k (rowNumberWord d j) := by
  rintro ⟨depth, hdepth, heq⟩
  have hsame := rowNumberWord_injective d heq
  omega

end Numbered

namespace Text

/-- A name with a number behind it is one word. -/
theorem words_append_natural {t : String} (hname : t.toList.all Config.isNameChar = true)
    (n : Nat) :
    words (t ++ natural n) = [String.ofList (t.toList.map Char.toUpper) ++ natural n] := by
  obtain ⟨c, hc, -⟩ := exists_isDigit_natural n
  have hall : (t ++ natural n).toList.all Config.isNameChar = true := by
    rw [String.toList_append, List.all_append, hname, all_isNameChar_natural]
    rfl
  have hne : (t ++ natural n).toList ≠ [] := by
    rw [String.toList_append]
    exact List.ne_nil_of_mem (List.mem_append_right _ hc)
  have hdigits : (natural n).toList.map Char.toUpper = (natural n).toList := by
    refine (List.map_congr_left fun c hc => ?_).trans (List.map_id _)
    exact toUpper_of_isDigit (isDigit_of_mem_natural hc)
  rw [words, wordsOf_of_all hne hall, String.toList_append, List.map_append, hdigits,
    String.ofList_append, String.ofList_toList]

/-- A number is one word. -/
theorem words_natural (n : Nat) : words (natural n) = [natural n] :=
  words_append_natural (t := "") rfl n

/-- A number is none of the words without digits. -/
theorem natural_ne {w : String} (h : w.toList.all (!·.isDigit) = true) (n : Nat) :
    natural n ≠ w := by
  intro heq
  obtain ⟨c, hc, hdigit⟩ := exists_isDigit_natural n
  rw [heq] at hc
  simpa [hdigit] using List.all_eq_true.mp h c hc

end Text

/-- The name of a column of row numbers is one word. -/
theorem words_rowNumberName (s : Setting) :
    (s.dialect.rowLimiting = .numbering →
      words (rowNumberName "rownum" s) = [rowNumberWord s.dialect s.depth]) ∧
    (s.dialect.rowLimiting = .pseudoColumn →
      words (rowNumberName "paging_rownumber" s) = [rowNumberWord s.dialect s.depth]) := by
  unfold rowNumberName rowNumberWord
  constructor
  · intro hd
    by_cases hdepth : s.depth = 0
    · rw [if_pos hdepth, if_pos hdepth, if_pos hd]
      rfl
    · rw [if_neg hdepth, if_neg hdepth, if_pos hd, words_append_natural rfl]
      rfl
  · intro hd
    by_cases hdepth : s.depth = 0
    · rw [if_pos hdepth, if_pos hdepth, hd]
      rfl
    · rw [if_neg hdepth, if_neg hdepth, hd, words_append_natural rfl]
      rfl

/-! ## Quiet drafts -/

/-- Whether a leaf is no word of a clause. -/
def Leaf.isQuiet : Leaf → Bool
  | word w => !clauseWords.contains w
  | other => true

/-- Whether operands stand at a place. -/
def Place.isCalm : Place → Bool
  | head | condition | rest => true
  | start | naming | source => false

namespace Part

variable {p : Place} {ps : List (Part Leaf)}

/-- A quiet word is none of those that a reader looks for. -/
theorem ne_of_isQuiet {w w' : String} (h : Leaf.isQuiet (.word w) = true)
    (hw' : clauseWords.contains w' = true) : w ≠ w' := by
  rintro rfl
  rw [Leaf.isQuiet, hw'] at h
  cases h

/-- An operand leaves a reader where it is. -/
theorem behind_of_isQuiet (hp : p.isCalm = true) {part : Part Leaf}
    (h : (leaves [part]).all Leaf.isQuiet = true) : p.behind part = p := by
  have hword : ∀ w, Leaf.isQuiet (.word w) = true → p.behindWord w = p := by
    intro w hw
    -- The word is none of those that move a reader.
    have hne : ∀ w', clauseWords.contains w' = true → w ≠ w' := fun w' => ne_of_isQuiet hw
    cases p with
    | start | naming | source => cases hp
    | rest => rfl
    | head =>
      simp [Place.behindWord, hne "FROM" rfl, hne "AS" rfl, hne "ROWNUM" rfl]
    | condition =>
      simp [Place.behindWord, Place.joinWords, Place.closingWords, hne "INNER" rfl,
        hne "LEFT" rfl, hne "RIGHT" rfl, hne "WHERE" rfl, hne "GROUP" rfl, hne "HAVING" rfl,
        hne "ORDER" rfl, hne "UNION" rfl, hne "INTERSECT" rfl, hne "EXCEPT" rfl, hne "MINUS" rfl]
  rcases part with (w | _) | inner
  · exact hword w (by simpa [leaves, leaf?] using h)
  · cases p <;> first | rfl | cases hp
  · cases p <;> first | rfl | cases hp

/-- An operand names no column, and none of its parts is in the FROM. -/
theorem quiet (hp : p.isCalm = true) (h : (leaves ps).all Leaf.isQuiet = true) :
    p.after ps = p ∧ namedIn p ps = [] ∧ derivedIn p ps = [] := by
  induction ps with
  | nil => exact ⟨rfl, rfl, rfl⟩
  | cons part ps ih =>
    rw [← List.singleton_append, leaves_append, List.all_append, Bool.and_eq_true] at h
    obtain ⟨hafter, hnamed, hderived⟩ := ih h.2
    have hbehind := behind_of_isQuiet hp h.1
    have hpart : part.named p = [] ∧ part.derived p = [] := by
      cases p <;> first | exact ⟨rfl, rfl⟩ | cases hp
    refine ⟨?_, ?_, ?_⟩
    · rw [Place.after, List.foldl_cons, hbehind]
      exact hafter
    · rw [namedIn, hbehind, hpart.1, hnamed, List.nil_append]
    · rw [derivedIn, hbehind, hpart.2, hderived, List.nil_append]

/-- An operand is no query, and so it names no column. -/
theorem Fresh.of_quiet (h : (leaves ps).all Leaf.isQuiet = true) : Fresh ps := by
  refine .of_named_nil ?_
  cases ps with
  | nil => rfl
  | cons part ps =>
    have hbehind : Place.start.behind part = .source := by
      rcases part with (w | _) | inner
      · have hw : Leaf.isQuiet (.word w) = true := by
          simp only [leaves, List.filterMap_cons, leaf?, List.all_cons, Bool.and_eq_true] at h
          exact h.1
        exact if_neg (ne_of_isQuiet hw rfl)
      · rfl
      · rfl
    rw [namedIn, hbehind, namedIn_of_isTail rfl]
    rfl

end Part

namespace Draft

variable {d : Dialect} {a b : Draft} {j k : Nat} {p q r : Place} {own own' : List String}
  {P Q R : List (Part Leaf) → Prop}

/-! ## Readings -/

/-- Drafts that are read as parts with some property, while all their subqueries have columns of
their own. -/
def ReadsAs (P : List (Part Leaf) → Prop) (a : Draft) : Prop :=
  ∃ ps, Reads Piece.leaves a ps ∧ P ps ∧ ∀ g ∈ groupsIn ps, Part.Fresh g

namespace ReadsAs

theorem mono (h : ReadsAs P a) (hPQ : ∀ ps, P ps → Q ps) : ReadsAs Q a := by
  obtain ⟨ps, hreads, hP, hfresh⟩ := h
  exact ⟨ps, hreads, hPQ ps hP, hfresh⟩

/-- Drafts without parentheses. -/
theorem leaves {l : List Leaf} (h : Reads Piece.leaves a (l.map .leaf))
    (hP : P (l.map .leaf)) : ReadsAs P a :=
  ⟨_, h, hP, by simp⟩

theorem empty (hP : P []) : ReadsAs P .empty := leaves (l := []) .empty hP

theorem fail (e : Error) {l : List Leaf} (hP : P (l.map .leaf)) : ReadsAs P (.fail e) :=
  leaves (.fail e _) hP

/-- One draft behind another is read as the parts of both. -/
theorem append (ha : ReadsAs P a) (hb : ReadsAs Q b)
    (h : ∀ ps qs, P ps → Q qs → R (ps ++ qs)) : ReadsAs R (a ++ b) := by
  obtain ⟨ps, hps, hP, hfresh⟩ := ha
  obtain ⟨qs, hqs, hQ, hfresh'⟩ := hb
  refine ⟨ps ++ qs, hps.append hqs, h ps qs hP hQ, ?_⟩
  rw [groupsIn_append, List.forall_mem_append]
  exact ⟨hfresh, hfresh'⟩

/-- A query between parentheses is one more subquery. -/
theorem parens (ha : ReadsAs P a) (hP : ∀ ps, P ps → Part.Fresh ps)
    (hQ : ∀ ps, P ps → Q [.parens ps]) : ReadsAs Q a.parens := by
  obtain ⟨ps, hreads, hps, hfresh⟩ := ha
  refine ⟨_, hreads.parens, hQ ps hps, ?_⟩
  rw [groupsIn_parens]
  exact List.forall_mem_cons.mpr ⟨hP ps hps, hfresh⟩

end ReadsAs

/-- Drafts whose subqueries all have columns of their own. -/
def Settled (a : Draft) : Prop := ReadsAs (fun _ => True) a

/-- Drafts that have a column of their own, as their subqueries have. -/
def Fresh (a : Draft) : Prop := ReadsAs Part.Fresh a

/-- Operands: drafts without words of clauses outside of parentheses. -/
def Quiet (a : Draft) : Prop := ReadsAs (fun ps => (Part.leaves ps).all Leaf.isQuiet = true) a

theorem ReadsAs.settled (h : ReadsAs P a) : Settled a := h.mono fun _ _ => trivial

namespace Settled

theorem text (t : String) : Settled (.text t) := .leaves (.text t) trivial

theorem append (ha : Settled a) (hb : Settled b) : Settled (a ++ b) :=
  ReadsAs.append ha hb fun _ _ _ _ => trivial

/-- A draft that begins with a word other than SELECT is no query. -/
theorem fresh {t : String} (h : (words t).head?.any (· != "SELECT") = true) (hb : Settled b) :
    Fresh (.text t ++ b) := by
  have hword : ReadsAs (fun ps => namedIn .start ps = [] ∧ (Place.start.after ps).isTail = true)
      (.text t) := by
    refine .leaves (.text t) ?_
    rw [Piece.leaves]
    cases hwords : words t with
    | nil => simp [hwords] at h
    | cons w ws =>
      have hw : w ≠ "SELECT" := by simpa [hwords] using h
      have hbehind : Place.start.behind (.leaf (.word w)) = .source := if_neg hw
      rw [List.map_cons, List.map_cons, namedIn, Place.after, List.foldl_cons, hbehind,
        namedIn_of_isTail rfl]
      exact ⟨rfl, Place.isTail_after rfl _⟩
  refine hword.append hb fun ps qs hps _ => .of_named_nil ?_
  rw [namedIn_append, hps.1, namedIn_of_isTail hps.2]
  rfl

end Settled

namespace Quiet

theorem settled (h : Quiet a) : Settled a := ReadsAs.settled h

/-- An operand is no query. -/
theorem fresh (h : Quiet a) : Fresh a := ReadsAs.mono h fun _ => .of_quiet

theorem empty : Quiet .empty := ReadsAs.empty rfl

theorem fail (e : Error) : Quiet (.fail e) := ReadsAs.fail e (l := []) rfl

/-- Texts without words of clauses. -/
theorem text {t : String} (h : isOperand t = true) : Quiet (.text t) := by
  refine .leaves (.text t) ?_
  rw [leaves_map_leaf, Piece.leaves, List.all_map]
  exact h

theorem quoted (name : String) : Quiet (.quoted name) := .leaves (.quoted name) rfl

theorem bare (name : String) : Quiet (.piece (.bare name)) := .leaves (.bare name) rfl

theorem value (v : Value) : Quiet (.piece (.value v)) := .leaves (.value v) rfl

theorem append (ha : Quiet a) (hb : Quiet b) : Quiet (a ++ b) := by
  refine ReadsAs.append ha hb fun ps qs hps hqs => ?_
  rw [leaves_append, List.all_append, hps, hqs]
  rfl

/-- Parentheses are passed by, whatever is between them. -/
theorem parens (ha : Fresh a) : Quiet a.parens := ReadsAs.parens ha (fun _ => id) fun _ _ => rfl

/-- A text between two operands. -/
theorem separated {t : String} (ha : Quiet a) (ht : isOperand t = true) (hb : Quiet b) :
    Quiet (a ++ .text t ++ b) :=
  (ha.append (.text ht)).append hb

theorem joinWith {separator : String} (hs : isOperand separator = true) {ds : List Draft}
    (h : ∀ a ∈ ds, Quiet a) : Quiet (.joinWith separator ds) :=
  joinWith_induction empty append (text hs) h

/-- A comma-separated list. -/
theorem items {α : Type} {f : α → Draft} {xs : List α} (h : ∀ x ∈ xs, Quiet (f x)) :
    Quiet (.list (xs.map f)) :=
  joinWith rfl (List.forall_mem_map.mpr h)

end Quiet

/-- Expressions are operands, and so is what is between their parentheses. -/
theorem Composed.quiet (h : OperandDraft d a) : Quiet a := by
  induction h with
  | empty => exact .empty
  | text ht => exact .text ht
  | quoted name => exact .quoted name
  | bare name => exact .bare name
  | value _ => exact .value _
  | missing _ => exact .fail _
  | append _ _ iha ihb => exact iha.append ihb
  | parens _ ih => exact .parens ih.fresh

/-! ## Places -/

/-- Drafts that move a reader from one place to another and name some columns on the way, while
those of the FROM are numbered below `k` subqueries or more. -/
def Moves (d : Dialect) (k : Nat) (p q : Place) (own : List String) (a : Draft) : Prop :=
  ReadsAs (fun ps => p.after ps = q ∧ namedIn p ps = own ∧ ∀ c ∈ fromIn p ps, Numbered d k c) a

/-- Drafts that move a reader behind a FROM. -/
def Reaches (d : Dialect) (k : Nat) (p : Place) (own : List String) (a : Draft) : Prop :=
  ∃ q : Place, q.isTail = true ∧ Moves d k p q own a

/-- Queries whose columns are numbered below `k` subqueries or more. -/
def Selects (d : Dialect) (k : Nat) (a : Draft) : Prop :=
  ReadsAs (fun ps => (Place.start.after ps).isTail = true ∧ Part.Fresh ps ∧
    ∀ c ∈ exposedIn .start ps, Numbered d k c) a

/-- Clauses behind the FROM: drafts in front of which the sources end. -/
def Rests (a : Draft) : Prop :=
  ReadsAs (fun ps => ∀ p : Place, p.isTail = true → p.after ps = .rest ∧ fromIn p ps = []) a

/-- What can end a query: drafts that add nothing to the FROM. -/
def Closes (a : Draft) : Prop :=
  ReadsAs (fun ps => ∀ p : Place, p.isTail = true → fromIn p ps = []) a

namespace Moves

/-- A draft without parentheses moves a reader by its words. -/
theorem leaves {l : List Leaf} (h : Reads Piece.leaves a (l.map .leaf)) (d : Dialect) (k : Nat)
    (p : Place) : Moves d k p (p.after (l.map .leaf)) (namedIn p (l.map .leaf)) a := by
  refine ReadsAs.leaves h ⟨rfl, rfl, ?_⟩
  rw [fromIn_map_leaf]
  simp

/-- A text moves a reader by its words. -/
theorem text {t : String} {ws : List String} (h : words t = ws) (d : Dialect) (k : Nat)
    (p : Place) : Moves d k p (p.after ((ws.map .word).map .leaf))
      (namedIn p ((ws.map .word).map .leaf)) (.text t) := by
  subst h
  exact leaves (.text t) d k p

theorem empty : Moves d k p p [] .empty := leaves (l := []) .empty d k p

/-- An identifier is no name of a column. -/
theorem quoted (name : String) (d : Dialect) (k : Nat) (p : Place) :
    Moves d k p (p.after [.leaf .other]) (namedIn p [.leaf .other]) (.quoted name) :=
  leaves (l := [.other]) (.quoted name) d k p

theorem append (ha : Moves d k p q own a) (hb : Moves d k q r own' b) :
    Moves d k p r (own ++ own') (a ++ b) := by
  refine ReadsAs.append ha hb ?_
  rintro ps qs ⟨rfl, rfl, hfrom⟩ ⟨rfl, rfl, hfrom'⟩
  refine ⟨Place.after_append p ps qs, namedIn_append p ps qs, ?_⟩
  rw [fromIn_append, List.forall_mem_append]
  exact ⟨hfrom, hfrom'⟩

/-- A comma-separated list of drafts behind which a reader is where it was. -/
theorem list {ds : List Draft} (h : ∀ a ∈ ds, Moves d k .head .head [] a) :
    Moves d k .head .head [] (.list ds) :=
  joinWith_induction empty append (text rfl d k .head) h

end Moves

/-- An operand leaves a reader where it is. -/
theorem Quiet.moves (h : Quiet a) (hp : p.isCalm = true) (d : Dialect) (k : Nat) :
    Moves d k p p [] a := by
  refine ReadsAs.mono h fun ps hps => ?_
  obtain ⟨hafter, hnamed, hderived⟩ := Part.quiet hp hps
  refine ⟨hafter, hnamed, ?_⟩
  simp [fromIn, hderived]

namespace Rests

/-- A text that begins with the keyword of a clause. -/
theorem text {t : String} (h : (words t).head?.any Place.closingWords.contains = true) :
    Rests (.text t) := by
  refine .leaves (.text t) fun p hp => ⟨?_, fromIn_map_leaf p _⟩
  rw [Piece.leaves]
  cases hwords : words t with
  | nil => simp [hwords] at h
  | cons w ws =>
    have hclosing : Place.closingWords.contains w = true := by simpa [hwords] using h
    have hbehind : p.behind (.leaf (.word w)) = .rest := by
      have hmem := List.contains_iff_mem.mp hclosing
      cases p with
      | start | head | naming => cases hp
      | rest => rfl
      | source | condition =>
        simp only [Place.closingWords, List.mem_cons, List.not_mem_nil, or_false] at hmem
        rcases hmem with rfl | rfl | rfl | rfl | rfl | rfl | rfl | rfl <;> rfl
    rw [List.map_cons, List.map_cons, Place.after, List.foldl_cons, hbehind]
    exact Place.rest_after _

/-- Behind the sources a draft is read for its subqueries alone. -/
theorem append (ha : Rests a) (hb : Settled b) : Rests (a ++ b) := by
  refine ReadsAs.append ha hb fun ps qs hps _ p hp => ?_
  obtain ⟨hafter, hfrom⟩ := hps p hp
  rw [Place.after_append, fromIn_append, hafter, hfrom, Place.rest_after, fromIn, derivedIn_rest]
  exact ⟨rfl, rfl⟩

theorem closes (h : Rests a) : Closes a := ReadsAs.mono h fun _ hps p hp => (hps p hp).2

end Rests

namespace Closes

theorem text (t : String) : Closes (.text t) := .leaves (.text t) fun p _ => fromIn_map_leaf p _

theorem empty : Closes .empty := ReadsAs.empty fun _ _ => rfl

theorem append (ha : Closes a) (hb : Closes b) : Closes (a ++ b) := by
  refine ReadsAs.append ha hb fun ps qs hps hqs p hp => ?_
  rw [fromIn_append, hps p hp, hqs _ (Place.isTail_after hp ps)]
  rfl

theorem settled (h : Closes a) : Settled a := ReadsAs.settled h

end Closes

namespace Reaches

/-- A draft in front of a FROM. -/
theorem behind (ha : Moves d k p q own a) (hb : Reaches d k q own' b) :
    Reaches d k p (own ++ own') (a ++ b) := by
  obtain ⟨r, hr, hmoves⟩ := hb
  exact ⟨r, hr, ha.append hmoves⟩

/-- A draft that ends a query, wherever it leaves the reader. -/
theorem closed (ha : Reaches d k p own a) (hb : Closes b) : Reaches d k p own (a ++ b) := by
  obtain ⟨q, hq, ps, hps, ⟨rfl, rfl, hfrom⟩, hfresh⟩ := ha
  obtain ⟨qs, hqs, hfrom', hfresh'⟩ := hb
  refine ⟨_, Place.isTail_after hq qs, ps ++ qs, hps.append hqs,
    ⟨Place.after_append p ps qs, ?_, ?_⟩, ?_⟩
  · rw [namedIn_append, namedIn_of_isTail hq, List.append_nil]
  · rw [fromIn_append, hfrom' _ hq, List.append_nil]
    exact hfrom
  · rw [groupsIn_append, List.forall_mem_append]
    exact ⟨hfresh, hfresh'⟩

/-- A query that names no column. -/
theorem selects (h : Reaches d k .start [] a) : Selects d k a := by
  obtain ⟨q, hq, hmoves⟩ := h
  refine ReadsAs.mono hmoves ?_
  rintro ps ⟨rfl, hnamed, hfrom⟩
  refine ⟨hq, .of_named_nil hnamed, ?_⟩
  rw [exposedIn_eq, hnamed]
  exact hfrom

/-- A query with a column of its own, and those further in in its FROM. -/
theorem selects_numbered (h : Reaches d (k + 1) .start [rowNumberWord d k] a) : Selects d k a := by
  obtain ⟨q, hq, hmoves⟩ := h
  refine ReadsAs.mono hmoves ?_
  rintro ps ⟨rfl, hnamed, hfrom⟩
  have hown : Part.Fresh ps := by
    refine ⟨by simp [hnamed], fun c hc hmem => ?_⟩
    rw [hnamed, List.mem_singleton] at hc
    subst hc
    exact Numbered.not_of_lt (Nat.lt_succ_self k) (hfrom _ hmem)
  refine ⟨hq, hown, ?_⟩
  rw [exposedIn_eq, hnamed, List.forall_mem_append, List.forall_mem_singleton]
  exact ⟨.self d k, fun c hc => (hfrom c hc).mono (Nat.le_succ k)⟩

end Reaches

namespace Selects

theorem mono (h : Selects d k a) (hle : j ≤ k) : Selects d j a :=
  ReadsAs.mono h fun _ ⟨htail, hown, hexposed⟩ =>
    ⟨htail, hown, fun c hc => (hexposed c hc).mono hle⟩

theorem fresh (h : Selects d k a) : Fresh a := ReadsAs.mono h fun _ ⟨_, hown, _⟩ => hown

/-- What fails is read as any query. -/
theorem fail (e : Error) : Selects d k (.fail e) := by
  refine ReadsAs.fail e (l := [.word "SELECT", .word "FROM"]) ⟨rfl, .of_named_nil rfl, ?_⟩
  rw [exposedIn_eq, fromIn_map_leaf]
  simp [namedIn, named, Place.behind, Place.behindWord]

/-- A query between parentheses in a FROM. -/
theorem derived (h : Selects d k a) (hp : p.isFrom = true) : Moves d k p .source [] a.parens := by
  refine ReadsAs.parens h (fun _ ⟨_, hown, _⟩ => hown) ?_
  rintro ps ⟨-, -, hexposed⟩
  have hderived : derivedIn p [.parens ps] = [ps] := by
    cases p <;> first | rfl | cases hp
  refine ⟨?_, ?_, ?_⟩
  · cases p <;> first | rfl | cases hp
  · cases p <;> rfl
  · rw [fromIn, hderived, List.flatMap_singleton]
    exact hexposed

/-- A draft that ends a query. -/
theorem closed (ha : Selects d k a) (hb : Closes b) : Selects d k (a ++ b) := by
  refine ReadsAs.append ha hb ?_
  rintro ps qs ⟨htail, hown, hexposed⟩ hfrom
  have hnamed : namedIn .start (ps ++ qs) = namedIn .start ps := by
    rw [namedIn_append, namedIn_of_isTail htail, List.append_nil]
  have hsame : fromIn .start (ps ++ qs) = fromIn .start ps := by
    rw [fromIn_append, hfrom _ htail, List.append_nil]
  refine ⟨?_, ⟨?_, ?_⟩, ?_⟩
  · rw [Place.after_append]
    exact Place.isTail_after htail qs
  · rw [hnamed]
    exact hown.length_le
  · rw [hnamed, hsame]
    exact hown.notMem
  · rw [exposedIn_eq, hnamed, hsame, ← exposedIn_eq]
    exact hexposed

end Selects

/-- A query whose FROM is a single derived table. Nothing behind that adds to the FROM. -/
theorem Moves.wrapper (ha : Moves d k .start .source own a) (hb : Selects d k b) (t : String) :
    Reaches d k .start own (a ++ b.parens ++ .text t) := by
  have hrows : Moves d k .start .source (own ++ []) (a ++ b.parens) := ha.append (hb.derived rfl)
  rw [List.append_nil] at hrows
  exact Reaches.closed ⟨.source, rfl, hrows⟩ (.text t)

end Draft

end DialectSql
