import DialectSql.Proofs.Outline
import DialectSql.Proofs.Run
import DialectSql.Proofs.Surface.Literal

/-!
# Reading row bounds

What a query says about the rows that it returns is read from the words and signs outside of its
identifiers and constants: the number behind a TOP, the closing LIMIT and OFFSET, and the conditions
on row numbers, which are a column of a derived table or the pseudo-column of one database. The rows
of an aggregate are those of its derived table.

Rows have numbers from one on, in the order of the result. Conditions on their numbers come first,
and what is left is counted again where rows are skipped or limited.

## Main definitions

* `Token`, `Piece.tokens` — what a text shows outside of identifiers and constants
* `RowBounds`, `RowBounds.Admits` — bounds of the rows of a query, and the rows that they leave
* `Part.rowBounds`, `Draft.rowBounds` — the bounds that a query states

## Main results

* `RowBounds.admits_iff` — the rows that bounds leave, by their numbers
-/

namespace DialectSql

/-! ## Bounds -/

/-- The bounds of the rows of a query. -/
structure RowBounds where
  /-- Rows up to this number are left out. -/
  above : Nat
  /-- Rows behind this number are left out. -/
  upTo : Option Nat
  /-- So many of the other rows are skipped. -/
  offset : Nat
  /-- So many rows are returned at most. -/
  count : Option Nat
  deriving DecidableEq, Repr

namespace RowBounds

/-- No bounds. -/
def unlimited : RowBounds := ⟨0, none, 0, none⟩

/-- Whether the number of a row meets the conditions on row numbers. -/
def passes (b : RowBounds) (row : Nat) : Bool := b.above < row && b.upTo.all (row ≤ ·)

/-- The place of a row among the rows that meet the conditions. -/
def place (b : RowBounds) (row : Nat) : Nat := (List.range' 1 row).countP b.passes

/-- Whether the row with a number is returned. -/
def Admits (b : RowBounds) (row : Nat) : Prop :=
  b.passes row = true ∧ b.offset < b.place row ∧ ∀ n ∈ b.count, b.place row ≤ b.offset + n

/-- The rows that meet the conditions stand one behind the other. -/
theorem place_eq (b : RowBounds) {row : Nat} (h : ∀ last ∈ b.upTo, row ≤ last) :
    b.place row = row - b.above := by
  induction row with
  | zero => exact (Nat.zero_sub _).symm
  | succ row ih =>
    -- Up to this row the upper bound leaves nothing out.
    have hupper : b.upTo.all (row + 1 ≤ ·) = true := by
      cases hlast : b.upTo with
      | none => rfl
      | some last => simpa using h last hlast
    have hnext := ih fun last hlast => Nat.le_of_succ_le (h last hlast)
    have hlast : b.passes (1 + row) = decide (b.above < row + 1) := by
      rw [Nat.add_comm, passes, hupper, Bool.and_true]
    rw [place] at hnext ⊢
    rw [List.range'_1_concat, List.countP_append, hnext, List.countP_singleton, hlast]
    by_cases habove : b.above < row + 1
    · rw [decide_eq_true habove, if_pos rfl]
      omega
    · rw [decide_eq_false habove, if_neg Bool.false_ne_true]
      omega

/-- A row is returned if it is within the bounds on row numbers, and its place among the rows within
them is behind those that are skipped and not behind the limit. -/
theorem admits_iff {b : RowBounds} {row : Nat} :
    b.Admits row ↔ b.above < row ∧ (∀ last ∈ b.upTo, row ≤ last) ∧ b.offset < row - b.above ∧
      ∀ n ∈ b.count, row - b.above ≤ b.offset + n := by
  have hpasses : b.passes row = true ↔ b.above < row ∧ ∀ last ∈ b.upTo, row ≤ last := by
    simp [passes, Option.all_eq_true]
  rw [Admits, hpasses, and_assoc]
  refine and_congr_right fun _ => and_congr_right fun hupper => ?_
  rw [b.place_eq hupper]

end RowBounds

/-! ## Tokens -/

/-- What a text shows. -/
inductive Token
  /-- A keyword, a number or a name of the language itself, in upper case. -/
  | word (text : String)
  /-- Another character. -/
  | sign (c : Char)
  /-- An identifier or a constant of the statement. -/
  | item
  deriving DecidableEq

namespace Text

/-- A blank shows nothing. -/
def signTokens (c : Char) : List Token := if c = ' ' then [] else [.sign c]

/-- What keywords, numbers and signs show. -/
def tokens (t : String) : List Token := runs .word signTokens t

/-- The words that are shown are words of the text. -/
theorem mem_words_of_mem_tokens {w t : String} (h : .word w ∈ tokens t) : w ∈ words t := by
  rcases exists_of_mem_runs h with ⟨v, hv, heq⟩ | ⟨c, -, hsign⟩
  · cases heq
    exact hv
  · unfold signTokens at hsign
    split at hsign <;> simp at hsign

/-- A text that ends apart is read on its own. -/
theorem tokens_append_of_closesApart {t : String} (h : closesApart t = true) (u : String) :
    tokens (t ++ u) = tokens t ++ tokens u := runs_append_of_closesApart h u

/-- A text that begins apart is read on its own. -/
theorem tokens_append_of_opensApart {u : String} (h : opensApart u = true) (t : String) :
    tokens (t ++ u) = tokens t ++ tokens u := runs_append_of_opensApart h t

/-- A number is one word. -/
theorem tokens_natural (n : Nat) : tokens (natural n) = [.word (natural n)] := by
  obtain ⟨c, hc, -⟩ := exists_isDigit_natural n
  have hupper : (natural n).toList.map Char.toUpper = (natural n).toList :=
    (List.map_congr_left fun c hc => toUpper_of_isDigit (isDigit_of_mem_natural hc)).trans
      (List.map_id _)
  rw [tokens, runs_of_all (List.ne_nil_of_mem hc) (all_isNameChar_natural n), hupper,
    String.ofList_toList]

/-- The number that a word stands for. -/
def number (w : String) : Nat := decimalValue w.toList

@[simp] theorem number_natural (n : Nat) : number (natural n) = n := by
  rw [number, natural, Nat.toList_repr, decimalValue, Nat.ofDigitChars_ten_toDigits]

end Text

/-- What a piece shows that is no parenthesis. -/
def Piece.tokens : Piece → List Token
  | text t => Text.tokens t
  | opening | closing => []
  | quoted _ | bare _ | value _ => [.item]

/-! ## Queries -/

namespace Part

open Text

/-- Whether a part is a word. -/
def isWord (w : String) : Part Token → Bool
  | leaf (.word v) => v == w
  | _ => false

/-- What stands in front of a word. -/
def before (w : String) (parts : List (Part Token)) : List (Part Token) :=
  parts.takeWhile (!isWord w ·)

/-- What stands behind a word. -/
def after (w : String) (parts : List (Part Token)) : List (Part Token) :=
  (parts.dropWhile (!isWord w ·)).tail

/-- The limit that stands in front of a projection. -/
def top? (parts : List (Part Token)) : Option Nat :=
  match after "TOP" (before "FROM" parts) with
  | leaf (.word count) :: _ => some (number count)
  | _ => none

/-- The number of skipped rows and the limit that close a query. A negative limit is none. -/
def limit (parts : List (Part Token)) : Nat × Option Nat :=
  match after "LIMIT" parts with
  | leaf (.word skip) :: leaf (.sign ',') :: leaf (.word count) :: _ =>
    (number skip, some (number count))
  | leaf (.word skip) :: leaf (.sign ',') :: leaf (.sign '-') :: _ => (number skip, none)
  | leaf (.word count) :: leaf (.word "OFFSET") :: leaf (.word skip) :: _ =>
    (number skip, some (number count))
  | leaf (.word count) :: _ => (0, some (number count))
  | _ =>
    match after "OFFSET" parts with
    | leaf (.word skip) :: _ => (number skip, none)
    | _ => (0, none)

/-- The derived table that a query begins to read, and what stands behind it and its symbol. -/
def derived? (parts : List (Part Token)) : Option (List (Part Token) × List (Part Token)) :=
  match after "FROM" parts with
  | parens rows :: leaf (.word "PAGING_T") :: rest => some (rows, rest)
  | parens rows :: rest => some (rows, rest)
  | _ => none

/-- The last column of a projection, if that numbers the rows. -/
def numbering? (parts : List (Part Token)) : Option String :=
  match (before "FROM" parts).reverse with
  | leaf (.word column) :: leaf (.word "AS") :: parens _ :: leaf (.word "OVER") :: parens [] ::
    leaf (.word "ROW_NUMBER") :: _ => some column
  | leaf (.word column) :: leaf (.word "ROWNUM") :: _ => some column
  | _ => none

/-- The last row number that a query leaves of its derived table. -/
def lastNumber? (parts : List (Part Token)) : Option Nat :=
  match derived? parts with
  | some (_, leaf (.word "WHERE") :: leaf (.word "ROWNUM") :: leaf (.sign '<') ::
      leaf (.sign '=') :: leaf (.word last) :: _) => some (number last)
  | _ => none

/-- The numbered rows that a query reads, and the number up to which it leaves them out. -/
def skipped? (parts : List (Part Token)) : Option (List (Part Token) × Nat) :=
  match derived? parts with
  | some (rows, leaf (.word "WHERE") :: leaf (.word column) :: leaf (.sign '>') ::
      leaf (.word skip) :: _) =>
    if numbering? rows = some column then some (rows, number skip) else none
  | _ => none

/-- The bounds that a query states for its rows. Numbered rows may have a last one further in. -/
def rowBounds (parts : List (Part Token)) : RowBounds where
  above := ((skipped? parts).map (·.2)).getD 0
  upTo :=
    match skipped? parts with
    | some (rows, _) => lastNumber? rows
    | none => lastNumber? parts
  offset := (limit parts).1
  count := (top? parts).or (limit parts).2

/-- The query of the rows that an aggregate is taken of, or the query itself. -/
def aggregated (parts : List (Part Token)) : List (Part Token) :=
  match after "FROM" parts with
  | parens rows :: leaf (.word "AGG_T") :: _ => rows
  | _ => parts

end Part

/-- The bounds that a query states for its rows, or for those that its aggregate is taken of. -/
def Draft.rowBounds (a : Draft) : RowBounds :=
  Part.rowBounds (Part.aggregated (a.outline Piece.tokens))

end DialectSql
