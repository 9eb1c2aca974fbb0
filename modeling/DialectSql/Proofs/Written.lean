import DialectSql.Draft.Reading
import DialectSql.Proofs.Phrase

/-!
# Written drafts

A draft in the spelling of a dialect, whose constants are written by some function of their number
and their value. Literals and placeholders are two such functions, so that what holds of every
function holds of both texts of a draft.

## Main definitions

* `Draft.written` — a draft as text
* `Text.beginsApart` — characters that no word in front of them runs into

## Main results

* `Draft.literalText_eq_written`, `Draft.placeholderText_eq_written` — the two texts of a draft
* `Draft.written_append`, `Draft.written_parens` — a draft is written part by part
* `Phrase.beginsApart_written` — a phrase that begins apart does so in writing
-/

namespace DialectSql

/-- How a constant is written, by its number and its value. -/
abbrev Writer := Nat → Value → String

/-- The placeholders of a dialect. -/
def placeholders (d : Dialect) (base : String) : Writer := fun index _ => d.parameterName base index

/-- The literals of a dialect. -/
def literals (d : Dialect) : Writer := fun _ v => v.literal d

/-- The text of pieces, whose constants are counted from `index` on. -/
def writtenPieces (d : Dialect) (write : Writer) : (index : Nat) → List Piece → String
  | _, [] => ""
  | index, .value v :: pieces => write index v ++ writtenPieces d write (index + 1) pieces
  | index, p :: pieces => p.literalText d ++ writtenPieces d write index pieces

namespace Draft

variable {d : Dialect} {write : Writer} {index : Nat} {a b draft : Draft}

/-- The text of a draft, whose constants are counted from `index` on. -/
def written (d : Dialect) (write : Writer) (index : Nat) (draft : Draft) : String :=
  writtenPieces d write index draft.pieces

/-! ## The two texts of a draft -/

/-- The text with literals. -/
theorem literalText_eq_written (d : Dialect) (draft : Draft) (index : Nat) :
    draft.literalText d = draft.written d (literals d) index := by
  unfold literalText written
  induction draft.pieces generalizing index with
  | nil => rfl
  | cons p pieces ih =>
    cases p with
    | value v => simp [writtenPieces, literals, Piece.literalText, ← ih (index + 1)]
    | _ => simp [writtenPieces, ← ih index]

/-- The text with placeholders. -/
theorem placeholderText_eq_written (d : Dialect) (base : String) (index : Nat) (draft : Draft) :
    draft.placeholderText d base index = draft.written d (placeholders d base) index := by
  unfold placeholderText written
  induction draft.pieces generalizing index with
  | nil => rfl
  | cons p pieces ih =>
    cases p with
    | value v => simp [writtenPieces, placeholderTexts, placeholders, ← ih (index + 1)]
    | _ => simp [writtenPieces, placeholderTexts, ← ih index]

/-- A draft without constants has one text in both modes. -/
theorem placeholderText_of_constants_eq_nil (h : draft.constants = []) (d : Dialect)
    (base : String) (index : Nat) : draft.placeholderText d base index = draft.literalText d := by
  unfold placeholderText literalText
  unfold constants at h
  generalize draft.pieces = pieces at h ⊢
  induction pieces with
  | nil => rfl
  | cons p pieces ih =>
    cases p with
    | value v => cases h
    | _ => simpa [placeholderTexts] using ih h

/-! ## Part by part -/

theorem failure_append_eq_none (h : (a ++ b).failure = none) :
    a.failure = none ∧ b.failure = none := by
  rwa [failure_append, Option.or_eq_none_iff] at h

@[simp] theorem failure_parens (a : Draft) : a.parens.failure = a.failure := by
  rw [parens, failure_append, failure_append]
  cases a.failure <;> rfl

/-- Words behind a draft do not fail. -/
theorem failure_append_text (h : a.failure = none) (t : String) :
    (a ++ text t).failure = none := by
  rw [failure_append, h]
  rfl

/-- Words are no constants. -/
theorem constants_append_text (h : a.failure = none) (t : String) :
    (a ++ text t).constants = a.constants := by
  rw [constants_append h]
  exact List.append_nil _

theorem failure_opening_append (h : a.failure = none) :
    (piece .opening ++ a).failure = none := by
  rw [failure_append, h]
  rfl

/-- Parentheses are pieces around what is between them. -/
theorem pieces_parens (h : a.failure = none) :
    a.parens.pieces = .opening :: (a.pieces ++ [.closing]) := by
  rw [parens, append_of_success (failure_opening_append h), append_of_success rfl]
  rfl

/-- Pieces are written one behind the other. -/
theorem writtenPieces_append (d : Dialect) (write : Writer) (pieces rest : List Piece) :
    ∀ index, writtenPieces d write index (pieces ++ rest) =
      writtenPieces d write index pieces ++
        writtenPieces d write (index + (pieces.filterMap Piece.value?).length) rest := by
  induction pieces with
  | nil => simp [writtenPieces]
  | cons p pieces ih =>
    intro index
    cases p with
    | value v =>
      simp [writtenPieces, ih (index + 1), Piece.value?, String.append_assoc, Nat.add_assoc,
        Nat.add_comm 1]
    | _ => simp [writtenPieces, ih index, Piece.value?, List.filterMap_cons, String.append_assoc]

/-- A sequence is written part by part, and the numbers go on behind the first part. -/
theorem written_append (h : a.failure = none) (b : Draft) (index : Nat) :
    (a ++ b).written d write index =
      a.written d write index ++ b.written d write (index + a.constants.length) := by
  rw [append_of_success h]
  exact writtenPieces_append d write a.pieces b.pieces index

/-- Parentheses are written around what is between them. -/
theorem written_parens (h : a.failure = none) (index : Nat) :
    a.parens.written d write index = "(" ++ a.written d write index ++ ")" := by
  -- Parentheses hold no constants, so the numbers inside go on from outside.
  rw [parens, written_append (failure_opening_append h), written_append rfl]
  simp [piece, written, writtenPieces, Piece.literalText, constants, Piece.value?,
    List.filterMap_cons]

theorem constants_parens (h : a.failure = none) : a.parens.constants = a.constants := by
  unfold constants
  rw [pieces_parens h]
  simp [Piece.value?, List.filterMap_cons]

@[simp] theorem written_text (t : String) : (text t).written d write index = t := by
  simp [text, piece, written, writtenPieces, Piece.literalText]

@[simp] theorem written_quoted (name : String) :
    (quoted name).written d write index = d.quoteIdentifier name := by
  simp [quoted, piece, written, writtenPieces, Piece.literalText]

@[simp] theorem written_bare (name : String) :
    (piece (.bare name)).written d write index = name := by
  simp [piece, written, writtenPieces, Piece.literalText]

@[simp] theorem written_value (v : Value) :
    (piece (.value v)).written d write index = write index v := by
  simp [piece, written, writtenPieces]

@[simp] theorem written_empty : empty.written d write index = "" := rfl

end Draft

/-! ## The beginning of a phrase -/

/-- Whether no word in front of some characters runs into them. -/
def Text.beginsApart (chars : List Char) : Bool := chars.head?.all (!Config.isNameChar ·)

theorem Text.beginsApart_of_opensApart {t : String} (h : opensApart t = true) (rest : List Char) :
    beginsApart (t.toList ++ rest) = true := by
  unfold opensApart headApart at h
  cases ht : t.toList with
  | nil => simp [ht] at h
  | cons c cs => simpa [ht, beginsApart] using h

/-- Quoted identifiers begin apart. -/
theorem Dialect.opensApart_quoteIdentifier (d : Dialect) (name : String) :
    Text.opensApart (d.quoteIdentifier name) = true := by
  rw [quoteIdentifier, Text.enclosed, String.append_assoc]
  apply Text.opensApart_append
  cases d <;> rfl

/-- What a phrase that begins apart is written as begins apart, whatever stands behind it. -/
theorem Phrase.beginsApart_written {N B T : String → Prop} {opens closes : Bool} {draft : Draft}
    {d : Dialect} {write : Writer} (h : Phrase N B T opens closes draft) (hopens : opens = true)
    (hfailure : draft.failure = none) (index : Nat) (rest : List Char) :
    Text.beginsApart ((draft.written d write index).toList ++ rest) = true := by
  induction h generalizing index rest with
  | text _ _ =>
    rw [Draft.written_text]
    exact Text.beginsApart_of_opensApart hopens rest
  | mark _ _ =>
    rw [Draft.written_text, String.append_assoc]
    exact Text.beginsApart_of_opensApart (Text.opensApart_append rfl) rest
  | quoted _ =>
    rw [Draft.written_quoted]
    exact Text.beginsApart_of_opensApart (d.opensApart_quoteIdentifier _) rest
  -- These may begin with a letter, and so they are never said to begin apart.
  | bare _ | value _ => cases hopens
  | fail e => cases hfailure
  | noArguments =>
    rw [Draft.written_parens rfl, String.append_assoc]
    exact Text.beginsApart_of_opensApart (Text.opensApart_append rfl) rest
  | parens _ _ =>
    rw [Draft.failure_parens] at hfailure
    rw [Draft.written_parens hfailure, String.append_assoc]
    exact Text.beginsApart_of_opensApart (Text.opensApart_append rfl) rest
  -- A sequence begins as its first part does.
  | append _ _ _ iha ihb =>
    obtain ⟨ha, hb⟩ := Draft.failure_append_eq_none hfailure
    rw [Draft.written_append ha, String.toList_append, List.append_assoc]
    exact iha hopens ha _ _
  | weaken _ hle _ ih => exact ih (hle hopens) hfailure index rest

end DialectSql
