import DialectSql.Draft
import DialectSql.Parameter

/-!
# Reading drafts

The two texts of one draft: with literals for the constants, and with numbered placeholders whose
parameters carry the constants.

## Main definitions

* `Draft.literalText` — the text with literals
* `Draft.placeholderText`, `Draft.constants` — the text with placeholders, and what they stand for
* `parametersFrom` — the parameters of constants, drawn from a supply

## Main results

* `Draft.literalText_append`, `Draft.constants_append` — a sequence is read part by part
* `length_parametersFrom` — there is one parameter to a constant
-/

namespace DialectSql

/-- A piece with a literal for a constant. -/
def Piece.literalText (d : Dialect) : Piece → String
  | text t => t
  | opening => "("
  | closing => ")"
  | quoted name => d.quoteIdentifier name
  | bare name => name
  | value v => v.literal d

namespace Draft

/-- The text of a draft with literals. -/
def literalText (d : Dialect) (draft : Draft) : String :=
  String.join (draft.pieces.map (·.literalText d))

/-- The texts of pieces with placeholders, numbered from `index` on. -/
def placeholderTexts (d : Dialect) (base : String) : (index : Nat) → List Piece → List String
  | _, [] => []
  | index, .value _ :: pieces =>
    d.parameterName base index :: placeholderTexts d base (index + 1) pieces
  | index, p :: pieces => p.literalText d :: placeholderTexts d base index pieces

/-- The text of a draft with placeholders, numbered from `index` on. -/
def placeholderText (d : Dialect) (base : String) (index : Nat) (draft : Draft) : String :=
  String.join (placeholderTexts d base index draft.pieces)

/-- The constants of a draft, in the order of the text. -/
def constants (draft : Draft) : List Value :=
  draft.pieces.filterMap Piece.value?

/-- The literal text of a sequence is that of its first part, then that of its second. -/
theorem literalText_append {a : Draft} (h : a.failure = none) (d : Dialect) (b : Draft) :
    (a ++ b).literalText d = a.literalText d ++ b.literalText d := by
  rw [append_of_success h]
  simp [literalText]

/-- The constants of a sequence are those of its first part, then those of its second. -/
theorem constants_append {a : Draft} (h : a.failure = none) (b : Draft) :
    (a ++ b).constants = a.constants ++ b.constants := by
  rw [append_of_success h]
  simp [constants]

end Draft

/-- The parameters of constants, numbered from `index` on: fresh ones from a supply, under the names
of their placeholders and with the values bound to them. -/
def parametersFrom {σ : Type} (supply : Supply σ) (d : Dialect) (base : String) :
    (index : Nat) → List Value → σ → List Parameter × σ
  | _, [], state => ([], state)
  | index, v :: vs, state =>
    let (fresh, state) := supply.create state
    let (parameters, state) := parametersFrom supply d base (index + 1) vs state
    ({ fresh with name := d.parameterName base index, value := v.bound d } :: parameters, state)

/-- There is one parameter to a constant. -/
@[simp] theorem length_parametersFrom {σ : Type} (supply : Supply σ) (d : Dialect)
    (base : String) (index : Nat) (values : List Value) (state : σ) :
    (parametersFrom supply d base index values state).1.length = values.length := by
  induction values generalizing index state with
  | nil => rfl
  | cons v vs ih => simp [parametersFrom, ih]

end DialectSql
