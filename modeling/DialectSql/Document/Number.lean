import DialectSql.Decimal.Rounding
import DialectSql.Document.Json
import DialectSql.Text.Digits

/-!
# Numbers of documents

Numbers by the grammar of JSON. An integer of 64 bits is exact. Any other number becomes a float in
two steps, each of them rounded: as many of its first digits as fit into 64 bits become a float, and
that float is multiplied or divided by the float of a power of ten. The outcome may therefore be a
neighbour of the float that is nearest to the number.

## Main definitions

* `Json.extend` — an integer of 64 bits with more digits
* `Json.scaled` — a float from an integer and a power of ten
* `Json.unsigned?`, `Json.number?` — a number behind its sign, and a number

## Main results

* `Json.extend_of_fits` — digits that fit are all taken
-/

namespace DialectSql.Json

/-! ## Digits -/

/-- The integer `n` with more digits behind it, as many as keep it within 64 bits, and the number of
digits that were left out. The digits behind the first one left out are left out too. -/
def extend (n : Nat) : (digits : List Char) → Nat × Nat
  | [] => (n, 0)
  | c :: digits =>
    let m := 10 * n + (c.toNat - '0'.toNat)
    if m < UInt64.size then extend m digits else (n, digits.length + 1)

/-- Digits that fit are all taken. -/
theorem extend_of_fits {n : Nat} {digits : List Char}
    (h : Nat.ofDigitChars 10 digits n < UInt64.size) :
    extend n digits = (Nat.ofDigitChars 10 digits n, 0) := by
  induction digits generalizing n with
  | nil => rfl
  | cons c digits ih =>
    rw [Nat.ofDigitChars_cons] at h ⊢
    -- The digits so far are no more than the whole number, so they fit too.
    have le : 10 * n + (c.toNat - '0'.toNat) ≤
        Nat.ofDigitChars 10 digits (10 * n + (c.toNat - '0'.toNat)) := by
      rw [Nat.ofDigitChars_eq_ofDigitChars_zero]
      exact Nat.le_add_right_of_le (Nat.le_mul_of_pos_left _ (Nat.pow_pos (by decide)))
    rw [extend, if_pos (Nat.lt_of_le_of_lt le h), ih h]

/-- A run of decimal digits and what follows; the run must not be empty. -/
def digits? (chars : List Char) : Option (List Char × List Char) :=
  let digits := chars.takeWhile Char.isDigit
  if digits.isEmpty then none else some (digits, chars.dropWhile Char.isDigit)

/-- The exponent at the end of a number, zero if there is none. -/
def exponent? (chars : List Char) : Option Int :=
  match chars with
  | [] => some 0
  | mark :: rest =>
    if mark = 'e' ∨ mark = 'E' then
      let (negative, rest) := match rest with
        | '-' :: rest => (true, rest)
        | '+' :: rest => (false, rest)
        | rest => (false, rest)
      match digits? rest with
      | some (digits, []) =>
        let n : Int := Text.decimalValue digits
        some (if negative then -n else n)
      | _ => none
    else none

/-! ## Floats -/

/-- The exponent of the greatest power of ten among the floats. -/
def greatestPower : Nat := 308

/-- The float of a power of ten. -/
def powerOfTen (places : Nat) : Float := Decimal.toFloat false 1 places

/-- A float multiplied by a power of ten, if the product is a float. -/
def raised? (x : Float) (places : Nat) : Option Float :=
  if x == 0 then some x
  else if greatestPower < places then none
  else
    let y := x * powerOfTen places
    if y.isFinite then some y else none

/-- A float divided by a power of ten, by several where one is too great. -/
def lowered (x : Float) (places : Nat) : Float :=
  if places ≤ greatestPower then x / powerOfTen places
  else if x == 0 then x
  else lowered (x / powerOfTen greatestPower) (places - greatestPower)
termination_by places
decreasing_by simp only [greatestPower] at *; omega

/-- The float of `± n · 10 ^ exponent`, rounded as an integer and again with the power. -/
def scaled (negative : Bool) (n : Nat) (exponent : Int) : Json :=
  let x := Decimal.toFloat false n 0
  let scaled? :=
    if 0 ≤ exponent then raised? x exponent.toNat else some (lowered x (-exponent).toNat)
  match scaled? with
  | some y => float (if negative then -y else y)
  | none => unusable

/-! ## Numbers -/

/-- An integer: exact in the range of 64-bit integers, otherwise the nearest float. Zero with a sign
is a float. -/
def integer (negative : Bool) (n : Nat) : Json :=
  if negative then
    if n = 0 ∨ -(n : Int) < Int64.minValue.toInt then float (Decimal.toFloat true n 0)
    else int (-(n : Int))
  else int n

/-- A number behind its sign: an integer part without superfluous zeros, then a fraction and an
exponent if any. -/
def unsigned? (negative : Bool) (chars : List Char) : Option Json := do
  let (whole, rest) ← digits? chars
  if 1 < whole.length && whole.head? == some '0' then none
  else
    let (n, excess) := extend 0 whole
    match rest with
    | [] => return if excess = 0 then integer negative n else scaled negative n excess
    | '.' :: rest =>
      let (places, rest) ← digits? rest
      let exponent ← exponent? rest
      let (n, unread) := extend n places
      -- Places that were read divide by ten, digits left out in front of the point multiply.
      return scaled negative n (excess + unread - places.length + exponent)
    | rest => return scaled negative n (excess + (← exponent? rest))

/-- A number with its sign, if it has one. -/
def number? : (chars : List Char) → Option Json
  | '-' :: chars => unsigned? true chars
  | chars => unsigned? false chars

end DialectSql.Json
