import DialectSql.Decimal.Power

/-!
# Decimals to doubles

The double nearest to a decimal, computed exactly: the quotient of two natural numbers is rounded to
the nearest multiple of the spacing at its size, and halfway goes to the even multiple.

## Main definitions

* `Decimal.roundHalfEven` — a quotient rounded to the nearest natural number
* `Decimal.BinaryFormat` — the precision and exponent range of a binary format
* `Decimal.BinaryFormat.round` — the mantissa and exponent nearest to a quotient
* `Decimal.toFloat` — the double nearest to a signed decimal
-/

namespace DialectSql.Decimal

/-- `num / den` rounded to the nearest natural number, halfway to the even one. -/
def roundHalfEven (num den : Nat) : Nat :=
  let quotient := num / den
  let rest := 2 * (num % den)
  if den < rest ∨ (rest = den ∧ quotient % 2 = 1) then quotient + 1 else quotient

/-- A binary format: `precision` bits of mantissa, and the range of exponents of the last bit. -/
structure BinaryFormat where
  /-- Number of bits of a full mantissa. -/
  precision : Nat
  /-- The exponent of the last bit of the smallest numbers. -/
  lowest : Int
  /-- The exponent of the last bit of the largest numbers. -/
  highest : Int

/-- Single precision. -/
def single : BinaryFormat := ⟨24, -149, 104⟩

/-- Double precision. -/
def double : BinaryFormat := ⟨53, -1074, 971⟩

/-- The largest `k` with `2 ^ k ≤ num / den`, for positive arguments. -/
def log2Quotient (num den : Nat) : Int :=
  -- The lengths in bits give the exponent or one more.
  let k : Int := num.log2 - den.log2
  if num * twoTo (-k).toNat < den * twoTo k.toNat then k - 1 else k

/-- The pair `(mantissa, exponent)` nearest to the positive number `num / den`, or nothing above the
range of the format. -/
def BinaryFormat.round (f : BinaryFormat) (num den : Nat) : Option (Nat × Int) :=
  let exponent := max f.lowest (log2Quotient num den - (f.precision - 1))
  let mantissa := roundHalfEven (num * twoTo (-exponent).toNat) (den * twoTo exponent.toNat)
  let (mantissa, exponent) :=
    -- Rounded up to a power of two, a mantissa has one bit too many.
    if mantissa = twoTo f.precision then (twoTo (f.precision - 1), exponent + 1)
    else (mantissa, exponent)
  if f.highest < exponent then none else some (mantissa, exponent)

/-- The bits of the double `mantissa · 2 ^ exponent`, for a mantissa and exponent of the format. -/
def doubleBits (mantissa : Nat) (exponent : Int) : Nat :=
  -- Without its leading bit a mantissa belongs to a subnormal number, whose exponent field is 0.
  if mantissa < twoTo 52 then mantissa
  else (exponent + 1075).toNat * twoTo 52 + (mantissa - twoTo 52)

/-- The bits of an infinite double. -/
def infinityBits : Nat := 2047 * twoTo 52

/-- A non-negative number in a format, as the bits of the double of the same value. -/
def BinaryFormat.toDoubleBits (f : BinaryFormat) (num den : Nat) : Nat :=
  if num = 0 then 0
  else
    match f.round num den with
    | none => infinityBits
    | some (mantissa, exponent) =>
      -- The numbers of either format are doubles, so nothing is rounded here.
      match double.round (mantissa * twoTo exponent.toNat) (twoTo (-exponent).toNat) with
      | none => infinityBits
      | some (mantissa, exponent) => if mantissa = 0 then 0 else doubleBits mantissa exponent

/-- The double of the number `digits · 10 ^ exponent` rounded to a format, with a sign. Exponents
far outside the range of doubles are cut, because the result no longer depends on them. -/
def toFloatIn (f : BinaryFormat) (negative : Bool) (digits : Nat) (exponent : Int) : Float :=
  let digitCount : Int := (Nat.toDigits 10 digits).length
  let exponent := max (-digitCount - 400) (min 400 exponent)
  let bits := f.toDoubleBits (digits * tenTo exponent.toNat) (tenTo (-exponent).toNat)
  Float.ofBits (UInt64.ofNat (if negative then twoTo 63 + bits else bits))

/-- The double nearest to the signed number `digits · 10 ^ exponent`. -/
def toFloat (negative : Bool) (digits : Nat) (exponent : Int) : Float :=
  toFloatIn double negative digits exponent

end DialectSql.Decimal
