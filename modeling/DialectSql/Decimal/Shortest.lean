import DialectSql.Decimal.Power

/-!
# Shortest decimals of binary fractions

A finite binary floating-point number stands for every real that rounds to it. Among the decimals in
that interval this module selects one with the fewest digits, and of those the one nearest to the
number itself. All arithmetic is on natural numbers: a number is a quotient `num / den`, and the
interval is given by its two ends over the same denominator.

## Main definitions

* `Decimal` — digits and a power of ten
* `Decimal.Interval` — a positive number together with the interval that rounds to it
* `Decimal.Interval.ofBits` — the interval of a double
* `Decimal.Interval.shortest` — the decimal with the fewest digits in an interval
-/

namespace DialectSql

/-- The decimal `digits · 10 ^ exponent`. -/
structure Decimal where
  /-- The digits, read as one natural number. -/
  digits : Nat
  /-- The power of ten of the last digit. -/
  exponent : Int
  deriving DecidableEq, Repr

namespace Decimal

/-- What becomes of a number halfway between two neighbours. -/
inductive Tie
  /-- The larger neighbour is taken. -/
  | up
  /-- The neighbour with an even last digit is taken. -/
  | even
  deriving DecidableEq, Repr

/-- A positive number `value / den` and the reals that round to it, from `low / den` to
`high / den`. -/
structure Interval where
  /-- Numerator of the number. -/
  value : Nat
  /-- Numerator of the lower end. -/
  low : Nat
  /-- Numerator of the upper end. -/
  high : Nat
  /-- The common denominator. -/
  den : Nat
  /-- Whether the ends themselves round to the number. -/
  closed : Bool

namespace Interval

/-- The interval of the positive double `mantissa · 2 ^ exponent`. Below a power of two the
neighbours lie half as far apart, which `atPower` says. -/
def ofMantissa (mantissa : Nat) (exponent : Int) (atPower : Bool) : Interval :=
  -- Counted in quarters of the spacing, the number and both ends are whole.
  let scale := twoTo (exponent - 2).toNat
  { value := 4 * mantissa * scale
    low := (if atPower then 4 * mantissa - 1 else 4 * mantissa - 2) * scale
    high := (4 * mantissa + 2) * scale
    den := twoTo (2 - exponent).toNat
    closed := mantissa % 2 == 0 }

/-- The interval of the finite, non-zero double whose bits without the sign are `bits`. -/
def ofBits (bits : Nat) : Interval :=
  let fraction := bits % twoTo 52
  let exponent : Nat := bits / twoTo 52 % twoTo 11
  -- Subnormal numbers have no leading bit.
  if exponent = 0 then ofMantissa fraction (-1074) false
  else ofMantissa (twoTo 52 + fraction) ((exponent : Int) - 1075) (fraction == 0 && exponent != 1)

/-- Whether the decimal `digits · 10 ^ exponent` lies in the interval. -/
def contains (i : Interval) (d : Decimal) : Bool :=
  let point := d.digits * tenTo d.exponent.toNat * i.den
  let scale := tenTo (-d.exponent).toNat
  if i.closed then i.low * scale ≤ point && point ≤ i.high * scale
  else i.low * scale < point && point < i.high * scale

/-- The power of ten just above the number: it lies in `[10 ^ (k - 1), 10 ^ k)`. -/
def magnitude (i : Interval) : Int :=
  if i.den ≤ i.value then (Nat.toDigits 10 (i.value / i.den)).length
  -- Below one the reciprocal is measured, less one so that powers of ten come out right.
  else 1 - (Nat.toDigits 10 ((i.den + i.value - 1) / i.value - 1)).length

/-- The decimal with the last digit at `exponent` that is nearest to the number among the two
neighbours of the number that lie in the interval, if one of them does. -/
def nearestAt (i : Interval) (tie : Tie) (exponent : Int) : Option Decimal :=
  let num := i.value * tenTo (-exponent).toNat
  let den := i.den * tenTo exponent.toNat
  let below : Decimal := ⟨num / den, exponent⟩
  let above : Decimal := ⟨num / den + 1, exponent⟩
  match i.contains below, i.contains above with
  | false, false => none
  | true, false => some below
  | false, true => some above
  | true, true =>
    let rest := 2 * (num % den)
    if rest < den then some below
    else if den < rest then some above
    else match tie with
      | .up => some above
      | .even => if below.digits % 2 = 0 then some below else some above

/-- Seventeen digits tell any two doubles apart, so no double needs more. -/
def maxDigits : Nat := 17

/-- The first of the grids with `count`, `count + 1`, … digits that has a point in the interval. -/
def shortestFrom (i : Interval) (tie : Tie) (count : Nat) : (tries : Nat) → Decimal
  -- Not reached with `maxDigits` tries, because one of those grids has a point in the interval.
  | 0 => ⟨i.value / i.den, 0⟩
  | tries + 1 => (i.nearestAt tie (i.magnitude - count)).getD (i.shortestFrom tie (count + 1) tries)

/-- The decimal with the fewest digits that rounds to the number, and among those the nearest. -/
def shortest (i : Interval) (tie : Tie) : Decimal :=
  i.shortestFrom tie 1 maxDigits

end Interval

end Decimal

end DialectSql
