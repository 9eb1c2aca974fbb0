import DialectSql.Decimal.Shortest

/-!
# Styles of float text

How a float is written: which decimal is taken at a tie, where positional notation ends, and
whether whole numbers keep a fraction. Both styles of this library write the fewest digits that
read back as the same float.

## Main definitions

* `Decimal.Style` — the decisions of a style
* `Decimal.Style.render` — a float in a style
* `Decimal.plain` — positional throughout, for statements and messages
* `Decimal.document` — as JSON documents write numbers
-/

namespace DialectSql.Decimal

/-- The decisions that fix the text of a finite float. -/
structure Style where
  /-- Which neighbour is taken at a tie. -/
  tie : Tie
  /-- Whether a number whose decimal point stands after `point` digits, counted from the first
  significant one, is written without an exponent. -/
  positional : (point : Int) → Bool
  /-- What follows the digits of a whole number. -/
  wholeSuffix : String
  /-- The text of zero, after the sign. -/
  zero : String

/-- Digits with a decimal point after the first `point` of them; zeros fill the places between. -/
def pointed (wholeSuffix : String) (digits : List Char) (point : Int) : String :=
  if point ≤ 0 then
    "0." ++ String.ofList (List.replicate (-point).toNat '0' ++ digits)
  else if digits.length ≤ point then
    String.ofList (digits ++ List.replicate (point.toNat - digits.length) '0') ++ wholeSuffix
  else
    String.ofList (digits.take point.toNat) ++ "." ++ String.ofList (digits.drop point.toNat)

/-- Digits with a point after the first of them, and the power of ten that restores the number. -/
def scientific (digits : List Char) (point : Int) : String :=
  let exponent := point - 1
  let power := (if exponent < 0 then "e-" else "e") ++ Nat.repr exponent.natAbs
  match digits with
  | first :: second :: rest => String.ofList (first :: '.' :: second :: rest) ++ power
  | digits => String.ofList digits ++ power

/-- The digits of a decimal, without zeros at the end, and the place of its decimal point. -/
def significand (d : Decimal) : List Char × Int :=
  let digits := Nat.toDigits 10 d.digits
  ((digits.reverse.dropWhile (· == '0')).reverse, digits.length + d.exponent)

namespace Style

/-- The text of a positive number from its decimal. -/
def renderDecimal (n : Style) (d : Decimal) : String :=
  let (digits, point) := d.significand
  if n.positional point then pointed n.wholeSuffix digits point else scientific digits point

/-- The text of a float; `NaN`, `inf` and `-inf` if it is not finite. -/
def render (n : Style) (x : Float) : String :=
  if x.isNaN then "NaN"
  else
    let bits := x.toBits.toNat
    let sign := if twoTo 63 ≤ bits then "-" else ""
    let magnitude := bits % twoTo 63
    if x.isInf then sign ++ "inf"
    else if magnitude = 0 then sign ++ n.zero
    else sign ++ n.renderDecimal ((Interval.ofBits magnitude).shortest n.tie)

end Style

/-- Positional at every size, whole numbers without a fraction, a tie goes up. -/
def plain : Style where
  tie := .up
  positional _ := true
  wholeSuffix := ""
  zero := "0"

/-- Whole numbers end in `.0`, numbers from `10 ^ 16` on and below `10 ^ -5` have an exponent, and a
tie goes to the even digit. -/
def document : Style where
  tie := .even
  positional point := -5 < point && point ≤ 16
  wholeSuffix := ".0"
  zero := "0.0"

end DialectSql.Decimal
