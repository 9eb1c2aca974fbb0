/-!
# Digits

Numbers as text: signed decimals, decimals filled up with zeros to a fixed width, and hexadecimal
digits; and the readers for runs of digits that the calendar, GUID and decimal readers share.

## Main definitions

* `Text.integer` — a signed decimal
* `Text.padded` — a decimal of at least a given width
* `Text.hexDigits` — a number in hexadecimal, at a fixed width
* `Text.decimalValue`, `Text.hexValue?` — the value of a run of digits
-/

namespace DialectSql.Text

/-- The decimal digits of a natural number, without leading zeros. -/
def natural (n : Nat) : String :=
  Nat.repr n

/-- A signed decimal: a minus sign for negative numbers, none otherwise. -/
def integer (n : Int) : String :=
  if n < 0 then "-" ++ natural n.natAbs else natural n.natAbs

/-- The decimal digits of `n`, preceded by zeros up to `width` characters. -/
def padded (width n : Nat) : String :=
  let digits := Nat.toDigits 10 n
  String.ofList (List.replicate (width - digits.length) '0' ++ digits)

/-- The last `width` hexadecimal digits of `n`, most significant first, in lower case. -/
def hexDigits : (width n : Nat) → List Char
  | 0, _ => []
  | width + 1, n => Nat.digitChar (n / Nat.pow 16 width % 16) :: hexDigits width n

/-- The value of a hexadecimal digit of either case. -/
def hexDigitValue? (c : Char) : Option Nat :=
  if c.isDigit then some (c.toNat - '0'.toNat)
  else if 'a' ≤ c ∧ c ≤ 'f' then some (c.toNat - 'a'.toNat + 10)
  else if 'A' ≤ c ∧ c ≤ 'F' then some (c.toNat - 'A'.toNat + 10)
  else none

/-- The value of a run of hexadecimal digits, or nothing if another character is among them. -/
def hexValue? (digits : List Char) : Option Nat :=
  digits.foldlM (fun value c => (hexDigitValue? c).map (16 * value + ·)) 0

/-- The value of a run of decimal digits. -/
def decimalValue (digits : List Char) : Nat :=
  Nat.ofDigitChars 10 digits 0

/-- Lower case for ASCII letters; every other character stays. -/
def asciiLower (text : String) : String :=
  String.ofList (text.toList.map Char.toLower)

end DialectSql.Text
