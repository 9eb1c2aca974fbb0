import DialectSql.Text.Digits

/-!
# GUIDs

128-bit identifiers and their text forms: 32 hexadecimal digits, or the same digits in groups of
8, 4, 4, 4 and 12 between hyphens.

## Main definitions

* `Guid` — an identifier
* `Guid.text` — the hyphenated text in lower case
* `Guid.literalText` — the digits without hyphens in upper case
* `Guid.ofText?` — the reader, for digits of either case
-/

namespace DialectSql

/-- A 128-bit identifier. -/
structure Guid where
  /-- The bits, most significant first in the text. -/
  bits : BitVec 128
  deriving DecidableEq, Repr

namespace Guid

/-- The 32 hexadecimal digits in lower case. -/
def digits (g : Guid) : List Char :=
  Text.hexDigits 32 g.bits.toNat

/-- The lengths of the groups between hyphens, the last group aside. -/
def groupLengths : List Nat := [8, 4, 4, 4]

/-- Digits with a hyphen after each group. -/
def hyphenate : (lengths : List Nat) → List Char → List Char
  | [], digits => digits
  | n :: lengths, digits => digits.take n ++ '-' :: hyphenate lengths (digits.drop n)

/-- The digits of a hyphenated text, if its hyphens stand where they belong. -/
def unhyphenate? : (lengths : List Nat) → List Char → Option (List Char)
  | [], chars => some chars
  | n :: lengths, chars =>
    match chars.drop n with
    | '-' :: rest => (unhyphenate? lengths rest).map (chars.take n ++ ·)
    | _ => none

/-- The hyphenated text in lower case. -/
def text (g : Guid) : String :=
  String.ofList (hyphenate groupLengths g.digits)

/-- The digits without hyphens in upper case, as SQL literals write them. -/
def literalText (g : Guid) : String :=
  String.ofList (g.digits.map Char.toUpper)

/-- The identifier of 32 hexadecimal digits. -/
def ofDigits? (digits : List Char) : Option Guid :=
  if digits.length = 32 then (Text.hexValue? digits).map fun n => ⟨BitVec.ofNat 128 n⟩ else none

/-- A text without the wrapping that a hyphenated identifier may have: braces, or the name space
`urn:uuid:`. -/
def unwrapped (chars : List Char) : List Char :=
  match chars with
  | '\x7b' :: rest => if rest.getLast? = some '\x7d' then rest.dropLast else chars
  | _ => if "urn:uuid:".toList.isPrefixOf chars then chars.drop 9 else chars

/-- The identifier that a text names, if it is one. -/
def ofText? (text : String) : Option Guid :=
  let chars := text.toList
  if chars.length = 32 then ofDigits? chars
  else (unhyphenate? groupLengths (unwrapped chars)).bind ofDigits?

end Guid

end DialectSql
