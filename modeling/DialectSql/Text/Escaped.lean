import DialectSql.Text.Unprintable

/-!
# Quoted texts in messages

A message that cites a text puts it between double quotes and writes quotes, backslashes and
characters without a shape by escapes, so that the cited text is visible as it is.

## Main definitions

* `Text.escapedChar` — one character inside the quotes
* `Text.escaped` — a whole text with its quotes
-/

namespace DialectSql.Text

/-- A character by its hexadecimal number, without leading zeros. -/
def numbered (c : Char) : String :=
  "\\u\x7b" ++ String.ofList (Nat.toDigits 16 c.toNat) ++ "\x7d"

/-- One character of a cited text. -/
def escapedChar (c : Char) : String :=
  match c with
  | '"' => "\\\""
  | '\\' => "\\\\"
  | '\n' => "\\n"
  | '\r' => "\\r"
  | '\t' => "\\t"
  | '\x00' => "\\0"
  | c => if isPrintable c then String.singleton c else numbered c

/-- A text as a message cites it, between double quotes. -/
def escaped (text : String) : String :=
  "\"" ++ String.join (text.toList.map escapedChar) ++ "\""

end DialectSql.Text
