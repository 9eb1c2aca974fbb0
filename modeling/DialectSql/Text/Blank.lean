/-!
# Blanks

The characters of the Unicode property `White_Space`, which readers of calendar texts skip.

## Main definitions

* `Text.blankRanges` — the ranges of the property, in increasing order, ends included
* `Text.isBlank` — whether a character has the property
* `Text.skipBlanks` — a text without the blanks at its start
-/

namespace DialectSql.Text

/-- The ranges of white space, in increasing order, ends included. -/
def blankRanges : List (Nat × Nat) :=
  [(0x9, 0xD), (0x20, 0x20), (0x85, 0x85), (0xA0, 0xA0), (0x1680, 0x1680), (0x2000, 0x200A),
   (0x2028, 0x2029), (0x202F, 0x202F), (0x205F, 0x205F), (0x3000, 0x3000)]

/-- Whether a character is white space. -/
def isBlank (c : Char) : Bool :=
  blankRanges.any fun (first, last) => first ≤ c.toNat && c.toNat ≤ last

/-- The text after the blanks at its start. -/
def skipBlanks (chars : List Char) : List Char :=
  chars.dropWhile isBlank

end DialectSql.Text
