/-!
# Powers

The powers of the two bases between which floats and their text are converted.

## Main definitions

* `Decimal.twoTo` — a power of two
* `Decimal.tenTo` — a power of ten
-/

namespace DialectSql.Decimal

/-- The power `2 ^ k`. -/
abbrev twoTo (k : Nat) : Nat := Nat.pow 2 k

/-- The power `10 ^ k`. -/
abbrev tenTo (k : Nat) : Nat := Nat.pow 10 k

end DialectSql.Decimal
