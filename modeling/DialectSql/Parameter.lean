import DialectSql.Value

/-!
# Parameters

Values bound to placeholders, and the supplies that callers draw fresh parameters from.

## Main definitions

* `Parameter` — a placeholder with its value
* `Supply` — where fresh parameters come from
-/

namespace DialectSql

/-- A value bound to a placeholder. -/
structure Parameter where
  /-- The placeholder, as it stands in the statement. -/
  name : String
  /-- The bound value. -/
  value : Value

/-- A source of fresh parameters with a state of type `σ`. The name and the value of a fresh
parameter are overwritten, so that a supply only decides which objects come back to its caller. -/
structure Supply (σ : Type) where
  /-- A fresh parameter and the state after it was taken. -/
  create : σ → Parameter × σ

/-- The supply of parameters without a name and without a value. -/
def Supply.blank : Supply Unit :=
  ⟨fun _ => (⟨"", .null⟩, ())⟩

end DialectSql
