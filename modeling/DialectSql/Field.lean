import DialectSql.Error

/-!
# Fields

References to a column, with or without the symbol of the source that the column belongs to.

## Main definitions

* `Field` — a reference to a column
* `Field.IsColumnName` — the texts that name a column
* `Field.unqualified`, `Field.qualified` — references with a checked column name
-/

namespace DialectSql

/-- A reference to a column. -/
structure Field where
  /-- The name of the column. -/
  name : String
  /-- The symbol of the source that the column belongs to. -/
  source : Option String
  deriving DecidableEq, Repr

namespace Field

/-- A text names a column if it is not empty and holds no `*`. -/
def IsColumnName (name : String) : Prop :=
  name ≠ "" ∧ '*' ∉ name.toList

instance (name : String) : Decidable (IsColumnName name) :=
  inferInstanceAs (Decidable (_ ∧ _))

/-- A reference without a source. -/
def unqualified (name : String) : Except Error Field :=
  if IsColumnName name then .ok ⟨name, none⟩ else .error (.invalidField name)

/-- The same column of another source, or of none. -/
def withSource (f : Field) (source : Option String) : Field :=
  { f with source }

/-- A reference to a column of a source. -/
def qualified (source name : String) : Except Error Field :=
  (unqualified name).map (·.withSource (some source))

end Field

end DialectSql
