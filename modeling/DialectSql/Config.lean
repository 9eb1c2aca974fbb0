import DialectSql.Error

/-!
# Configuration

What the statements of one application share: the names of their parameters and the datetimes that
its columns can hold.

## Main definitions

* `Config` — the settings
* `Config.standard` — the settings in force where nothing else is said
* `Config.validate` — whether statements can be written with the settings
* `Config.inRange` — whether a column can hold a datetime
-/

namespace DialectSql

/-- The settings that the statements of one application share. -/
structure Config where
  /-- What stands between the marker and the number of a parameter. -/
  parameterBase : String
  /-- The earliest datetime that is written. -/
  earliest : DateTime
  /-- The latest datetime that is written. -/
  latest : DateTime
  deriving DecidableEq, Repr

namespace Config

/-- Parameters `p0`, `p1`, …, and the datetimes from 1753 to 9999 in whole seconds. -/
def standard : Config where
  parameterBase := "p"
  earliest := ⟨⟨1753, 1, 1, by decide, by decide, by decide⟩, .midnight⟩
  latest := ⟨⟨9999, 12, 31, by decide, by decide, by decide⟩, .lastSecond⟩

/-- Whether a character may stand in the name of a parameter. -/
def isNameChar (c : Char) : Bool :=
  c.isAlphanum || c == '_'

/-- Whether a text can stand between the marker and the number of a parameter. -/
def isParameterBase (text : String) : Bool :=
  !text.isEmpty && text.toList.all isNameChar

/-- Refuses settings that make no usable statements. -/
def validate (c : Config) : Except Error Unit :=
  if !isParameterBase c.parameterBase then .error (.config (.parameterBase c.parameterBase))
  else if !c.earliest.le c.latest then .error (.config (.invertedRange c.earliest c.latest))
  else .ok ()

/-- Whether a datetime is written as it is; NULL is written for the others. -/
def inRange (c : Config) (t : DateTime) : Bool :=
  c.earliest.le t && t.le c.latest

end Config

end DialectSql
