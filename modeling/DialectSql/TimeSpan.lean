import DialectSql.Text.Digits

/-!
# Time spans

Signed durations in whole milliseconds.

## Main definitions

* `TimeSpan` — a duration
* `TimeSpan.ofHms`, `TimeSpan.ofSeconds` — durations from other units
* `TimeSpan.text` — `[-][d.]hh:mm:ss[.fff]`
-/

namespace DialectSql

/-- A signed duration in milliseconds. -/
structure TimeSpan where
  /-- The number of milliseconds. -/
  millis : Int64
  deriving DecidableEq, Repr

namespace TimeSpan

/-- The empty duration. -/
def zero : TimeSpan := ⟨0⟩

/-- A duration from hours, minutes and seconds, each of any sign. -/
def ofHms (hours minutes seconds : Int64) : TimeSpan :=
  ⟨((hours * 60 + minutes) * 60 + seconds) * 1000⟩

/-- A duration of whole seconds and further nanoseconds; what is left of a millisecond is cut off
toward zero. -/
def ofSeconds (seconds : Int) (nanoseconds : Nat) : TimeSpan :=
  ⟨Int64.ofInt (Int.tdiv (seconds * 1000000000 + nanoseconds) 1000000)⟩

/-- Hours, minutes and seconds of a number of seconds below one day. -/
def clockText (seconds : Nat) : String :=
  Text.padded 2 (seconds / 3600) ++ ":" ++ Text.padded 2 (seconds / 60 % 60) ++ ":" ++
    Text.padded 2 (seconds % 60)

/-- The text of a number of milliseconds: days only if there are any, a fraction only if the last
second is not whole. -/
def magnitudeText (millis : Nat) : String :=
  let days := millis / 86400000
  let fraction := millis % 1000
  (if days = 0 then "" else Text.natural days ++ ".") ++
    clockText (millis / 1000 % 86400) ++
    (if fraction = 0 then "" else "." ++ Text.padded 3 fraction)

/-- The text of a duration, `[-][d.]hh:mm:ss[.fff]`. -/
def text (t : TimeSpan) : String :=
  (if t.millis.toInt < 0 then "-" else "") ++ magnitudeText t.millis.toInt.natAbs

/-- Shorter before longer; negative durations before positive ones. -/
def compare (s t : TimeSpan) : Ordering :=
  Ord.compare s.millis.toInt t.millis.toInt

end TimeSpan

end DialectSql
