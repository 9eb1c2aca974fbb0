import DialectSql.Text.Blank
import DialectSql.Text.Digits

/-!
# Dates and times

Dates of the proleptic Gregorian calendar and times of day without a zone, their order, and their
ISO 8601 text. A minute may end in a leap second, second 60.

## Main definitions

* `Date`, `TimeOfDay`, `DateTime` — calendar values that exist, by construction
* `DateTime.isoText` — `YYYY-MM-DDThh:mm:ss` with as much of the fraction as the value has
* `DateTime.literalText` — `YYYY-MM-DD hh:mm:ss`, the form of SQL literals
* `DateTime.ofText?`, `Date.ofText?` — the readers of ISO text
* `DateTime.le` — chronological order
-/

namespace DialectSql

/-- Whether a year of the proleptic Gregorian calendar has 366 days. -/
def isLeapYear (year : Int) : Bool :=
  year % 4 == 0 && (year % 100 != 0 || year % 400 == 0)

/-- The number of days of a month. -/
def daysInMonth (year : Int) (month : Nat) : Nat :=
  match month with
  | 2 => if isLeapYear year then 29 else 28
  | 4 | 6 | 9 | 11 => 30
  | _ => 31

/-- The first year of the calendar. -/
def firstYear : Int := -262143

/-- The last year of the calendar. -/
def lastYear : Int := 262142

/-- A day of the proleptic Gregorian calendar. -/
structure Date where
  /-- The year, where 0 is the year before 1. -/
  year : Int
  /-- The month, from 1. -/
  month : Nat
  /-- The day of the month, from 1. -/
  day : Nat
  year_mem : firstYear ≤ year ∧ year ≤ lastYear
  month_mem : 1 ≤ month ∧ month ≤ 12
  day_mem : 1 ≤ day ∧ day ≤ daysInMonth year month
  deriving DecidableEq, Repr

/-- A time of day to the nanosecond. -/
structure TimeOfDay where
  /-- The hour, below 24. -/
  hour : Nat
  /-- The minute, below 60. -/
  minute : Nat
  /-- The second; 60 is a leap second. -/
  second : Nat
  /-- The nanoseconds within the second. -/
  nanosecond : Nat
  hour_lt : hour < 24
  minute_lt : minute < 60
  second_le : second ≤ 60
  nanosecond_lt : nanosecond < 1000000000
  deriving DecidableEq, Repr

/-- A date and a time of day, without a zone. -/
structure DateTime where
  /-- The day. -/
  date : Date
  /-- The time of that day. -/
  time : TimeOfDay
  deriving DecidableEq, Repr

/-- The day with these numbers, if the calendar has it. -/
def Date.ofNumbers? (year : Int) (month day : Nat) : Option Date :=
  if hy : firstYear ≤ year ∧ year ≤ lastYear then
    if hm : 1 ≤ month ∧ month ≤ 12 then
      if hd : 1 ≤ day ∧ day ≤ daysInMonth year month then some ⟨year, month, day, hy, hm, hd⟩
      else none
    else none
  else none

/-- The time with these numbers, if there is one. -/
def TimeOfDay.ofNumbers? (hour minute second nanosecond : Nat) : Option TimeOfDay :=
  if h : hour < 24 then
    if m : minute < 60 then
      if s : second ≤ 60 then
        if n : nanosecond < 1000000000 then some ⟨hour, minute, second, nanosecond, h, m, s, n⟩
        else none
      else none
    else none
  else none

/-- The start of a day. -/
def TimeOfDay.midnight : TimeOfDay :=
  ⟨0, 0, 0, 0, by decide, by decide, by decide, by decide⟩

/-- The last whole second of a day without a leap second. -/
def TimeOfDay.lastSecond : TimeOfDay :=
  ⟨23, 59, 59, 0, by decide, by decide, by decide, by decide⟩

/-- The start of the day `date`. -/
def Date.atMidnight (date : Date) : DateTime :=
  ⟨date, .midnight⟩

/-! ## Order -/

/-- Lexicographic order on lists of numbers of one length. -/
def lexLe : List Int → List Int → Bool
  | x :: xs, y :: ys => x < y || (x == y && lexLe xs ys)
  | _, _ => true

/-- The numbers of a date and time, from the most to the least significant. -/
def DateTime.numbers (t : DateTime) : List Int :=
  [t.date.year, t.date.month, t.date.day,
    t.time.hour, t.time.minute, t.time.second, t.time.nanosecond]

/-- Chronological order. A leap second stands after second 59 and before the next minute. -/
def DateTime.le (s t : DateTime) : Bool :=
  lexLe s.numbers t.numbers

/-! ## Text -/

/-- A year: four digits from 0 to 9999, otherwise a sign and at least four digits. -/
def yearText (year : Int) : String :=
  if 0 ≤ year ∧ year ≤ 9999 then Text.padded 4 year.natAbs
  else (if year < 0 then "-" else "+") ++ Text.padded 4 year.natAbs

/-- A date as `YYYY-MM-DD`. -/
def Date.text (d : Date) : String :=
  yearText d.year ++ "-" ++ Text.padded 2 d.month ++ "-" ++ Text.padded 2 d.day

/-- A time of day as `hh:mm:ss`. -/
def TimeOfDay.secondsText (t : TimeOfDay) : String :=
  Text.padded 2 t.hour ++ ":" ++ Text.padded 2 t.minute ++ ":" ++ Text.padded 2 t.second

/-- The fraction of the second in the fewest of 0, 3, 6 or 9 digits that are exact. -/
def TimeOfDay.fractionText (t : TimeOfDay) : String :=
  if t.nanosecond = 0 then ""
  else if t.nanosecond % 1000000 = 0 then "." ++ Text.padded 3 (t.nanosecond / 1000000)
  else if t.nanosecond % 1000 = 0 then "." ++ Text.padded 6 (t.nanosecond / 1000)
  else "." ++ Text.padded 9 t.nanosecond

/-- Date and exact time, with `separator` between them. -/
def DateTime.exactText (separator : String) (t : DateTime) : String :=
  t.date.text ++ separator ++ t.time.secondsText ++ t.time.fractionText

/-- The ISO 8601 text of a date and time, exact to the nanosecond. -/
def DateTime.isoText (t : DateTime) : String :=
  t.exactText "T"

/-- Date and time to the second, as SQL literals write them. -/
def DateTime.literalText (t : DateTime) : String :=
  t.date.text ++ " " ++ t.time.secondsText

/-! ## Reading -/

namespace Calendar

/-- A run of one to `width` decimal digits after optional blanks, and the text after it. -/
def readDigits (width : Nat) (chars : List Char) : Option (List Char × List Char) :=
  let chars := Text.skipBlanks chars
  let digits := (chars.take width).takeWhile Char.isDigit
  if digits.isEmpty then none else some (digits, chars.drop digits.length)

/-- The number of a run of one to `width` digits. -/
def readNumber (width : Nat) (chars : List Char) : Option (Nat × List Char) :=
  (readDigits width chars).map fun (digits, rest) => (Text.decimalValue digits, rest)

/-- A year: up to four digits, or a sign and any number of digits. -/
def readYear (chars : List Char) : Option (Int × List Char) :=
  match Text.skipBlanks chars with
  | '-' :: rest =>
    if rest.head?.any Char.isDigit then
      (readNumber rest.length rest).map fun (n, rest) => (-(n : Int), rest)
    else none
  | '+' :: rest =>
    if rest.head?.any Char.isDigit then
      (readNumber rest.length rest).map fun (n, rest) => ((n : Int), rest)
    else none
  | rest => (readNumber 4 rest).map fun (n, rest) => ((n : Int), rest)

/-- The text after `mark`, which may follow blanks. -/
def readMark (mark : Char) (chars : List Char) : Option (List Char) :=
  match Text.skipBlanks chars with
  | c :: rest => if c = mark then some rest else none
  | [] => none

/-- The nanoseconds of an optional fraction; digits after the ninth are dropped. -/
def readFraction (chars : List Char) : Option (Nat × List Char) :=
  match chars with
  | '.' :: rest =>
    let digits := (rest.take 9).takeWhile Char.isDigit
    if digits.isEmpty then none
    -- A shorter fraction counts larger units than nanoseconds.
    else some (Text.decimalValue digits * Nat.pow 10 (9 - digits.length),
      (rest.drop digits.length).dropWhile Char.isDigit)
  | rest => some (0, rest)

/-- A date `YYYY-MM-DD` at the start of a text. -/
def readDate (chars : List Char) : Option (Date × List Char) := do
  let (year, chars) ← readYear chars
  let chars ← readMark '-' chars
  let (month, chars) ← readNumber 2 chars
  let chars ← readMark '-' chars
  let (day, chars) ← readNumber 2 chars
  let date ← Date.ofNumbers? year month day
  return (date, chars)

/-- A time `hh:mm:ss` with an optional fraction at the start of a text. -/
def readTime (chars : List Char) : Option (TimeOfDay × List Char) := do
  let (hour, chars) ← readNumber 2 chars
  let chars ← readMark ':' chars
  let (minute, chars) ← readNumber 2 chars
  let chars ← readMark ':' chars
  let (second, chars) ← readNumber 2 chars
  let (nanosecond, chars) ← readFraction chars
  let time ← TimeOfDay.ofNumbers? hour minute second nanosecond
  return (time, chars)

/-- Whether nothing but blanks is left of a text. -/
def atEnd (chars : List Char) : Bool :=
  (Text.skipBlanks chars).isEmpty

end Calendar

/-- The date that a text names, if it is one. -/
def Date.ofText? (text : String) : Option Date := do
  let (date, rest) ← Calendar.readDate text.toList
  if Calendar.atEnd rest then some date else none

/-- The date and time that an ISO 8601 text names, if it is one. -/
def DateTime.ofText? (text : String) : Option DateTime := do
  let (date, rest) ← Calendar.readDate text.toList
  let rest ← Calendar.readMark 'T' rest
  let (time, rest) ← Calendar.readTime rest
  if Calendar.atEnd rest then some ⟨date, time⟩ else none

end DialectSql
