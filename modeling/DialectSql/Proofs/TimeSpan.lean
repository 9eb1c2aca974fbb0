import Mathlib.Data.List.Basic
import DialectSql.TimeSpan
import DialectSql.Proofs.Document.Text

/-!
# Texts of durations

A duration is written as `[-][d.]hh:mm:ss[.fff]`. A reader for this form finds in the text of every
duration numbers that a clock can show, days and a fraction only if there are any, and together with
the sign exactly as many milliseconds as the duration has. So no two durations have one text.

## Main definitions

* `TimeSpan.Parts` — the numbers in the text of a duration
* `TimeSpan.Parts.ofText?` — the reader for `[-][d.]hh:mm:ss[.fff]`
* `TimeSpan.Parts.millis` — the milliseconds that the numbers stand for

## Main results

* `TimeSpan.Parts.millis_ofMillis` — nothing is lost where milliseconds are split into units
* `TimeSpan.millis_text` — the text of a duration says how long it is, and of no other one
-/

namespace DialectSql

/-! ## Digits -/

namespace Text

/-- A number below one hundred has two digits. -/
theorem exists_padded_two {n : Nat} (h : n < 100) : ∃ a b, (padded 2 n).toList = [a, b] ∧
    [a, b].all Char.isDigit = true ∧ decimalValue [a, b] = n := by
  obtain ⟨a, b, hchars⟩ := List.length_eq_two.mp (length_padded (by decide : 0 < 2) h)
  refine ⟨a, b, hchars, List.all_eq_true.mpr ?_, ?_⟩
  · exact hchars ▸ (isDigits_padded 2 n).isDigit
  · rw [← hchars, decimalValue_padded]

/-- A number below one thousand has three digits. -/
theorem exists_padded_three {n : Nat} (h : n < 1000) : ∃ a b c, (padded 3 n).toList = [a, b, c] ∧
    [a, b, c].all Char.isDigit = true ∧ decimalValue [a, b, c] = n := by
  obtain ⟨a, b, c, hchars⟩ := List.length_eq_three.mp (length_padded (by decide : 0 < 3) h)
  refine ⟨a, b, c, hchars, List.all_eq_true.mpr ?_, ?_⟩
  · exact hchars ▸ (isDigits_padded 3 n).isDigit
  · rw [← hchars, decimalValue_padded]

/-- A number without leading zeros is one that is filled up to no width. -/
theorem natural_eq_padded (n : Nat) : natural n = padded 0 n := by
  simp [natural, padded, Nat.repr]

end Text

namespace TimeSpan

/-! ## The form -/

/-- The numbers in the text of a duration. -/
structure Parts where
  /-- Whether there is a minus sign. -/
  negative : Bool
  /-- The days, if the text has any. -/
  days? : Option Nat
  /-- The hours. -/
  hours : Nat
  /-- The minutes. -/
  minutes : Nat
  /-- The seconds. -/
  seconds : Nat
  /-- The milliseconds, if the text has a fraction. -/
  fraction? : Option Nat
  deriving DecidableEq, Repr

namespace Parts

/-- The number in front of the first point, if there are digits and nothing else in front of it, and
what is left. -/
def readDays (chars : List Char) : Option Nat × List Char :=
  match chars.takeWhile Char.isDigit, chars.dropWhile Char.isDigit with
  | c :: digits, '.' :: rest => (some (Text.decimalValue (c :: digits)), rest)
  | _, _ => (none, chars)

/-- Hours, minutes and seconds, each in two digits, and what is left. -/
def readClock : List Char → Option (Nat × Nat × Nat × List Char)
  | h :: h' :: ':' :: m :: m' :: ':' :: s :: s' :: rest =>
    if [h, h', m, m', s, s'].all Char.isDigit then
      some (Text.decimalValue [h, h'], Text.decimalValue [m, m'], Text.decimalValue [s, s'], rest)
    else none
  | _ => none

/-- Nothing, or a point and three digits. -/
def readFraction : List Char → Option (Option Nat)
  | [] => some none
  | ['.', f, f', f''] =>
    if [f, f', f''].all Char.isDigit then some (some (Text.decimalValue [f, f', f''])) else none
  | _ => none

/-- The form `[d.]hh:mm:ss[.fff]`, behind a minus sign or without. -/
def ofChars? (negative : Bool) (chars : List Char) : Option Parts := do
  let (days?, chars) := readDays chars
  let (hours, minutes, seconds, chars) ← readClock chars
  let fraction? ← readFraction chars
  return { negative, days?, hours, minutes, seconds, fraction? }

/-- The form `[-][d.]hh:mm:ss[.fff]`. -/
def ofText? (text : String) : Option Parts :=
  match text.toList with
  | '-' :: chars => ofChars? true chars
  | chars => ofChars? false chars

/-- Numbers that a clock shows, and optional parts only where they are not zero. -/
structure Proper (p : Parts) : Prop where
  hours_lt : p.hours < 24
  minutes_lt : p.minutes < 60
  seconds_lt : p.seconds < 60
  days_pos : ∀ d ∈ p.days?, 0 < d
  fraction_pos : ∀ f ∈ p.fraction?, 0 < f

/-- The milliseconds that the numbers stand for. The sign is that of the sum. -/
def millis (p : Parts) : Int :=
  let sum : Nat := (((p.days?.getD 0 * 24 + p.hours) * 60 + p.minutes) * 60 + p.seconds) * 1000 +
    p.fraction?.getD 0
  if p.negative then -sum else sum

end Parts

/-! ## Part by part -/

/-- A part that is left out if it is zero. -/
def unlessZero (n : Nat) : Option Nat := if n = 0 then none else some n

@[simp] theorem getD_unlessZero (n : Nat) : (unlessZero n).getD 0 = n := by
  unfold unlessZero
  split
  · next h => exact h.symm
  · rfl

theorem pos_of_mem_unlessZero {n m : Nat} (h : m ∈ unlessZero n) : 0 < m := by
  unfold unlessZero at h
  split at h
  · cases h
  · next hn =>
    cases h
    exact Nat.pos_of_ne_zero hn

/-- A clock shows two digits for each of its numbers. -/
theorem exists_clockText {seconds : Nat} (h : seconds < 86400) : ∃ a a' b b' c c',
    (clockText seconds).toList = [a, a', ':', b, b', ':', c, c'] ∧
      [a, a', b, b', c, c'].all Char.isDigit = true ∧
      Text.decimalValue [a, a'] = seconds / 3600 ∧
      Text.decimalValue [b, b'] = seconds / 60 % 60 ∧ Text.decimalValue [c, c'] = seconds % 60 := by
  obtain ⟨a, a', hhours, hda, hva⟩ := Text.exists_padded_two (n := seconds / 3600) (by omega)
  obtain ⟨b, b', hminutes, hdb, hvb⟩ := Text.exists_padded_two (n := seconds / 60 % 60) (by omega)
  obtain ⟨c, c', hseconds, hdc, hvc⟩ := Text.exists_padded_two (n := seconds % 60) (by omega)
  refine ⟨a, a', b, b', c, c', ?_, ?_, hva, hvb, hvc⟩
  · simp [clockText, hhours, hminutes, hseconds]
  · rw [show [a, a', b, b', c, c'] = [a, a'] ++ ([b, b'] ++ [c, c']) from rfl, List.all_append,
      List.all_append, hda, hdb, hdc]
    rfl

/-- Hours, minutes and seconds are read back in front of anything. -/
theorem readClock_clockText {seconds : Nat} (h : seconds < 86400) (rest : List Char) :
    Parts.readClock ((clockText seconds).toList ++ rest) =
      some (seconds / 3600, seconds / 60 % 60, seconds % 60, rest) := by
  obtain ⟨a, a', b, b', c, c', hchars, hdigits, hhours, hminutes, hseconds⟩ := exists_clockText h
  rw [hchars]
  simp only [List.cons_append, List.nil_append, Parts.readClock, if_pos hdigits, hhours, hminutes,
    hseconds]

/-- The days are read back, whether or not there are any. -/
theorem readDays_clockText (days : Nat) {seconds : Nat} (h : seconds < 86400) (rest : List Char) :
    Parts.readDays ((if days = 0 then "" else Text.natural days ++ ".").toList ++
        ((clockText seconds).toList ++ rest)) =
      (unlessZero days, (clockText seconds).toList ++ rest) := by
  unfold unlessZero
  split
  · -- The first two digits are followed by a colon, so they are no days.
    obtain ⟨a, a', b, b', c, c', hclock, hdigits, -⟩ := exists_clockText h
    simp only [List.all_cons, Bool.and_eq_true] at hdigits
    simp [Parts.readDays, hclock, hdigits]
  · have hdigits : Text.IsDigits (Text.natural days).toList := by
      rw [Text.natural_eq_padded]
      exact Text.isDigits_padded 0 days
    have hvalue : Text.decimalValue (Text.natural days).toList = days := by
      rw [Text.natural_eq_padded, Text.decimalValue_padded]
    simp only [String.toList_append, List.append_assoc, String.reduceToList, List.cons_append,
      List.nil_append]
    generalize (clockText seconds).toList ++ rest = back
    -- The point ends the digits of the days.
    have htake : ((Text.natural days).toList ++ '.' :: back).takeWhile Char.isDigit =
        (Text.natural days).toList := by
      rw [List.takeWhile_append_of_pos hdigits.isDigit]
      simp
    have hdrop : ((Text.natural days).toList ++ '.' :: back).dropWhile Char.isDigit =
        '.' :: back := by
      rw [List.dropWhile_append_of_pos hdigits.isDigit]
      simp
    obtain ⟨c, digits, hc⟩ := List.exists_cons_of_ne_nil hdigits.ne_nil
    rw [Parts.readDays, htake, hdrop]
    rw [hc] at hvalue ⊢
    simp only [hvalue]

/-- A fraction is read back, whether or not there is one. -/
theorem readFraction_padded {fraction : Nat} (h : fraction < 1000) :
    Parts.readFraction (if fraction = 0 then "" else "." ++ Text.padded 3 fraction).toList =
      some (unlessZero fraction) := by
  unfold unlessZero
  split
  · rfl
  · obtain ⟨a, b, c, hchars, hdigits, hvalue⟩ := Text.exists_padded_three h
    simp only [String.toList_append, hchars, String.reduceToList, List.cons_append,
      List.nil_append, Parts.readFraction, if_pos hdigits, hvalue]

/-! ## Durations -/

namespace Parts

/-- The numbers of some milliseconds. -/
def ofMillis (negative : Bool) (millis : Nat) : Parts where
  negative := negative
  days? := unlessZero (millis / 86400000)
  hours := millis / 1000 % 86400 / 3600
  minutes := millis / 1000 % 86400 / 60 % 60
  seconds := millis / 1000 % 86400 % 60
  fraction? := unlessZero (millis % 1000)

theorem proper_ofMillis (negative : Bool) (millis : Nat) : (ofMillis negative millis).Proper where
  hours_lt := by
    have hseconds : millis / 1000 % 86400 < 86400 := Nat.mod_lt _ (by decide)
    exact (Nat.div_lt_iff_lt_mul (by decide)).mpr hseconds
  minutes_lt := Nat.mod_lt _ (by decide)
  seconds_lt := Nat.mod_lt _ (by decide)
  days_pos _ := pos_of_mem_unlessZero
  fraction_pos _ := pos_of_mem_unlessZero

/-- Nothing is lost at the boundaries of the units. -/
theorem millis_ofMillis (negative : Bool) (millis : Nat) :
    (ofMillis negative millis).millis = if negative then -(millis : Int) else millis := by
  have hsum : (((millis / 86400000 * 24 + millis / 1000 % 86400 / 3600) * 60 +
      millis / 1000 % 86400 / 60 % 60) * 60 + millis / 1000 % 86400 % 60) * 1000 +
      millis % 1000 = millis := by
    omega
  simp only [Parts.millis, ofMillis, getD_unlessZero, hsum]

end Parts

/-- What is read in the text of some milliseconds are their numbers. -/
theorem ofChars?_magnitudeText (negative : Bool) (millis : Nat) :
    Parts.ofChars? negative (magnitudeText millis).toList =
      some (Parts.ofMillis negative millis) := by
  have hseconds : millis / 1000 % 86400 < 86400 := Nat.mod_lt _ (by decide)
  have hfraction : millis % 1000 < 1000 := Nat.mod_lt _ (by decide)
  simp only [magnitudeText, String.toList_append, List.append_assoc, Parts.ofChars?,
    readDays_clockText _ hseconds, readClock_clockText hseconds, Option.bind_eq_bind,
    Option.bind_some, readFraction_padded hfraction]
  rfl

/-- The text of some milliseconds begins with a digit. -/
theorem exists_magnitudeText (millis : Nat) :
    ∃ c rest, (magnitudeText millis).toList = c :: rest ∧ c.isDigit = true := by
  have hseconds : millis / 1000 % 86400 < 86400 := Nat.mod_lt _ (by decide)
  obtain ⟨a, a', b, b', c, c', hclock, hdigits, -⟩ := exists_clockText hseconds
  simp only [List.all_cons, Bool.and_eq_true] at hdigits
  simp only [magnitudeText, String.toList_append, List.append_assoc, hclock]
  split
  · exact ⟨a, _, rfl, hdigits.1⟩
  · have hdays := Text.isDigits_padded 0 (millis / 86400000)
    obtain ⟨d, digits, hd⟩ := List.exists_cons_of_ne_nil hdays.ne_nil
    rw [Text.natural_eq_padded, String.toList_append, hd]
    exact ⟨d, _, rfl, hdays.isDigit d (by simp [hd])⟩

/-- What is read in the text of a duration are its sign and its numbers. -/
theorem ofText?_text (t : TimeSpan) : Parts.ofText? t.text =
    some (Parts.ofMillis (decide (t.millis.toInt < 0)) t.millis.toInt.natAbs) := by
  unfold text Parts.ofText?
  by_cases h : t.millis.toInt < 0
  · rw [if_pos h, String.toList_append, decide_eq_true h, ← ofChars?_magnitudeText]
    rfl
  · rw [if_neg h, String.empty_append, decide_eq_false h, ← ofChars?_magnitudeText]
    -- A minus sign is no digit.
    split
    · next hminus =>
      obtain ⟨c, rest, hchars, hc⟩ := exists_magnitudeText t.millis.toInt.natAbs
      rw [hchars, List.cons.injEq] at hminus
      rw [hminus.1] at hc
      cases hc
    · rfl

/-- The text of a duration has the form `[-][d.]hh:mm:ss[.fff]`, with numbers that a clock shows and
with optional parts only where they are not zero. The number of milliseconds that it says is that of
the duration, the lowest one included, and so no other duration has this text. -/
theorem millis_text (t : TimeSpan) :
    (∃ p, Parts.ofText? t.text = some p ∧ p.Proper ∧
      (p.negative = true ↔ t.millis.toInt < 0) ∧ p.millis = t.millis.toInt) ∧
    ∀ u : TimeSpan, u.text = t.text ↔ u = t := by
  have hmillis : ∀ u : TimeSpan,
      (Parts.ofMillis (decide (u.millis.toInt < 0)) u.millis.toInt.natAbs).millis =
        u.millis.toInt := by
    intro u
    rw [Parts.millis_ofMillis]
    split
    · next h => have := of_decide_eq_true h; omega
    · next h => have := of_decide_eq_false (Bool.eq_false_iff.mpr h); omega
  refine ⟨⟨_, ofText?_text t, Parts.proper_ofMillis _ _, decide_eq_true_iff, hmillis t⟩,
    fun u => ?_⟩
  constructor
  · intro h
    -- Both durations are what is read in the one text.
    have hparts := (ofText?_text u).symm.trans ((congrArg Parts.ofText? h).trans (ofText?_text t))
    have hsame : u.millis.toInt = t.millis.toInt := by
      rw [← hmillis u, ← hmillis t, Option.some.inj hparts]
    cases u
    cases t
    exact congrArg TimeSpan.mk (Int64.toInt_inj.mp hsame)
  · rintro rfl
    rfl

-- The lowest number of milliseconds has no counterpart above zero.
example : (TimeSpan.mk Int64.minValue).text = "-106751991167.07:12:55.808" := by decide +kernel

end TimeSpan

end DialectSql
