import Mathlib.Algebra.GroupWithZero.Nat
import Mathlib.Data.List.TakeWhile
import DialectSql.Calendar
import DialectSql.Guid

/-!
# Texts of datetimes and GUIDs

Documents hold datetimes and GUIDs as texts. The readers find in the text of a value that value: the
numbers of a calendar text are runs of digits whose ends the reader knows by their width or by what
stands behind them, and the hyphens of a GUID stand where its groups of digits end.

## Main results

* `DateTime.ofText?_isoText`, `Guid.ofText?_text` — the readers undo the writers
-/

namespace DialectSql

/-! ## Runs of digits -/

namespace Text

/-- A run of decimal digits. -/
structure IsDigits (chars : List Char) : Prop where
  ne_nil : chars ≠ []
  isDigit : ∀ c ∈ chars, c.isDigit = true

theorem not_isBlank_of_isDigit {c : Char} (h : c.isDigit = true) : isBlank c = false := by
  obtain ⟨h0, h9⟩ : 48 ≤ c.toNat ∧ c.toNat ≤ 57 := by
    simpa [Char.isDigit, UInt32.le_iff_toNat_le] using h
  rw [isBlank, List.any_eq_false]
  -- The only range that begins below the digits ends below them too.
  intro range hrange
  simp only [blankRanges, List.mem_cons, List.not_mem_nil, or_false] at hrange
  rcases hrange with rfl | rfl | rfl | rfl | rfl | rfl | rfl | rfl | rfl | rfl <;>
    simp only [Bool.and_eq_true, decide_eq_true_eq] <;> omega

/-- What begins with a character that is no blank is not shortened. -/
theorem skipBlanks_cons {c : Char} (h : isBlank c = false) (chars : List Char) :
    skipBlanks (c :: chars) = c :: chars := by
  simp [skipBlanks, h]

theorem IsDigits.skipBlanks_append {digits : List Char} (h : IsDigits digits) (rest : List Char) :
    skipBlanks (digits ++ rest) = digits ++ rest := by
  obtain ⟨c, digits, rfl⟩ := List.exists_cons_of_ne_nil h.ne_nil
  exact skipBlanks_cons (not_isBlank_of_isDigit (h.isDigit c (by simp))) _

theorem toList_padded (width n : Nat) : (padded width n).toList =
    List.replicate (width - (Nat.toDigits 10 n).length) '0' ++ Nat.toDigits 10 n := by
  simp [padded]

theorem isDigits_padded (width n : Nat) : IsDigits (padded width n).toList where
  ne_nil := by simp [toList_padded, Nat.toDigits_ne_nil]
  isDigit c h := by
    rw [toList_padded, List.mem_append] at h
    rcases h with h | h
    · obtain rfl := List.eq_of_mem_replicate h
      rfl
    · exact Nat.isDigit_of_mem_toDigits (by decide) (by decide) h

theorem decimalValue_padded (width n : Nat) : decimalValue (padded width n).toList = n := by
  rw [toList_padded, decimalValue, Nat.ofDigitChars_append, Nat.ofDigitChars_replicate_zero,
    Nat.mul_zero, Nat.ofDigitChars_ten_toDigits]

/-- A number that fits into a width is written in that width. -/
theorem length_padded {width n : Nat} (hwidth : 0 < width) (hn : n < 10 ^ width) :
    (padded width n).toList.length = width := by
  have hle := (Nat.length_toDigits_le_iff (by decide : 1 < 10) hwidth).mpr hn
  rw [toList_padded, List.length_append, List.length_replicate]
  omega

end Text

open Text (IsDigits padded decimalValue)

namespace Calendar

variable {digits rest : List Char}

/-- A run of digits is read to its end, which is where the width is used up or where no digit
follows. -/
theorem readNumber_append {width : Nat} (h : IsDigits digits) (hwidth : digits.length ≤ width)
    (hend : digits.length = width ∨ ∀ c ∈ rest.head?, c.isDigit = false) :
    readNumber width (digits ++ rest) = some (decimalValue digits, rest) := by
  have hrun : ((digits ++ rest).take width).takeWhile Char.isDigit = digits := by
    rw [List.take_append, List.take_of_length_le hwidth,
      List.takeWhile_append_of_pos h.isDigit, List.append_right_eq_self]
    rcases hend with hfull | hhead
    · simp [hfull]
    · cases rest with
      | nil => simp
      | cons c rest =>
        have hc : c.isDigit = false := hhead c rfl
        cases hk : width - digits.length <;> simp [hc]
  simp [readNumber, readDigits, h.skipBlanks_append, hrun, h.ne_nil]

/-- A number written in a width is read back from that width. -/
theorem readNumber_padded {width n : Nat} (hwidth : 0 < width) (hn : n < 10 ^ width)
    (rest : List Char) : readNumber width ((padded width n).toList ++ rest) = some (n, rest) := by
  have hlength := Text.length_padded hwidth hn
  rw [readNumber_append (Text.isDigits_padded width n) hlength.le (.inl hlength),
    Text.decimalValue_padded]

/-- A mark that is no blank is read as such. -/
theorem readMark_cons {mark : Char} (h : Text.isBlank mark = false) (rest : List Char) :
    readMark mark (mark :: rest) = some rest := by
  simp [readMark, Text.skipBlanks_cons h]

/-- The digits of a signed year are all read, since no digit follows them. -/
theorem readNumber_signed {n : Nat} (hrest : ∀ c ∈ rest.head?, c.isDigit = false) :
    let chars := (padded 4 n).toList ++ rest
    chars.head?.any Char.isDigit = true ∧ readNumber chars.length chars = some (n, rest) := by
  intro chars
  have hdigits := Text.isDigits_padded 4 n
  refine ⟨?_, ?_⟩
  · obtain ⟨c, digits, hc⟩ := List.exists_cons_of_ne_nil hdigits.ne_nil
    simp [chars, hc, hdigits.isDigit c (by simp [hc])]
  · rw [readNumber_append hdigits (by simp [chars]) (.inr hrest), Text.decimalValue_padded]

theorem readYear_yearText (year : Int) (hrest : ∀ c ∈ rest.head?, c.isDigit = false) :
    readYear ((yearText year).toList ++ rest) = some (year, rest) := by
  obtain ⟨hhead, hnumber⟩ := readNumber_signed (n := year.natAbs) hrest
  unfold yearText
  split
  · next h =>
    -- Four digits, and no sign in front of them.
    have hdigits := Text.isDigits_padded 4 year.natAbs
    have hread := readNumber_padded (by decide : 0 < 4) (by omega : year.natAbs < 10 ^ 4) rest
    have hyear : (year.natAbs : Int) = year := by omega
    obtain ⟨c, digits, hc⟩ := List.exists_cons_of_ne_nil hdigits.ne_nil
    have hdigit : c.isDigit = true := hdigits.isDigit c (by simp [hc])
    unfold readYear
    rw [hdigits.skipBlanks_append]
    rw [hc] at hread ⊢
    split
    · next heq =>
      obtain ⟨rfl, -⟩ := List.cons.inj heq
      cases hdigit
    · next heq =>
      obtain ⟨rfl, -⟩ := List.cons.inj heq
      cases hdigit
    · simp only [hread, Option.map_some, hyear]
  · rw [String.toList_append, List.append_assoc]
    split
    · have hyear : -(year.natAbs : Int) = year := by omega
      simp only [readYear, String.reduceToList, List.cons_append, List.nil_append,
        Text.skipBlanks_cons (show Text.isBlank '-' = false by decide), hhead, hnumber,
        if_true, Option.map_some, hyear]
    · have hyear : (year.natAbs : Int) = year := by omega
      simp only [readYear, String.reduceToList, List.cons_append, List.nil_append,
        Text.skipBlanks_cons (show Text.isBlank '+' = false by decide), hhead, hnumber,
        if_true, Option.map_some, hyear]

theorem ofNumbers?_date (d : Date) : Date.ofNumbers? d.year d.month d.day = some d := by
  simp [Date.ofNumbers?, d.year_mem, d.month_mem, d.day_mem]

theorem ofNumbers?_time (t : TimeOfDay) :
    TimeOfDay.ofNumbers? t.hour t.minute t.second t.nanosecond = some t := by
  simp [TimeOfDay.ofNumbers?, t.hour_lt, t.minute_lt, t.second_le, t.nanosecond_lt]

/-- The text of a date is read as that date. -/
theorem readDate_text (d : Date) (rest : List Char) :
    readDate (d.text.toList ++ rest) = some (d, rest) := by
  have hmonth : d.month < 10 ^ 2 := by have := d.month_mem; omega
  have hday : d.day < 10 ^ 2 := by
    have hlast : daysInMonth d.year d.month ≤ 31 := by
      unfold daysInMonth
      split
      · split <;> decide
      all_goals decide
    have := d.day_mem
    omega
  have hmark : Text.isBlank '-' = false := by decide
  simp only [Date.text, String.toList_append, List.append_assoc, String.reduceToList,
    List.cons_append, List.nil_append]
  rw [readDate, readYear_yearText _ (by simp [Char.isDigit])]
  simp only [Option.bind_eq_bind, Option.bind_some, readMark_cons hmark,
    readNumber_padded (by decide : 0 < 2) hmonth, readNumber_padded (by decide : 0 < 2) hday,
    ofNumbers?_date]
  rfl

/-- Digits behind the point are read as the number of nanoseconds that they stand for. -/
theorem readFraction_padded {width n : Nat} (hpos : 0 < width) (hwidth : width ≤ 9)
    (hn : n < 10 ^ width) :
    readFraction ("." ++ padded width n).toList = some (n * 10 ^ (9 - width), []) := by
  have hdigits := Text.isDigits_padded width n
  have hlength := Text.length_padded hpos hn
  have hrun : ((padded width n).toList.take 9).takeWhile Char.isDigit =
      (padded width n).toList := by
    rw [List.take_of_length_le (by omega)]
    exact List.takeWhile_eq_self_iff.mpr hdigits.isDigit
  simp only [String.toList_append, String.reduceToList, List.cons_append, List.nil_append,
    readFraction]
  have hrest : (padded width n).toList.drop width = [] := List.drop_of_length_le hlength.le
  simp [hrun, hdigits.ne_nil, Text.decimalValue_padded, hlength, hrest]

/-- The fraction of a time of day is read to the nanosecond. -/
theorem readFraction_fractionText (t : TimeOfDay) :
    readFraction t.fractionText.toList = some (t.nanosecond, []) := by
  have hlt := t.nanosecond_lt
  unfold TimeOfDay.fractionText
  split
  · next h => simp [readFraction, h]
  · split
    · next h =>
      have hexact : t.nanosecond / 1000000 * 10 ^ (9 - 3) = t.nanosecond := by omega
      rw [readFraction_padded (by decide) (by decide) (by omega), hexact]
    · split
      · next h =>
        have hexact : t.nanosecond / 1000 * 10 ^ (9 - 6) = t.nanosecond := by omega
        rw [readFraction_padded (by decide) (by decide) (by omega), hexact]
      · rw [readFraction_padded (by decide) (by decide) (by omega), Nat.sub_self, Nat.pow_zero,
          Nat.mul_one]

/-- The text of a time of day is read as that time. -/
theorem readTime_text (t : TimeOfDay) :
    readTime (t.secondsText.toList ++ t.fractionText.toList) = some (t, []) := by
  have hhour : t.hour < 10 ^ 2 := by have := t.hour_lt; omega
  have hminute : t.minute < 10 ^ 2 := by have := t.minute_lt; omega
  have hsecond : t.second < 10 ^ 2 := by have := t.second_le; omega
  have hmark : Text.isBlank ':' = false := by decide
  simp only [TimeOfDay.secondsText, String.toList_append, List.append_assoc, String.reduceToList,
    List.cons_append, List.nil_append]
  simp only [readTime, Option.bind_eq_bind, Option.bind_some, readMark_cons hmark,
    readNumber_padded (by decide : 0 < 2) hhour, readNumber_padded (by decide : 0 < 2) hminute,
    readNumber_padded (by decide : 0 < 2) hsecond, readFraction_fractionText, ofNumbers?_time]
  rfl

end Calendar

/-- The ISO text of a datetime is read as that datetime. -/
theorem DateTime.ofText?_isoText (t : DateTime) : ofText? t.isoText = some t := by
  have hmark : Text.isBlank 'T' = false := by decide
  simp only [ofText?, isoText, exactText, String.toList_append, List.append_assoc,
    Calendar.readDate_text, String.reduceToList, List.cons_append, List.nil_append,
    Option.bind_eq_bind, Option.bind_some, Calendar.readMark_cons hmark, Calendar.readTime_text]
  rfl

/-! ## GUIDs -/

namespace Text

/-- The value of a hexadecimal digit is read back. -/
theorem hexDigitValue?_digitChar : ∀ {d : Nat}, d < 16 → hexDigitValue? d.digitChar = some d := by
  decide

theorem length_hexDigits (width n : Nat) : (hexDigits width n).length = width := by
  induction width with
  | zero => rfl
  | succ width ih => rw [hexDigits, List.length_cons, ih]

/-- Digits behind a value make a value that ends in their number. -/
theorem foldlM_hexDigits (n : Nat) : ∀ (width value : Nat),
    (hexDigits width n).foldlM (fun value c => (hexDigitValue? c).map (16 * value + ·)) value =
      some (16 ^ width * value + n % 16 ^ width)
  | 0, value => by simp [hexDigits, Nat.mod_one]
  | width + 1, value => by
    have hdigit : n / 16 ^ width % 16 < 16 := Nat.mod_lt _ (by decide)
    have hsplit : n % 16 ^ (width + 1) = n % 16 ^ width + 16 ^ width * (n / 16 ^ width % 16) := by
      rw [Nat.pow_succ, Nat.mod_mul]
    rw [hexDigits, List.foldlM_cons, Nat.pow_eq, hexDigitValue?_digitChar hdigit]
    simp only [Option.map_some, Option.bind_eq_bind, Option.bind_some]
    rw [foldlM_hexDigits n width, hsplit, Nat.pow_succ, Nat.mul_add, Nat.mul_assoc]
    congr 1
    omega

theorem hexValue?_hexDigits (width n : Nat) :
    hexValue? (hexDigits width n) = some (n % 16 ^ width) := by
  rw [hexValue?, foldlM_hexDigits, Nat.mul_zero, Nat.zero_add]

end Text

namespace Guid

/-- Hyphens that were put between groups are found there again. -/
theorem unhyphenate?_hyphenate {lengths : List Nat} {digits : List Char}
    (h : lengths.sum ≤ digits.length) :
    unhyphenate? lengths (hyphenate lengths digits) = some digits := by
  induction lengths generalizing digits with
  | nil => rfl
  | cons n lengths ih =>
    rw [List.sum_cons] at h
    have htake : (digits.take n).length = n := by rw [List.length_take]; omega
    have hrest : lengths.sum ≤ (digits.drop n).length := by rw [List.length_drop]; omega
    rw [hyphenate, unhyphenate?, List.drop_left' htake, List.take_left' htake]
    simp only [ih hrest, Option.map_some, List.take_append_drop]

theorem length_hyphenate {lengths : List Nat} {digits : List Char}
    (h : lengths.sum ≤ digits.length) :
    (hyphenate lengths digits).length = digits.length + lengths.length := by
  induction lengths generalizing digits with
  | nil => rfl
  | cons n lengths ih =>
    rw [List.sum_cons] at h
    have hrest : lengths.sum ≤ (digits.drop n).length := by rw [List.length_drop]; omega
    rw [hyphenate, List.length_append, List.length_cons, ih hrest, List.length_take,
      List.length_drop, List.length_cons]
    omega

/-- The text of an identifier begins with a hexadecimal digit, so nothing is unwrapped. -/
theorem unwrapped_text (g : Guid) : unwrapped g.text.toList = g.text.toList := by
  have hhead : ∀ d < 16, Nat.digitChar d ≠ '\x7b' ∧ Nat.digitChar d ≠ 'u' := by decide
  obtain ⟨hbrace, hurn⟩ := hhead (g.bits.toNat / Nat.pow 16 31 % 16) (Nat.mod_lt _ (by decide))
  obtain ⟨rest, htext⟩ : ∃ rest,
      g.text.toList = Nat.digitChar (g.bits.toNat / Nat.pow 16 31 % 16) :: rest := by
    rw [text, String.toList_ofList, digits, Text.hexDigits, groupLengths, hyphenate,
      List.take_succ_cons, List.cons_append]
    exact ⟨_, rfl⟩
  rw [htext, unwrapped]
  · simp [List.isPrefixOf, hurn.symm]
  · exact fun _ heq => hbrace (List.cons.inj heq).1

/-- The text of an identifier is read as that identifier. -/
theorem ofText?_text (g : Guid) : ofText? g.text = some g := by
  have hlength : g.digits.length = 32 := Text.length_hexDigits 32 _
  have hgroups : groupLengths.sum ≤ g.digits.length := by rw [hlength]; decide
  have htext : g.text.toList = hyphenate groupLengths g.digits := String.toList_ofList
  have hlong : g.text.toList.length = 36 := by rw [htext, length_hyphenate hgroups, hlength]; rfl
  have hbits : g.bits.toNat % 16 ^ 32 = g.bits.toNat := Nat.mod_eq_of_lt g.bits.isLt
  rw [ofText?, if_neg (by omega), unwrapped_text, htext, unhyphenate?_hyphenate hgroups,
    Option.bind_some, ofDigits?, if_pos hlength, digits, Text.hexValue?_hexDigits, hbits,
    Option.map_some, BitVec.ofNat_toNat, BitVec.setWidth_eq]

end Guid

end DialectSql
