import DialectSql.Literal
import DialectSql.Proofs.Surface

/-!
# Surfaces of literals

A literal shows no word that begins, orders, limits or combines queries. Numbers show nothing but
digits, texts and dates show nothing at all, and a word with a digit in it is never one of those
words.

## Main definitions

* `Text.isNumeral` — texts of numbers, dates and times
* `Text.IsDecimal` — numbers without a sign

## Main results

* `Text.exists_isDecimal_float` — a finite float is a sign and a decimal
* `Text.frameOf_of_digit`, `Text.frameOf_of_isNumeral` — words with digits are no frame words
* `Value.exists_passes_literal`, `Dialect.exists_passes_parameterName` — literals and placeholders
-/

namespace DialectSql

namespace Text

/-! ## Numerals -/

/-- The characters of numbers, dates and times. -/
def isNumeralChar (c : Char) : Bool := c.isDigit || " +-.:".toList.contains c

/-- Whether a text has nothing but the characters of numbers, dates and times. -/
def isNumeral (t : String) : Bool := t.toList.all isNumeralChar

@[simp] theorem isNumeral_append (t u : String) :
    isNumeral (t ++ u) = (isNumeral t && isNumeral u) := by
  rw [isNumeral, String.toList_append, List.all_append, isNumeral, isNumeral]

/-- Decimal digits are numerals. -/
theorem isNumeralChar_of_mem_toDigits {n : Nat} {c : Char} (h : c ∈ Nat.toDigits 10 n) :
    isNumeralChar c = true := by
  rw [isNumeralChar, Nat.isDigit_of_mem_toDigits (by decide) (by decide) h, Bool.true_or]

/-- Zeros are numerals. -/
theorem isNumeralChar_of_mem_replicate {n : Nat} {c : Char} (h : c ∈ List.replicate n '0') :
    isNumeralChar c = true := by
  rw [List.eq_of_mem_replicate h]
  rfl

@[simp] theorem isNumeral_natural (n : Nat) : isNumeral (natural n) = true := by
  refine List.all_eq_true.mpr fun c hc => ?_
  rw [natural, Nat.toList_repr] at hc
  exact isNumeralChar_of_mem_toDigits hc

@[simp] theorem isNumeral_integer (n : Int) : isNumeral (integer n) = true := by
  unfold integer
  split
  · rw [isNumeral_append, isNumeral_natural]
    rfl
  · exact isNumeral_natural _

@[simp] theorem isNumeral_padded (width n : Nat) : isNumeral (padded width n) = true := by
  refine List.all_eq_true.mpr fun c hc => ?_
  rw [padded, String.toList_ofList, List.mem_append] at hc
  rcases hc with hzero | hdigit
  · exact isNumeralChar_of_mem_replicate hzero
  · exact isNumeralChar_of_mem_toDigits hdigit

theorem isNumeral_yearText (year : Int) : isNumeral (yearText year) = true := by
  unfold yearText
  split
  · exact isNumeral_padded _ _
  · rw [isNumeral_append, isNumeral_padded]
    split <;> rfl

theorem isNumeral_dateTime (t : DateTime) : isNumeral t.literalText = true := by
  simp only [DateTime.literalText, Date.text, TimeOfDay.secondsText, isNumeral_append,
    isNumeral_padded, isNumeral_yearText]
  rfl

theorem isNumeral_timeSpan (t : TimeSpan) : isNumeral t.text = true := by
  have hdays : ∀ n : Nat, isNumeral (if n = 0 then "" else natural n ++ ".") = true := by
    intro n
    split
    · rfl
    · rw [isNumeral_append, isNumeral_natural]
      rfl
  have hfraction : ∀ n : Nat, isNumeral (if n = 0 then "" else "." ++ padded 3 n) = true := by
    intro n
    split
    · rfl
    · rw [isNumeral_append, isNumeral_padded]
      rfl
  have hsign : isNumeral (if t.millis.toInt < 0 then "-" else "") = true := by
    split <;> rfl
  simp only [TimeSpan.text, TimeSpan.magnitudeText, TimeSpan.clockText, isNumeral_append,
    isNumeral_padded, hsign, hdays, hfraction]
  rfl

/-! ## Decimals -/

/-- The characters of decimals without a sign. -/
def isDecimalChar (c : Char) : Bool := c.isDigit || c == '.'

/-- Decimals without a sign. -/
structure IsDecimal (t : String) : Prop where
  ne_nil : t.toList ≠ []
  chars : t.toList.all isDecimalChar = true

theorem isDecimalChar_of_mem_toDigits {n : Nat} {c : Char} (h : c ∈ Nat.toDigits 10 n) :
    isDecimalChar c = true := by
  rw [isDecimalChar, Nat.isDigit_of_mem_toDigits (by decide) (by decide) h, Bool.true_or]

theorem isDecimal_natural (n : Nat) : IsDecimal (natural n) where
  ne_nil := by
    rw [natural, Nat.toList_repr]
    exact Nat.toDigits_ne_nil
  chars := by
    rw [natural, Nat.toList_repr]
    exact List.all_eq_true.mpr fun c => isDecimalChar_of_mem_toDigits

/-- Digits with a point and the zeros that fill the places up to it. -/
theorem isDecimal_pointed {digits : List Char} (h : ∀ c ∈ digits, isDecimalChar c = true)
    (point : Int) : IsDecimal (Decimal.pointed "" digits point) := by
  have hzeros : ∀ n, ∀ c ∈ List.replicate n '0', isDecimalChar c = true := by
    intro n c hc
    rw [List.eq_of_mem_replicate hc]
    rfl
  have hpart : ∀ chars : List Char, (∀ c ∈ chars, isDecimalChar c = true) →
      (String.ofList chars).toList.all isDecimalChar = true := by
    intro chars hchars
    rw [String.toList_ofList]
    exact List.all_eq_true.mpr hchars
  unfold Decimal.pointed
  split
  · have hdigits := hpart (List.replicate (-point).toNat '0' ++ digits) fun c hc =>
      (List.mem_append.mp hc).elim (hzeros _ c) (h c)
    refine ⟨by simp, ?_⟩
    rw [String.toList_append, List.all_append, hdigits]
    rfl
  · split
    · have hdigits := hpart (digits ++ List.replicate (point.toNat - digits.length) '0')
        fun c hc => (List.mem_append.mp hc).elim (h c) (hzeros _ c)
      rw [String.append_empty]
      refine ⟨?_, hdigits⟩
      -- Where no zeros are missing up to the point there are digits.
      rw [String.toList_ofList, ← List.length_pos_iff, List.length_append, List.length_replicate]
      omega
    · have hwhole := hpart (digits.take point.toNat) fun c hc => h c (List.mem_of_mem_take hc)
      have hfraction := hpart (digits.drop point.toNat) fun c hc => h c (List.mem_of_mem_drop hc)
      refine ⟨by simp, ?_⟩
      rw [String.toList_append, String.toList_append, List.all_append, List.all_append, hwhole,
        hfraction]
      rfl

/-- A finite float is written as a decimal behind a sign. -/
theorem exists_isDecimal_float {x : Float} (hnan : x.isNaN = false) (hinf : x.isInf = false) :
    ∃ sign t, (sign = "" ∨ sign = "-") ∧ IsDecimal t ∧ Decimal.plain.render x = sign ++ t := by
  have hsign : (if Decimal.twoTo 63 ≤ x.toBits.toNat then "-" else "") = "" ∨
      (if Decimal.twoTo 63 ≤ x.toBits.toNat then "-" else "") = "-" := by
    split <;> simp
  unfold Decimal.Style.render
  rw [hnan, hinf]
  simp only [Bool.false_eq_true, if_false]
  split
  · exact ⟨_, "0", hsign, ⟨by decide, by decide⟩, rfl⟩
  · refine ⟨_, _, hsign, isDecimal_pointed (fun c hc => ?_) _, rfl⟩
    rw [List.mem_reverse] at hc
    have hdigit := List.mem_reverse.mp ((List.dropWhile_sublist _).subset hc)
    exact isDecimalChar_of_mem_toDigits hdigit

theorem IsDecimal.isNumeral {t : String} (h : IsDecimal t) : Text.isNumeral t = true := by
  refine List.all_eq_true.mpr fun c hc => ?_
  have hdecimal := List.all_eq_true.mp h.chars c hc
  rw [isDecimalChar, Bool.or_eq_true, beq_iff_eq] at hdecimal
  rw [isNumeralChar, Bool.or_eq_true]
  refine hdecimal.imp_right ?_
  rintro rfl
  decide

theorem isNumeral_float {x : Float} (hnan : x.isNaN = false) (hinf : x.isInf = false) :
    isNumeral (Decimal.plain.render x) = true := by
  obtain ⟨sign, t, hsign, ht, heq⟩ := exists_isDecimal_float hnan hinf
  rw [heq, isNumeral_append, ht.isNumeral]
  rcases hsign with rfl | rfl <;> rfl

/-! ## Words with digits -/

/-- No word that begins, orders, limits or combines queries has a digit. -/
theorem not_isDigit_of_mem_frameWords {word : String} (h : word ∈ frameWords) {c : Char}
    (hc : c ∈ word.toList) : c.isDigit = false := by
  have hall : (frameWords.all fun word => word.toList.all (!·.isDigit)) = true := by decide
  simpa using List.all_eq_true.mp (List.all_eq_true.mp hall word h) c hc

/-- An upper-case digit is the digit. -/
theorem toUpper_of_isDigit {c : Char} (h : c.isDigit = true) : c.toUpper = c := by
  simp only [Char.isDigit, Bool.and_eq_true, decide_eq_true_eq] at h
  have hlower : ¬('a'.val ≤ c.val ∧ c.val ≤ 'z'.val) := by
    rintro ⟨hle, -⟩
    exact absurd (UInt32.le_trans hle h.2) (by decide)
  exact dif_neg hlower

/-- Characters each of whose words has a digit have no frame words. -/
theorem frameOf_eq_nil {chars : List Char}
    (h : ∀ word ∈ wordsOf chars, ∃ c ∈ word.toList, c.isDigit = true) : frameOf chars = [] := by
  refine List.filter_eq_nil_iff.mpr fun word hword hframe => ?_
  obtain ⟨c, hc, hdigit⟩ := h word hword
  have hnone := not_isDigit_of_mem_frameWords (List.contains_iff_mem.mp hframe) hc
  rw [hdigit] at hnone
  cases hnone

/-- Numerals have no frame words. -/
theorem frameOf_of_isNumeral {chars : List Char} (h : chars.all isNumeralChar = true) :
    frameOf chars = [] := by
  refine frameOf_eq_nil fun word hword => ?_
  obtain ⟨part, hne, rfl, hpart⟩ := exists_of_mem_wordsOf hword
  obtain ⟨c, rest, rfl⟩ := List.exists_cons_of_ne_nil hne
  obtain ⟨hmem, hname⟩ := hpart c List.mem_cons_self
  have hnumeral : isNumeralChar c = true := List.all_eq_true.mp h c hmem
  have hdigit : c.isDigit = true := by
    rw [isNumeralChar, Bool.or_eq_true] at hnumeral
    -- The other characters of numerals are separators.
    refine hnumeral.resolve_right fun hother => ?_
    have hsigns : " +-.:".toList.all (!Config.isNameChar ·) = true := by decide
    have hnone := List.all_eq_true.mp hsigns c (List.contains_iff_mem.mp hother)
    rw [hname] at hnone
    cases hnone
  refine ⟨c, ?_, hdigit⟩
  rw [String.toList_ofList, List.map_cons, toUpper_of_isDigit hdigit]
  exact List.mem_cons_self

/-- Blanks have no frame words. -/
theorem frameOf_blanks (n : Nat) : frameOf (List.replicate n ' ') = [] := by
  refine frameOf_of_isNumeral (List.all_eq_true.mpr fun c hc => ?_)
  rw [List.eq_of_mem_replicate hc]
  rfl

/-- A word with a digit is no frame word. -/
theorem frameOf_of_digit {chars : List Char} (h : chars.all Config.isNameChar = true) {c : Char}
    (hc : c ∈ chars) (hdigit : c.isDigit = true) : frameOf chars = [] := by
  refine frameOf_eq_nil fun word hword => ?_
  rw [wordsOf_of_all (List.ne_nil_of_mem hc) h, List.mem_singleton] at hword
  refine ⟨c, ?_, hdigit⟩
  rw [hword, String.toList_ofList, ← toUpper_of_isDigit hdigit]
  exact List.mem_map_of_mem hc

end Text

/-! ## Literals -/

namespace Dialect

open Text

/-- A text in which nothing is doubled is its own literal between quotes. -/
theorem quoteText_of_not_doubled {d : Dialect} {t : String}
    (h : ∀ c ∈ t.toList, d.doubledInText c = false) : d.quoteText t = "'" ++ t ++ "'" := by
  have hsame : ∀ chars : List Char, (∀ c ∈ chars, d.doubledInText c = false) →
      doubled d.doubledInText chars = chars := by
    intro chars hchars
    induction chars with
    | nil => rfl
    | cons c chars ih =>
      rw [List.forall_mem_cons] at hchars
      rw [doubled_cons, hchars.1, ih hchars.2]
      rfl
  rw [quoteText, hsame _ h, String.ofList_toList]
  rfl

/-- What stands between the quotes of a text literal is not doubled if it is a number, a date or of
keywords. -/
theorem doubledInText_eq_false (d : Dialect) {c : Char}
    (h : (isPlainChar c || isNumeralChar c) = true) : d.doubledInText c = false := by
  have hother : ∀ e : Char, (isPlainChar e || isNumeralChar e) = false → c ≠ e := by
    rintro e he rfl
    rw [h] at he
    cases he
  cases d <;> simp [doubledInText, hother '\'' (by decide), hother '\\' (by decide)]

/-- Nothing is seen of quoted keywords, numbers and dates but blanks. -/
theorem exists_passes_quoted (d : Dialect) {t : String}
    (h : t.toList.all (fun c => isPlainChar c || isNumeralChar c) = true) :
    ∃ n, Passes d ("'" ++ t ++ "'").toList (List.replicate (n + 1) ' ') := by
  rw [← quoteText_of_not_doubled fun c hc =>
    d.doubledInText_eq_false (List.all_eq_true.mp h c hc)]
  exact ⟨_, Passes.quoteText d t⟩

/-- Of quoted keywords, numbers and dates no frame words are seen. -/
theorem exists_passes_quoted_frame (d : Dialect) {t : String}
    (h : t.toList.all (fun c => isPlainChar c || isNumeralChar c) = true) :
    ∃ seen, Passes d ("'" ++ t ++ "'").toList seen ∧ frameOf seen = [] := by
  obtain ⟨n, hpasses⟩ := d.exists_passes_quoted h
  exact ⟨_, hpasses, frameOf_blanks _⟩

/-- Upper-case hexadecimal digits are letters and digits. -/
theorem isNameChar_of_mem_hexDigits {width n : Nat} {c : Char}
    (h : c ∈ (hexDigits width n).map Char.toUpper) : Config.isNameChar c = true := by
  have hdigits : ∀ k < 16, Config.isNameChar (Nat.digitChar k).toUpper = true := by decide
  induction width with
  | zero => cases h
  | succ width ih =>
    rw [hexDigits, List.map_cons, List.mem_cons] at h
    rcases h with rfl | h
    · exact hdigits _ (Nat.mod_lt _ (by decide))
    · exact ih h

/-- A binary literal is a number, or a quoted word with a letter in front. -/
theorem exists_passes_quoteBytes (d : Dialect) (bytes : List UInt8) :
    ∃ seen, Passes d (d.quoteBytes bytes).toList seen ∧ frameOf seen = [] := by
  unfold quoteBytes
  dsimp only
  generalize hdigits : String.ofList
    (bytes.flatMap fun byte => (hexDigits 2 byte.toNat).map Char.toUpper) = digits
  have hname : ∀ c ∈ digits.toList, Config.isNameChar c = true := by
    intro c hc
    rw [← hdigits, String.toList_ofList, List.mem_flatMap] at hc
    obtain ⟨byte, -, hc⟩ := hc
    exact isNameChar_of_mem_hexDigits hc
  have hquoted : ∃ seen, Passes d ("X'" ++ digits ++ "'").toList seen ∧ frameOf seen = [] := by
    obtain ⟨n, hpasses⟩ := d.exists_passes_quoted (List.all_eq_true.mpr fun c hc => by
      rw [isPlainChar, hname c hc, Bool.true_or, Bool.true_or])
    -- The letter is a word of its own, because the quote behind it is seen as a blank.
    have hletter : Passes d "X".toList ['X'] := .of_isPlain rfl
    have happend := hletter.append hpasses
    rw [← String.toList_append, ← String.append_assoc, ← String.append_assoc] at happend
    refine ⟨_, happend, ?_⟩
    rw [List.replicate_succ, frameOf_append_cons rfl, frameOf_blanks]
    rfl
  cases d with
  | sqlServer =>
    have hword : ("0x" ++ digits).toList.all Config.isNameChar = true := by
      rw [String.toList_append, List.all_append, List.all_eq_true.mpr hname]
      rfl
    have hplain : isPlain ("0x" ++ digits) = true := by
      refine List.all_eq_true.mpr fun c hc => ?_
      rw [isPlainChar, List.all_eq_true.mp hword c hc, Bool.true_or]
    have hzero : '0' ∈ ("0x" ++ digits).toList := by simp
    exact ⟨_, .of_isPlain hplain, frameOf_of_digit hword hzero rfl⟩
  | mySql | postgreSql | oracle | sqlite | oledb | other => exact hquoted

/-- A placeholder is a word with a digit behind a marker. -/
theorem exists_passes_parameterName (d : Dialect) {base : String}
    (hbase : Config.isParameterBase base = true) (index : Nat) :
    ∃ seen, Passes d (d.parameterName base index).toList seen ∧ frameOf seen = [] := by
  have hword : (base ++ natural index).toList.all Config.isNameChar = true := by
    rw [Config.isParameterBase, Bool.and_eq_true] at hbase
    rw [String.toList_append, List.all_append, hbase.2, all_isNameChar_natural, Bool.true_and]
  have hplain : isPlain (base ++ natural index) = true := by
    refine List.all_eq_true.mpr fun c hc => ?_
    rw [isPlainChar, List.all_eq_true.mp hword c hc, Bool.true_or]
  have hmarker : Passes d [d.parameterMarker] [d.parameterMarker] :=
    .of_isCodeChar (by cases d <;> decide)
  -- The word ends in a digit, whatever the base is.
  have hdigits : (natural index).toList ≠ [] := by
    rw [natural, Nat.toList_repr]
    exact Nat.toDigits_ne_nil
  obtain ⟨c, rest, hcons⟩ := List.exists_cons_of_ne_nil hdigits
  have hc : c ∈ (natural index).toList := by
    rw [hcons]
    exact List.mem_cons_self
  have hdigit : c.isDigit = true := by
    rw [natural, Nat.toList_repr] at hc
    exact Nat.isDigit_of_mem_toDigits (by decide) (by decide) hc
  have happend := hmarker.append (.of_isPlain hplain)
  rw [List.singleton_append] at happend
  have hseen : frameOf (d.parameterMarker :: (base ++ natural index).toList) = [] := by
    have hseparator : Config.isNameChar d.parameterMarker = false := by cases d <;> decide
    rw [← List.nil_append (d.parameterMarker :: _), frameOf_append_cons hseparator,
      frameOf_of_digit hword (by simp [hc]) hdigit]
    rfl
  refine ⟨_, ?_, hseen⟩
  rw [parameterName, String.append_assoc, String.toList_append, String.toList_singleton]
  exact happend

end Dialect

open Text

/-- Of a float no frame words are seen. -/
theorem exists_passes_floatLiteral (d : Dialect) (x : Float) :
    ∃ seen, Passes d (floatLiteral x).toList seen ∧ frameOf seen = [] := by
  unfold floatLiteral
  -- What is no number is written as a word between quotes.
  by_cases hnan : x.isNaN = true
  · rw [if_pos hnan]
    exact d.exists_passes_quoted_frame (t := "NaN") rfl
  · rw [if_neg hnan]
    by_cases hinf : x.isInf = true
    · rw [if_pos hinf]
      split
      · exact d.exists_passes_quoted_frame (t := "Infinity") rfl
      · exact d.exists_passes_quoted_frame (t := "-Infinity") rfl
    · rw [if_neg hinf]
      have hnumeral := isNumeral_float (by simpa using hnan) (by simpa using hinf)
      have hcode : (Decimal.plain.render x).toList.all (isCodeChar d) = true :=
        List.all_eq_true.mpr fun c hc =>
          isCodeChar_of_class d (by decide) (List.all_eq_true.mp hnumeral c hc)
      exact ⟨_, .of_isCodeChar hcode, frameOf_of_isNumeral hnumeral⟩

/-- Of a literal no frame words are seen. -/
theorem Value.exists_passes_literal (d : Dialect) (v : Value) :
    ∃ seen, Passes d (v.literal d).toList seen ∧ frameOf seen = [] := by
  have hword : ∀ t : String, isPlain t = true → isInterior t = true →
      ∃ seen, Passes d t.toList seen ∧ frameOf seen = [] :=
    fun t hplain hinterior => ⟨_, .of_isPlain hplain, frameOf_of_isInterior hinterior⟩
  have hinteger : ∀ n : Int, ∃ seen, Passes d (integer n).toList seen ∧ frameOf seen = [] :=
    fun n => ⟨_, .of_isPlain (isPlain_integer n), frameOf_of_isNumeral (isNumeral_integer n)⟩
  have hnumeral : ∀ {t : String}, isNumeral t = true →
      ∃ seen, Passes d ("'" ++ t ++ "'").toList seen ∧ frameOf seen = [] := fun ht =>
    d.exists_passes_quoted_frame (List.all_eq_true.mpr fun c hc => by
      rw [List.all_eq_true.mp ht c hc, Bool.or_true])
  have htext : ∀ t : String, ∃ seen, Passes d (d.quoteText t).toList seen ∧ frameOf seen = [] :=
    fun t => ⟨_, Passes.quoteText d t, frameOf_blanks _⟩
  cases v with
  | null => exact hword "NULL" rfl rfl
  | bool b =>
    cases b with
    | false => exact hword "0" rfl rfl
    | true => exact hword "1" rfl rfl
  | int n => exact hinteger _
  | uint n => exact ⟨_, .of_isPlain (isPlain_natural _), frameOf_of_isNumeral (isNumeral_natural _)⟩
  | float x => exact exists_passes_floatLiteral d x
  | char c => exact htext _
  | text t => exact htext t
  | dateTime t => exact hnumeral (isNumeral_dateTime t)
  | guid g =>
    refine d.exists_passes_quoted_frame (List.all_eq_true.mpr fun c hc => ?_)
    rw [Guid.literalText, String.toList_ofList] at hc
    rw [isPlainChar, Dialect.isNameChar_of_mem_hexDigits hc, Bool.true_or, Bool.true_or]
  | timeSpan t => exact hnumeral (isNumeral_timeSpan t)
  | member _ number => exact hinteger _
  | blob bytes => exact d.exists_passes_quoteBytes bytes

end DialectSql
