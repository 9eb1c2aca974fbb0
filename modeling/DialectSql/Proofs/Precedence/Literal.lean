import DialectSql.Proofs.Precedence.Scan
import DialectSql.Proofs.Surface.Literal

/-!
# Lexemes of constants

A literal is a single operand, whatever value it is of, and so is a placeholder. Only a negative
number has an operator: its sign, which binds more tightly than all others.

## Main definitions

* `Term.ofConstant` — the term of a constant in writing

## Main results

* `Value.scans_literal`, `Dialect.scans_parameterName` — literals and placeholders
-/

namespace DialectSql

open Text

/-! ## Terms of constants -/

/-- The term of a constant in writing. -/
def Term.ofConstant (t : String) : Term :=
  match t.toList with
  | '-' :: digits => .unary "-" (.operand (String.ofList digits))
  | _ => .operand t

namespace Term

theorem ofConstant_of_head {t : String} (h : t.toList.head? ≠ some '-') :
    ofConstant t = .operand t := by
  unfold ofConstant
  split
  · next heq => exact absurd (by rw [heq]; rfl) h
  · rfl

theorem ofConstant_minus (t : String) : ofConstant ("-" ++ t) = .unary "-" (.operand t) := by
  have hchars : ("-" ++ t).toList = '-' :: t.toList := String.toList_append
  rw [ofConstant, hchars]
  exact congrArg (fun u => unary "-" (operand u)) String.ofList_toList

/-- A constant is an operand of every operator. -/
theorem le_level_ofConstant (t : String) : 8 ≤ (ofConstant t).level := by
  unfold ofConstant
  split <;> simp [level, unaryLevel]

theorem levelled_ofConstant (t : String) : (ofConstant t).Levelled := by
  unfold ofConstant
  split <;> simp [Levelled, level, unaryLevel]

end Term

/-! ## Literals -/

variable {d : Dialect}

namespace Text

/-- A constant that is a single operand. -/
theorem Joins.scans_constant {t : String} (h : Joins d t.toList) {c : Char} (hc : c ∈ t.toList)
    (hforeign : isForeignChar c = true) (hhead : t.toList.head? ≠ some '-') :
    Scans d t.toList (Term.ofConstant t).lexemes := by
  rw [Term.ofConstant_of_head hhead]
  exact h.scans_of_mem hc hforeign

/-- A text literal. -/
theorem scans_quoteText (d : Dialect) (t : String) :
    Scans d (d.quoteText t).toList (Term.ofConstant (d.quoteText t)).lexemes := by
  have hhead : (d.quoteText t).toList.head? = some '\'' := by
    simp [Dialect.quoteText, enclosed]
  exact (Joins.quoteText d t).scans_constant (List.mem_of_head? hhead) rfl (by simp [hhead])

/-- A number, a date or a name between quotes. -/
theorem scans_quoted (d : Dialect) {t : String}
    (h : t.toList.all (fun c => isPlainChar c || isNumeralChar c) = true) :
    Scans d ("'" ++ t ++ "'").toList (Term.ofConstant ("'" ++ t ++ "'")).lexemes := by
  rw [← Dialect.quoteText_of_not_doubled fun c hc =>
    d.doubledInText_eq_false (List.all_eq_true.mp h c hc)]
  exact scans_quoteText d t

/-- No keyword and no sign has a digit or a point. -/
theorem isForeignChar_of_isDecimalChar {c : Char} (h : isDecimalChar c = true) :
    isForeignChar c = true := by
  rw [isDecimalChar, Bool.or_eq_true, beq_iff_eq] at h
  rw [isForeignChar, Bool.or_eq_true]
  refine h.imp_right ?_
  rintro rfl
  decide

namespace IsDecimal

theorem exists_isForeignChar {t : String} (h : IsDecimal t) :
    ∃ c ∈ t.toList, isForeignChar c = true := by
  obtain ⟨c, hc⟩ := List.exists_mem_of_ne_nil _ h.ne_nil
  exact ⟨c, hc, isForeignChar_of_isDecimalChar (List.all_eq_true.mp h.chars c hc)⟩

/-- A number without a sign. -/
theorem scans {t : String} (h : IsDecimal t) : Scans d t.toList [.operand t] := by
  obtain ⟨c, hc, hforeign⟩ := h.exists_isForeignChar
  have hjoins : Joins d t.toList := .of_isOperandChar fun c hc =>
    isOperandChar_of_class d (p := isDecimalChar) (by decide) (List.all_eq_true.mp h.chars c hc)
  exact hjoins.scans_of_mem hc hforeign

theorem head_ne {t : String} (h : IsDecimal t) : t.toList.head? ≠ some '-' := by
  intro hhead
  have hsign := List.all_eq_true.mp h.chars _ (List.mem_of_head? hhead)
  revert hsign
  decide

/-- A number behind a sign. -/
theorem scans_signed {sign t : String} (hsign : sign = "" ∨ sign = "-") (h : IsDecimal t) :
    Scans d (sign ++ t).toList (Term.ofConstant (sign ++ t)).lexemes := by
  rcases hsign with rfl | rfl
  · rw [String.empty_append, Term.ofConstant_of_head h.head_ne]
    exact h.scans
  · have hminus : Separates d "-".toList [.operator "-"] := fun _ _ => rfl
    rw [Term.ofConstant_minus, String.toList_append]
    exact hminus.settles.append h.scans

end IsDecimal

theorem scans_natural (n : Nat) :
    Scans d (natural n).toList (Term.ofConstant (natural n)).lexemes := by
  have hscans := (isDecimal_natural n).scans_signed (d := d) (.inl rfl)
  rwa [String.empty_append] at hscans

theorem scans_integer (n : Int) :
    Scans d (integer n).toList (Term.ofConstant (integer n)).lexemes := by
  unfold integer
  split
  · exact (isDecimal_natural _).scans_signed (.inr rfl)
  · exact scans_natural _

end Text

theorem scans_floatLiteral (x : Float) :
    Scans d (floatLiteral x).toList (Term.ofConstant (floatLiteral x)).lexemes := by
  unfold floatLiteral
  by_cases hnan : x.isNaN = true
  · rw [if_pos hnan]
    exact scans_quoted d (t := "NaN") rfl
  · rw [if_neg hnan]
    by_cases hinf : x.isInf = true
    · rw [if_pos hinf]
      split
      · exact scans_quoted d (t := "Infinity") rfl
      · exact scans_quoted d (t := "-Infinity") rfl
    · rw [if_neg hinf]
      obtain ⟨sign, t, hsign, ht, heq⟩ :=
        exists_isDecimal_float (by simpa using hnan) (by simpa using hinf)
      rw [heq]
      exact ht.scans_signed hsign

namespace Dialect

/-- The digits of a binary literal. -/
theorem all_isNameChar_quoteBytes (bytes : List UInt8) :
    (String.ofList (bytes.flatMap fun byte =>
      (hexDigits 2 byte.toNat).map Char.toUpper)).toList.all Config.isNameChar = true := by
  rw [String.toList_ofList]
  refine List.all_eq_true.mpr fun c hc => ?_
  obtain ⟨byte, -, hc⟩ := List.mem_flatMap.mp hc
  exact isNameChar_of_mem_hexDigits hc

/-- A binary literal is a number, or a quoted word with a letter in front. -/
theorem scans_quoteBytes (d : Dialect) (bytes : List UInt8) :
    Scans d (d.quoteBytes bytes).toList (Term.ofConstant (d.quoteBytes bytes)).lexemes := by
  have hdigits := all_isNameChar_quoteBytes bytes
  unfold quoteBytes
  dsimp only
  generalize String.ofList
    (bytes.flatMap fun byte => (hexDigits 2 byte.toNat).map Char.toUpper) = digits at hdigits ⊢
  -- Between the quotes stand digits only, none of which is doubled.
  have hquoted : Scans d ("X'" ++ digits ++ "'").toList
      (Term.ofConstant ("X'" ++ digits ++ "'")).lexemes := by
    have htext : d.quoteText digits = "'" ++ digits ++ "'" :=
      quoteText_of_not_doubled fun c hc => d.doubledInText_eq_false (by
        rw [isPlainChar, List.all_eq_true.mp hdigits c hc, Bool.true_or, Bool.true_or])
    have hjoins : Joins d ("X" ++ d.quoteText digits).toList := by
      rw [String.toList_append]
      exact .append (.of_isNameChar rfl) (.quoteText d digits)
    rw [htext, ← String.append_assoc, ← String.append_assoc] at hjoins
    have hquote : '\'' ∈ ("X'" ++ digits ++ "'").toList := by simp
    exact hjoins.scans_constant hquote rfl (by simp)
  cases d with
  | sqlServer =>
    have hword : ("0x" ++ digits).toList.all Config.isNameChar = true := by
      rw [String.toList_append, List.all_append, hdigits]
      rfl
    have hzero : '0' ∈ ("0x" ++ digits).toList := by simp
    exact (Joins.of_isNameChar hword).scans_constant hzero rfl (by simp)
  | mySql | postgreSql | oracle | sqlite | oledb | other => exact hquoted

/-- A placeholder is a word with a digit behind a marker. -/
theorem scans_parameterName (d : Dialect) {base : String}
    (hbase : Config.isParameterBase base = true) (index : Nat) :
    Scans d (d.parameterName base index).toList
      (Term.ofConstant (d.parameterName base index)).lexemes := by
  rw [Config.isParameterBase, Bool.and_eq_true] at hbase
  have hmarker : Joins d [d.parameterMarker] := .of_isOperandChar fun c hc => by
    rw [List.mem_singleton.mp hc]
    exact isOperandChar_of_class d (p := "@:?$".toList.contains) (by decide) (by cases d <;> rfl)
  have hname : Joins d (d.parameterName base index).toList := by
    rw [parameterName, String.toList_append, String.toList_append, String.toList_singleton]
    exact (hmarker.append (.of_isNameChar hbase.2)).append
      (.of_isNameChar (all_isNameChar_natural index))
  -- A digit keeps the word from being the name of an operator.
  obtain ⟨c, hc, hforeign⟩ := (isDecimal_natural index).exists_isForeignChar
  have hmem : c ∈ (d.parameterName base index).toList := by
    rw [parameterName, String.toList_append]
    exact List.mem_append_right _ hc
  refine hname.scans_constant hmem hforeign ?_
  have hmark : d.parameterMarker ≠ '-' := by cases d <;> decide
  simpa [parameterName] using hmark

end Dialect

/-- A literal is scanned as the term of a constant. -/
theorem Value.scans_literal (d : Dialect) (v : Value) :
    Scans d (v.literal d).toList (Term.ofConstant (v.literal d)).lexemes := by
  cases v with
  | null =>
    rw [literal, Term.ofConstant_of_head (by decide)]
    exact scans_word rfl (by decide) rfl
  | bool b =>
    cases b with
    | false => exact scans_natural 0
    | true => exact scans_natural 1
  | int n => exact scans_integer _
  | uint n => exact scans_natural _
  | float x => exact scans_floatLiteral x
  | char c => exact scans_quoteText d _
  | text t => exact scans_quoteText d t
  | dateTime t =>
    refine scans_quoted d (List.all_eq_true.mpr fun c hc => ?_)
    rw [List.all_eq_true.mp (isNumeral_dateTime t) c hc, Bool.or_true]
  | guid g =>
    refine scans_quoted d (List.all_eq_true.mpr fun c hc => ?_)
    rw [Guid.literalText, String.toList_ofList] at hc
    rw [isPlainChar, Dialect.isNameChar_of_mem_hexDigits hc, Bool.true_or, Bool.true_or]
  | timeSpan t =>
    refine scans_quoted d (List.all_eq_true.mpr fun c hc => ?_)
    rw [List.all_eq_true.mp (isNumeral_timeSpan t) c hc, Bool.or_true]
  | member _ number => exact scans_integer _
  | blob bytes => exact d.scans_quoteBytes bytes

end DialectSql
