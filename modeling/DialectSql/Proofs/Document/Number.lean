import DialectSql.Proofs.Document.Token

/-!
# Words of written documents

A word is a number or one of three names. No character of a word that is read ends a word, so that
a word stays whole among other tokens. An integer of 64 bits is read back as it was written.

## Main definitions

* `Json.isNumberChar` — the characters of numbers

## Main results

* `Json.tokens?_of_word?` — a word that is read is one token
* `Json.word?_integer` — integers of 64 bits are read back
-/

namespace DialectSql.Json

variable {chars : List Char} {j : Json}

/-! ## The characters of words -/

/-- The characters of numbers. -/
def isNumberChar (c : Char) : Bool := c.isDigit || ['-', '+', '.', 'e', 'E'].contains c

/-- A run of digits is read up to what follows it. -/
theorem exists_of_digits? {digits rest : List Char} (h : digits? chars = some (digits, rest)) :
    chars = digits ++ rest ∧ ∀ c ∈ digits, isNumberChar c = true := by
  unfold digits? at h
  dsimp only at h
  split at h
  · cases h
  · cases h
    refine ⟨List.takeWhile_append_dropWhile.symm, fun c hc => ?_⟩
    rw [isNumberChar, List.mem_takeWhile_imp hc, Bool.true_or]

theorem isNumberChar_of_exponent? {n : Int} (h : exponent? chars = some n) :
    ∀ c ∈ chars, isNumberChar c = true := by
  unfold exponent? at h
  split at h
  · nofun
  · next mark rest =>
    split at h
    · next hmark =>
      have hmark : isNumberChar mark = true := by rcases hmark with rfl | rfl <;> rfl
      refine List.forall_mem_cons.mpr ⟨hmark, ?_⟩
      dsimp only at h
      split at h
      · next hread =>
        obtain ⟨hrest, hdigits⟩ := exists_of_digits? hread
        rw [List.append_nil] at hrest
        -- Only digits follow the sign of an exponent.
        split at hrest <;> subst hrest
        · exact List.forall_mem_cons.mpr ⟨rfl, hdigits⟩
        · exact List.forall_mem_cons.mpr ⟨rfl, hdigits⟩
        · exact hdigits
      · cases h
    · cases h

theorem isNumberChar_of_unsigned? {negative : Bool} (h : unsigned? negative chars = some j) :
    ∀ c ∈ chars, isNumberChar c = true := by
  simp only [unsigned?, Option.bind_eq_bind, Option.bind_eq_some_iff] at h
  obtain ⟨⟨whole, rest⟩, hread, h⟩ := h
  obtain ⟨rfl, hwhole⟩ := exists_of_digits? hread
  refine List.forall_mem_append.mpr ⟨hwhole, ?_⟩
  split at h
  · cases h
  · dsimp only at h
    split at h
    · nofun
    · next rest =>
      obtain ⟨⟨places, rest⟩, hread, h⟩ := Option.bind_eq_some_iff.mp h
      obtain ⟨exponent, hexponent, -⟩ := Option.bind_eq_some_iff.mp h
      obtain ⟨rfl, hplaces⟩ := exists_of_digits? hread
      exact List.forall_mem_cons.mpr ⟨rfl, List.forall_mem_append.mpr
        ⟨hplaces, isNumberChar_of_exponent? hexponent⟩⟩
    · obtain ⟨exponent, hexponent, -⟩ := Option.bind_eq_some_iff.mp h
      exact isNumberChar_of_exponent? hexponent

theorem isNumberChar_of_number? (h : number? chars = some j) :
    ∀ c ∈ chars, isNumberChar c = true := by
  unfold number? at h
  split at h
  · exact List.forall_mem_cons.mpr ⟨rfl, isNumberChar_of_unsigned? h⟩
  · exact isNumberChar_of_unsigned? h

/-- A number is none of the names. -/
theorem word?_of_number? (h : number? chars = some j) : word? chars = some j := by
  have hchars := isNumberChar_of_number? h
  have hname {name : String} (hname : name.toList.all isNumberChar = false) :
      String.ofList chars ≠ name := by
    rintro rfl
    rw [String.toList_ofList, List.all_eq_false] at hname
    obtain ⟨c, hc, hnot⟩ := hname
    exact hnot (hchars c hc)
  unfold word?
  split
  · next heq => exact absurd heq (hname (by decide))
  · next heq => exact absurd heq (hname (by decide))
  · next heq => exact absurd heq (hname (by decide))
  · exact h

/-- No character of a number ends a word. -/
theorem endsWord_of_isNumberChar {c : Char} (h : isNumberChar c = true) : endsWord c = false := by
  rw [Bool.eq_false_iff]
  intro hends
  simp only [endsWord, isBlank, Bool.or_eq_true, beq_iff_eq] at hends
  rcases hends with ((((rfl | rfl) | rfl) | rfl) | rfl) | hmark
  iterate 5 exact absurd h (by decide)
  -- What is left are the marks.
  unfold mark? at hmark
  split at hmark <;> first | exact absurd h (by decide) | cases hmark

/-- What ends words is in no word that is read. -/
theorem endsWord_of_word? (h : word? chars = some j) : ∀ c ∈ chars, endsWord c = false := by
  have hname {name : String} (heq : String.ofList chars = name)
      (hends : name.toList.any endsWord = false) : ∀ c ∈ chars, endsWord c = false := by
    rw [← heq, String.toList_ofList, List.any_eq_false] at hends
    exact fun c hc => Bool.eq_false_iff.mpr (hends c hc)
  unfold word? at h
  split at h
  · next heq => exact hname heq (by decide)
  · next heq => exact hname heq (by decide)
  · next heq => exact hname heq (by decide)
  · exact fun c hc => endsWord_of_isNumberChar (isNumberChar_of_number? h c hc)

/-- A word that is read is one token. -/
theorem tokens?_of_word? (h : word? chars = some j) : tokens? chars = some [.scalar j] :=
  tokens?_word (endsWord_of_word? h) h

/-! ## Integers -/

/-- The digits of a number begin with a zero only if it is zero. -/
theorem head?_toDigits_ne {n : Nat} (h : 0 < n) : (Nat.toDigits 10 n).head? ≠ some '0' := by
  induction n using Nat.strongRecOn with
  | ind n ih =>
    rcases Nat.lt_or_ge n 10 with hlt | hge
    · rw [Nat.toDigits_of_lt_base hlt, List.head?_cons, ne_eq, Option.some.injEq,
        Nat.digitChar_eq_zero]
      omega
    · have hsome : (Nat.toDigits 10 (n / 10)).head?.isSome = true :=
        List.isSome_head?.mpr Nat.toDigits_ne_nil
      rw [Nat.toDigits_of_base_le (by decide) hge, List.head?_append, Option.or_of_isSome hsome]
      exact ih (n / 10) (by omega) (by omega)

theorem isDigit_of_mem_toDigits {n : Nat} : ∀ c ∈ Nat.toDigits 10 n, c.isDigit = true :=
  fun _ hc => Nat.isDigit_of_mem_toDigits (by decide) (by decide) hc

/-- A natural number of 64 bits is read from its digits. -/
theorem unsigned?_toDigits (negative : Bool) {n : Nat} (hn : n < UInt64.size) :
    unsigned? negative (Nat.toDigits 10 n) = some (integer negative n) := by
  have hdigits : digits? (Nat.toDigits 10 n) = some (Nat.toDigits 10 n, []) := by
    rw [digits?, List.takeWhile_eq_self_iff.mpr isDigit_of_mem_toDigits,
      List.dropWhile_eq_nil_iff.mpr isDigit_of_mem_toDigits]
    simp [Nat.toDigits_ne_nil]
  have hzeros : ¬(1 < (Nat.toDigits 10 n).length ∧ (Nat.toDigits 10 n).head? = some '0') := by
    rintro ⟨hlength, hhead⟩
    rcases Nat.eq_zero_or_pos n with rfl | hpos
    · exact absurd hlength (by decide)
    · exact head?_toDigits_ne hpos hhead
  have hvalue : extend 0 (Nat.toDigits 10 n) = (n, 0) := by
    rw [extend_of_fits (by rwa [Nat.ofDigitChars_ten_toDigits]), Nat.ofDigitChars_ten_toDigits]
  simp [unsigned?, hdigits, hzeros, hvalue]

/-- An integer of 64 bits is read back as it was written. -/
theorem number?_integer {n : Int} (hmin : Int64.minValue.toInt ≤ n) (hmax : n < UInt64.size) :
    number? (Text.integer n).toList = some (int n) := by
  have hsize : n.natAbs < UInt64.size := by
    have hmin : -(2 ^ 63) ≤ n := hmin
    have hmax : n < 2 ^ 64 := hmax
    have hlt : n.natAbs < 2 ^ 64 := by omega
    exact hlt
  rcases Int.lt_or_le n 0 with hneg | hpos
  · have hchars : (Text.integer n).toList = '-' :: Nat.toDigits 10 n.natAbs := by
      rw [Text.integer, if_pos hneg, String.toList_append, Text.natural, Nat.toList_repr]
      rfl
    have hvalue : -(n.natAbs : Int) = n := by omega
    have hfits : ¬(n.natAbs = 0 ∨ -(n.natAbs : Int) < Int64.minValue.toInt) := by omega
    rw [hchars, number?, unsigned?_toDigits true hsize, integer, if_pos rfl, if_neg hfits, hvalue]
  · have hchars : (Text.integer n).toList = Nat.toDigits 10 n.natAbs := by
      rw [Text.integer, if_neg (Int.not_lt.mpr hpos), Text.natural, Nat.toList_repr]
    rw [hchars]
    unfold number?
    split
    · next heq =>
      -- A minus sign is no digit.
      exact absurd (isDigit_of_mem_toDigits '-' (heq ▸ List.mem_cons_self)) (by decide)
    · rw [unsigned?_toDigits false hsize, integer, if_neg Bool.false_ne_true,
        Int.natAbs_of_nonneg hpos]

/-- An integer of 64 bits is one token. -/
theorem word?_integer {n : Int} (hmin : Int64.minValue.toInt ≤ n) (hmax : n < UInt64.size) :
    word? (Text.integer n).toList = some (int n) :=
  word?_of_number? (number?_integer hmin hmax)

end DialectSql.Json
