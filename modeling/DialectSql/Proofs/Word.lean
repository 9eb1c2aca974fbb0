import Mathlib.Data.List.Basic
import DialectSql.Config

/-!
# Words

Statements are read word by word: a word is a run of letters, digits and underscores. A text stands
apart from its neighbour if it begins or ends with another character, and then no word runs from one
into the other.

## Main definitions

* `Text.opensApart`, `Text.closesApart` — texts that stand apart from what is in front of them or
  behind them
* `Text.isPlain` — texts without quotes, parentheses and markers
* `Text.words` — the words of a text, in upper case
* `Text.isInterior` — texts that neither begin a query nor order, limit or combine queries
* `Text.isOperator` — texts that stand between operands

## Main results

* `Text.wordsOf_append_cons` — a separator ends the words in front of it
* `Text.natural_injective` — different numbers are different words
-/

namespace DialectSql.Text

/-- Whether some characters begin with one that no word has. -/
def headApart (chars : List Char) : Bool := chars.head?.any (!Config.isNameChar ·)

/-- Whether some characters end with one that no word has. -/
def lastApart (chars : List Char) : Bool := chars.getLast?.any (!Config.isNameChar ·)

/-- Whether a text begins with a character that no word has. -/
def opensApart (t : String) : Bool := headApart t.toList

/-- Whether a text ends with a character that no word has. -/
def closesApart (t : String) : Bool := lastApart t.toList

/-- The characters of keywords, numbers and operators. -/
def isPlainChar (c : Char) : Bool :=
  Config.isNameChar c || " ,.*<>=+-/%&|^#~".toList.contains c

/-- Whether a text has nothing but keywords, numbers and operators. -/
def isPlain (t : String) : Bool := t.toList.all isPlainChar

/-- The words of some characters, in upper case. -/
def wordsOf (chars : List Char) : List String :=
  ((chars.splitOnP (!Config.isNameChar ·)).filter (!·.isEmpty)).map
    fun word => String.ofList (word.map Char.toUpper)

/-- The words of a text, in upper case. -/
def words (t : String) : List String := wordsOf t.toList

/-- The words that begin a query, order or limit its rows, or combine it with another one. -/
def frameWords : List String :=
  ["SELECT", "ORDER", "TOP", "LIMIT", "OFFSET", "FETCH", "ROWNUM", "UNION", "INTERSECT", "EXCEPT",
    "MINUS"]

/-- Whether a text can stand behind the SELECT of a query that is neither ordered nor limited. -/
def isInterior (t : String) : Bool := (words t).all (!frameWords.contains ·)

/-- Whether a text between blanks can stand between two operands. -/
def isOperator (t : String) : Bool :=
  isPlain (" " ++ t ++ " ") && isInterior (" " ++ t ++ " ") && opensApart (" " ++ t ++ " ") &&
    closesApart (" " ++ t ++ " ")

/-! ## Apart -/

/-- Characters that begin apart do so whatever stands behind them. -/
theorem headApart_append {chars : List Char} (h : headApart chars = true) (rest : List Char) :
    headApart (chars ++ rest) = true := by
  cases chars with
  | nil => cases h
  | cons c chars => exact h

/-- Characters that end apart do so whatever stands in front of them. -/
theorem lastApart_append {chars : List Char} (h : lastApart chars = true) (front : List Char) :
    lastApart (front ++ chars) = true := by
  unfold lastApart at h ⊢
  cases hlast : chars.getLast? with
  | none => simp [hlast] at h
  | some c =>
    obtain ⟨init, hinit⟩ := List.getLast?_eq_some_iff.mp hlast
    rw [hlast] at h
    rw [hinit, ← List.append_assoc, List.getLast?_concat]
    exact h

/-- A text that begins with one that stands apart stands apart itself. -/
theorem opensApart_append {t u : String} (h : opensApart t = true) :
    opensApart (t ++ u) = true := by
  rw [opensApart, String.toList_append]
  exact headApart_append h _

/-- A text that ends in one that stands apart stands apart itself. -/
theorem closesApart_append {t u : String} (h : closesApart u = true) :
    closesApart (t ++ u) = true := by
  rw [closesApart, String.toList_append]
  exact lastApart_append h _

/-! ## Keywords, numbers and operators -/

@[simp] theorem isPlain_append (t u : String) : isPlain (t ++ u) = (isPlain t && isPlain u) := by
  rw [isPlain, String.toList_append, List.all_append, isPlain, isPlain]

/-! ## Words -/

/-- A separator ends the words in front of it. -/
theorem wordsOf_append_cons {c : Char} (hc : Config.isNameChar c = false) (front rest : List Char) :
    wordsOf (front ++ c :: rest) = wordsOf front ++ wordsOf rest := by
  have hsplit : (front ++ c :: rest).splitOnP (!Config.isNameChar ·) =
      front.splitOnP (!Config.isNameChar ·) ++ rest.splitOnP (!Config.isNameChar ·) :=
    List.splitOnP_append_cons front rest (by simp [hc])
  simp only [wordsOf, hsplit, List.filter_append, List.map_append]

@[simp] theorem wordsOf_nil : wordsOf [] = [] := rfl

/-- What stands between separators has no separator, and all its characters are from the whole. -/
theorem mem_of_mem_splitOnP {p : Char → Bool} {chars part : List Char} {c : Char}
    (hpart : part ∈ chars.splitOnP p) (hc : c ∈ part) : c ∈ chars ∧ p c = false := by
  induction chars generalizing part with
  | nil =>
    rw [List.splitOnP_nil, List.mem_singleton] at hpart
    subst hpart
    cases hc
  | cons x chars ih =>
    rw [List.splitOnP_cons_eq_if_modifyHead] at hpart
    split at hpart
    · rcases List.mem_cons.mp hpart with rfl | hrest
      · cases hc
      · exact (ih hrest hc).imp_left (List.mem_cons_of_mem x)
    · next hx =>
      -- There is always a first part, and the character goes on its front.
      obtain ⟨first, rest, hsplit⟩ := List.exists_cons_of_ne_nil (List.splitOnP_ne_nil p chars)
      rw [hsplit, List.modifyHead_cons] at hpart
      rw [hsplit] at ih
      rcases List.mem_cons.mp hpart with rfl | hrest
      · rcases List.mem_cons.mp hc with rfl | hc
        · exact ⟨List.mem_cons_self, by simpa using hx⟩
        · exact (ih List.mem_cons_self hc).imp_left (List.mem_cons_of_mem x)
      · exact (ih (List.mem_cons_of_mem first hrest) hc).imp_left (List.mem_cons_of_mem x)

/-- A word is not empty, and its characters are from the whole. -/
theorem exists_of_mem_wordsOf {chars : List Char} {word : String} (h : word ∈ wordsOf chars) :
    ∃ part ≠ [], word = String.ofList (part.map Char.toUpper) ∧
      ∀ c ∈ part, c ∈ chars ∧ Config.isNameChar c = true := by
  obtain ⟨part, hpart, rfl⟩ := List.mem_map.mp h
  obtain ⟨hsplit, hne⟩ := List.mem_filter.mp hpart
  refine ⟨part, by simpa using hne, rfl, fun c hc => ?_⟩
  exact (mem_of_mem_splitOnP hsplit hc).imp_right fun hseparator => by simpa using hseparator

/-- Characters without separators are one word. -/
theorem wordsOf_of_all {chars : List Char} (hne : chars ≠ [])
    (h : chars.all Config.isNameChar = true) :
    wordsOf chars = [String.ofList (chars.map Char.toUpper)] := by
  have hsplit : chars.splitOnP (!Config.isNameChar ·) = [chars] :=
    List.splitOnP_eq_singleton fun c hc => by simp [List.all_eq_true.mp h c hc]
  rw [wordsOf, hsplit]
  simp [hne]

/-- Characters that end apart are read on their own. -/
theorem wordsOf_append_of_lastApart {front : List Char} (h : lastApart front = true)
    (rest : List Char) : wordsOf (front ++ rest) = wordsOf front ++ wordsOf rest := by
  unfold lastApart at h
  cases hlast : front.getLast? with
  | none => simp [hlast] at h
  | some c =>
    have hc : Config.isNameChar c = false := by simpa [hlast] using h
    obtain ⟨init, rfl⟩ := List.getLast?_eq_some_iff.mp hlast
    rw [List.append_assoc, List.singleton_append, wordsOf_append_cons hc, wordsOf_append_cons hc,
      wordsOf_nil, List.append_nil]

/-- Characters that begin apart are read on their own. -/
theorem wordsOf_append_of_headApart {rest : List Char} (h : headApart rest = true)
    (front : List Char) : wordsOf (front ++ rest) = wordsOf front ++ wordsOf rest := by
  cases rest with
  | nil => cases h
  | cons c rest =>
    have hc : Config.isNameChar c = false := by simpa [headApart] using h
    rw [wordsOf_append_cons hc, ← List.nil_append (c :: rest), wordsOf_append_cons hc, wordsOf_nil,
      List.nil_append]

/-- A text that ends apart is read on its own. -/
theorem words_append_of_closesApart {t : String} (h : closesApart t = true) (u : String) :
    words (t ++ u) = words t ++ words u := by
  rw [words, String.toList_append]
  exact wordsOf_append_of_lastApart h _

/-- A text that begins apart is read on its own. -/
theorem words_append_of_opensApart {u : String} (h : opensApart u = true) (t : String) :
    words (t ++ u) = words t ++ words u := by
  rw [words, String.toList_append]
  exact wordsOf_append_of_headApart h _

/-! ## Numbers -/

/-- A number consists of digits. -/
theorem isDigit_of_mem_natural {n : Nat} {c : Char} (hc : c ∈ (natural n).toList) :
    c.isDigit = true := by
  rw [natural, Nat.toList_repr] at hc
  exact Nat.isDigit_of_mem_toDigits (by decide) (by decide) hc

/-- A number has a digit. -/
theorem exists_isDigit_natural (n : Nat) : ∃ c ∈ (natural n).toList, c.isDigit = true := by
  have hne : (natural n).toList ≠ [] := by
    rw [natural, Nat.toList_repr]
    exact Nat.toDigits_ne_nil
  obtain ⟨c, hc⟩ := List.exists_mem_of_ne_nil _ hne
  exact ⟨c, hc, isDigit_of_mem_natural hc⟩

/-- A number has no separators. -/
theorem all_isNameChar_natural (n : Nat) : (natural n).toList.all Config.isNameChar = true := by
  refine List.all_eq_true.mpr fun c hc => ?_
  simp [Config.isNameChar, Char.isAlphanum, isDigit_of_mem_natural hc]

@[simp] theorem isPlain_natural (n : Nat) : isPlain (natural n) = true := by
  refine List.all_eq_true.mpr fun c hc => ?_
  rw [isPlainChar, List.all_eq_true.mp (all_isNameChar_natural n) c hc, Bool.true_or]

@[simp] theorem isPlain_integer (n : Int) : isPlain (integer n) = true := by
  unfold integer
  split
  · rw [isPlain_append, isPlain_natural]
    rfl
  · exact isPlain_natural _

/-- Different numbers have different digits. -/
theorem natural_injective : Function.Injective natural := by
  intro m n h
  have hdigits : Nat.toDigits 10 m = Nat.toDigits 10 n := by
    simpa only [natural, Nat.toList_repr] using congrArg String.toList h
  rw [← Nat.ofDigitChars_ten_toDigits (n := m), hdigits, Nat.ofDigitChars_ten_toDigits]

end DialectSql.Text
