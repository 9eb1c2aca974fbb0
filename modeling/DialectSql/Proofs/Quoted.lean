import DialectSql.Literal

/-!
# Reading quoted texts

A database ends a quoted text at the first closing character that is not written twice, and takes
the character behind an escape for itself. A text or a character is written as a literal that ends
exactly where it should and is read back as what it was, whatever stands behind it, unless that
begins with another quote.

## Main definitions

* `Text.readQuoted` — what is read behind an opening quote, and what is left
* `Dialect.readText` — a text literal, read by the rule of a dialect

## Main results

* `Text.readQuoted_doubled` — doubled characters are read back one by one
* `Dialect.readText_quoteText_iff` — a quoted text is read back in front of anything but a quote
* `Value.readText_literal` — the literals of texts and characters
-/

namespace DialectSql

namespace Text

/-- What is read behind the opening quote, and what is left behind the closing one: a closing
character that is written twice stands for itself, and so does any character behind an escape. -/
def readQuoted (closing : Char) (escapes : Char → Bool) :
    List Char → Option (List Char × List Char)
  | [] => none
  | [c] => if c = closing then some ([], []) else none
  | c :: e :: chars =>
    if c = closing then
      if e = closing then (readQuoted closing escapes chars).map (Prod.map (closing :: ·) id)
      else some ([], e :: chars)
    else if escapes c then (readQuoted closing escapes chars).map (Prod.map (e :: ·) id)
    else (readQuoted closing escapes (e :: chars)).map (Prod.map (c :: ·) id)

section Reading

variable {closing : Char} {escapes : Char → Bool}

/-- The text ends at a closing character with anything else behind it. -/
theorem readQuoted_closing {rest : List Char} (h : rest.head? ≠ some closing) :
    readQuoted closing escapes (closing :: rest) = some ([], rest) := by
  cases rest with
  | nil => simp [readQuoted]
  | cons e rest =>
    have he : e ≠ closing := fun heq => h (by rw [List.head?_cons, heq])
    simp [readQuoted, he]

/-- A closing character or an escape that is written twice stands for itself. -/
theorem readQuoted_twice {c : Char} (h : (c == closing || escapes c) = true) (chars : List Char) :
    readQuoted closing escapes (c :: c :: chars) =
      (readQuoted closing escapes chars).map (Prod.map (c :: ·) id) := by
  by_cases hc : c = closing
  · subst hc
    simp [readQuoted]
  · have hescapes : escapes c = true := by simpa [hc] using h
    simp [readQuoted, hc, hescapes]

/-- Any other character stands for itself. -/
theorem readQuoted_once {c : Char} (h : (c == closing || escapes c) = false) (chars : List Char) :
    readQuoted closing escapes (c :: chars) =
      (readQuoted closing escapes chars).map (Prod.map (c :: ·) id) := by
  obtain ⟨hc, hescapes⟩ : c ≠ closing ∧ escapes c = false := by simpa using h
  -- The last character of a text that is not closed is the only one without another behind it.
  cases chars with
  | nil => simp [readQuoted, hc]
  | cons e chars => simp [readQuoted, hc, hescapes]

/-- Doubled characters are read back one by one, whatever stands behind them. -/
theorem readQuoted_doubled {special : Char → Bool}
    (h : ∀ c, special c = (c == closing || escapes c)) (chars rest : List Char) :
    readQuoted closing escapes (doubled special chars ++ rest) =
      (readQuoted closing escapes rest).map (Prod.map (chars ++ ·) id) := by
  induction chars with
  | nil =>
    rw [doubled_nil, List.nil_append]
    cases readQuoted closing escapes rest <;> rfl
  | cons c chars ih =>
    -- One character is read, whether it stands there once or twice.
    have hcons : readQuoted closing escapes (doubled special (c :: chars) ++ rest) =
        (readQuoted closing escapes (doubled special chars ++ rest)).map
          (Prod.map (c :: ·) id) := by
      rw [doubled_cons, List.append_assoc]
      by_cases hc : special c = true
      · rw [if_pos hc]
        exact readQuoted_twice (by rw [← h, hc]) _
      · rw [if_neg hc]
        exact readQuoted_once (by rw [← h, Bool.eq_false_iff.mpr hc]) _
    rw [hcons, ih, Option.map_map]
    cases readQuoted closing escapes rest <;> rfl

/-- Doubled characters up to a closing one are read back as they were exactly if nothing behind
them makes the closing character a doubled one. -/
theorem readQuoted_doubled_closing_iff {special : Char → Bool}
    (h : ∀ c, special c = (c == closing || escapes c)) (chars rest : List Char) :
    readQuoted closing escapes (doubled special chars ++ closing :: rest) = some (chars, rest) ↔
      rest.head? ≠ some closing := by
  rw [readQuoted_doubled h]
  constructor
  · intro hread hhead
    obtain ⟨rest, rfl⟩ := List.head?_eq_some_iff.mp hhead
    rw [readQuoted_twice (by simp), Option.map_map, Option.map_eq_some_iff] at hread
    -- The closing character would be read as one more character of the text.
    obtain ⟨⟨more, left⟩, -, heq⟩ := hread
    simp at heq
  · intro hhead
    rw [readQuoted_closing hhead]
    simp

end Reading

end Text

namespace Dialect

/-- The character that escapes the next one in a text literal. -/
def escapesInText : Dialect → Char → Bool
  | mySql, c => c == '\\'
  | _, _ => false

/-- What a literal at the beginning of a text is read as, and what is left behind it. -/
def readText (d : Dialect) : List Char → Option (List Char × List Char)
  | '\'' :: chars => Text.readQuoted '\'' d.escapesInText chars
  | _ => none

/-- What is doubled in a literal is what the database would not take for itself. -/
theorem doubledInText_eq (d : Dialect) (c : Char) :
    d.doubledInText c = (c == '\'' || d.escapesInText c) := by
  cases d <;> simp [doubledInText, escapesInText]

/-- A quoted text is read back, and what stands behind it is left, exactly if that does not begin
with a quote. -/
theorem readText_quoteText_iff (d : Dialect) (s : String) (rest : List Char) :
    d.readText ((d.quoteText s).toList ++ rest) = some (s.toList, rest) ↔
      rest.head? ≠ some '\'' := by
  have hchars : (d.quoteText s).toList ++ rest =
      '\'' :: (Text.doubled d.doubledInText s.toList ++ '\'' :: rest) := by
    simp [quoteText, Text.enclosed]
  rw [hchars]
  exact Text.readQuoted_doubled_closing_iff d.doubledInText_eq s.toList rest

end Dialect

/-- The literals of texts and characters end where they should and are read back as what they were
written for, whatever stands behind them, exactly if that does not begin with a quote. -/
theorem Value.readText_literal (d : Dialect) (rest : List Char) :
    (∀ s : String, d.readText (((Value.text s).literal d).toList ++ rest) = some (s.toList, rest) ↔
      rest.head? ≠ some '\'') ∧
    (∀ c : Char, d.readText (((Value.char c).literal d).toList ++ rest) = some ([c], rest) ↔
      rest.head? ≠ some '\'') := by
  refine ⟨fun s => d.readText_quoteText_iff s rest, fun c => ?_⟩
  rw [Value.literal, ← d.readText_quoteText_iff (String.singleton c) rest, String.toList_singleton]

-- A backslash at the end of the text does not take the closing quote for itself.
example : Dialect.mySql.readText
    (((Value.text "it's\\").literal .mySql).toList ++ " OR 'b'".toList) =
      some ("it's\\".toList, " OR 'b'".toList) := by decide

end DialectSql
