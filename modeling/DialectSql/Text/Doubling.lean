/-!
# Doubling

Inside a quoted literal a character that could end the literal, or that starts an escape, is written
twice.

## Main definitions

* `Text.doubled` — a text with every character of a class written twice
* `Text.enclosed` — a text between two quote characters

## Main results

* `Text.count_doubled` — what is special occurs twice as often, and nothing else changes its number
-/

namespace DialectSql.Text

/-- Every character for which `special` holds written twice, every other character once. -/
def doubled (special : Char → Bool) (chars : List Char) : List Char :=
  chars.flatMap fun c => if special c then [c, c] else [c]

@[simp] theorem doubled_nil (special : Char → Bool) : doubled special [] = [] := rfl

/-- The first character is doubled or not, whatever follows it. -/
theorem doubled_cons (special : Char → Bool) (c : Char) (chars : List Char) :
    doubled special (c :: chars) =
      (if special c then [c, c] else [c]) ++ doubled special chars :=
  List.flatMap_cons

/-- What is special occurs twice as often as before, and everything else as often. -/
theorem count_doubled (special : Char → Bool) (c : Char) (chars : List Char) :
    (doubled special chars).count c = (if special c then 2 else 1) * chars.count c := by
  induction chars with
  | nil => simp
  | cons d chars ih =>
    rw [doubled_cons, List.count_append, ih, List.count_cons]
    by_cases hc : d = c
    · subst hc
      cases special d <;> simp <;> omega
    · cases special d <;> simp [hc]

/-- `text` between an opening and a closing character. -/
def enclosed (opening closing : Char) (text : String) : String :=
  String.singleton opening ++ text ++ String.singleton closing

end DialectSql.Text
