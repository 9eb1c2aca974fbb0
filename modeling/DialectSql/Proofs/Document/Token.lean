import DialectSql.Document.Printer
import DialectSql.Document.Token
import DialectSql.Proofs.Document.Text

/-!
# Tokens of written documents

The text of a document is made of marks, texts between quotes and words. A scan meets these one by
one: a mark ends what stands in front of it, whatever follows. The tokens of a text are therefore
those of its parts, with the marks between them.

## Main definitions

* `Json.Scan.run` — a scan over some characters
* `Json.endsWord` — the characters that end a word

## Main results

* `Json.tokens?_append_mark` — the tokens in front of a mark and behind it
* `Json.tokens?_quoted` — a text between quotes is one token
-/

namespace DialectSql.Json

/-! ## Scanning -/

namespace Scan

/-- A scan over some characters: where it stands behind them, and the tokens that they end. -/
def run : Scan → List Char → Option (Scan × List Token)
  | s, [] => some (s, [])
  | s, c :: chars => do
    let (s, tokens) ← s.step c
    let (s, more) ← run s chars
    return (s, tokens ++ more)

variable {s s' s'' : Scan} {c : Char} {chars : List Char} {tokens more : List Token}

theorem run_cons (hstep : s.step c = some (s', tokens)) (hrun : run s' chars = some (s'', more)) :
    run s (c :: chars) = some (s'', tokens ++ more) := by
  simp [run, hstep, hrun]

theorem run_append {front back : List Char} (hfront : run s front = some (s', tokens))
    (hback : run s' back = some (s'', more)) :
    run s (front ++ back) = some (s'', tokens ++ more) := by
  induction front generalizing s tokens with
  | nil =>
    cases hfront
    exact hback
  | cons c front ih =>
    simp only [run, Option.bind_eq_bind, Option.bind_eq_some_iff] at hfront
    obtain ⟨⟨s₁, first⟩, hstep, ⟨s₂, rest⟩, hrun, h⟩ := hfront
    cases h
    rw [List.cons_append, List.append_assoc]
    exact run_cons hstep (ih hrun)

/-- The reader of tokens keeps those that it has met last first. -/
theorem foldlM_advance (s : Scan) (read : List Token) (chars : List Char) :
    chars.foldlM advance (s, read) =
      (run s chars).map fun (s, tokens) => (s, tokens.reverse ++ read) := by
  induction chars generalizing s read with
  | nil => rfl
  | cons c chars ih =>
    rw [List.foldlM_cons, run, advance]
    cases s.step c with
    | none => rfl
    | some next =>
      simp only [Option.bind_eq_bind, Option.bind_some, Option.pure_def, ih]
      cases run next.1 chars <;> simp

end Scan

theorem tokens?_eq_run (chars : List Char) : tokens? chars = (do
    let (s, tokens) ← Scan.run .between chars
    let last ← s.finish
    return tokens ++ last) := by
  rw [tokens?, Scan.foldlM_advance]
  cases Scan.run .between chars with
  | none => rfl
  | some read =>
    obtain ⟨s, tokens⟩ := read
    simp only [Option.map_some, Option.bind_eq_bind, Option.bind_some, List.append_nil]
    cases s.finish <;> simp

/-! ### Marks -/

/-- A mark ends what stands in front of it. -/
theorem Scan.step_mark {s : Scan} {c : Char} {mark : Token} {last : List Token}
    (hlast : s.finish = some last) (hmark : mark? c = some mark) :
    s.step c = some (.between, last ++ [mark]) := by
  have hstart : startWith c = some (.between, [mark]) := by
    unfold mark? at hmark
    split at hmark <;> cases hmark <;> rfl
  cases s with
  | between =>
    cases hlast
    exact hstart
  | word read =>
    obtain ⟨scalar, hscalar, rfl⟩ := Option.map_eq_some_iff.mp hlast
    simp [step, hmark, hscalar, hstart]
  | text _ | escape _ | numbered _ _ => cases hlast

/-- The tokens of what stands in front of a mark and of what stands behind it. -/
theorem tokens?_append_mark {front back : List Char} {c : Char} {mark : Token}
    {tokens more : List Token} (hfront : tokens? front = some tokens)
    (hmark : mark? c = some mark) (hback : tokens? back = some more) :
    tokens? (front ++ c :: back) = some (tokens ++ mark :: more) := by
  simp only [tokens?_eq_run, Option.bind_eq_bind, Option.bind_eq_some_iff, Prod.exists,
    Option.pure_def, Option.some.injEq] at hfront hback ⊢
  obtain ⟨s, read, hrun, last, hlast, rfl⟩ := hfront
  obtain ⟨s', read', hrun', last', hlast', rfl⟩ := hback
  refine ⟨s', read ++ (last ++ [mark] ++ read'), ?_, last', hlast', by simp⟩
  exact Scan.run_append hrun (Scan.run_cons (Scan.step_mark hlast hmark) hrun')

/-! ### Words -/

/-- Whether a character ends the word in front of it. -/
def endsWord (c : Char) : Bool := isBlank c || c == '"' || (mark? c).isSome

/-- A word is kept until it ends. -/
theorem Scan.run_word {chars : List Char} (h : ∀ c ∈ chars, endsWord c = false)
    (read : List Char) : run (.word read) chars = some (.word (chars.reverse ++ read), []) := by
  induction chars generalizing read with
  | nil => rfl
  | cons c chars ih =>
    rw [List.forall_mem_cons] at h
    have hstep : step (.word read) c = some (.word (c :: read), []) :=
      if_neg (Bool.not_eq_true _ ▸ h.1)
    rw [run_cons hstep (ih h.2 (c :: read))]
    simp

/-- A word that is read is one token if it holds nothing that ends words. -/
theorem tokens?_word {chars : List Char} {scalar : Json} (h : ∀ c ∈ chars, endsWord c = false)
    (hword : word? chars = some scalar) : tokens? chars = some [.scalar scalar] := by
  cases chars with
  | nil => cases hword
  | cons c chars =>
    rw [List.forall_mem_cons] at h
    have hstart : Scan.step .between c = some (.word [c], []) := by
      have hends := h.1
      simp only [endsWord, Bool.or_eq_false_iff, beq_eq_false_iff_ne, Option.isSome_eq_false_iff,
        Option.isNone_iff_eq_none] at hends
      simp [Scan.step, Scan.startWith, hends]
    rw [tokens?_eq_run, Scan.run_cons hstart (Scan.run_word h.2 [c])]
    simp [Scan.finish, hword]

/-! ### Texts between quotes -/

/-- The characters of a text are read back from their numbers, of which none is that of a half. -/
theorem charactersOnto_map_toNat (read chars : List Char) :
    charactersOnto (read.map Char.toNat) chars = some (read.reverse ++ chars) := by
  induction read generalizing chars with
  | nil => rfl
  | cons c read ih =>
    have hvalid : c.toNat < 0xD800 ∨ 0xDFFF < c.toNat ∧ c.toNat < 0x110000 := c.valid
    have hfirst : isFirstHalf c.toNat = false := by
      rw [isFirstHalf, Bool.and_eq_false_iff, decide_eq_false_iff_not, decide_eq_false_iff_not]
      omega
    have hsecond : isSecondHalf c.toNat = false := by
      rw [isSecondHalf, Bool.and_eq_false_iff, decide_eq_false_iff_not, decide_eq_false_iff_not]
      omega
    rw [List.map_cons, charactersOnto.eq_def]
    simp [hfirst, hsecond, ih]

namespace Scan

/-- Four hexadecimal digits behind the mark of a numbered character. -/
theorem run_digits {a b c d : Char} {n : Nat} (read : List Nat)
    (hdigits : ∀ digit ∈ [a, b, c, d], ∃ value, Text.hexDigitValue? digit = some value)
    (hvalue : Text.hexValue? [a, b, c, d] = some n) :
    run (.numbered read []) [a, b, c, d] = some (.text (n :: read), []) := by
  simp only [List.forall_mem_cons] at hdigits
  obtain ⟨⟨_, ha⟩, ⟨_, hb⟩, ⟨_, hc⟩, ⟨_, hd⟩, -⟩ := hdigits
  simp [run, step, ha, hb, hc, hd, hvalue]

/-- A character that is given by its number is read. -/
theorem run_numbered {n : Nat} (hn : n < 16 ^ 4) (read : List Nat) :
    run (.numbered read []) (Text.hexDigits 4 n) = some (.text (n :: read), []) := by
  have hvalue := Text.hexValue?_hexDigits 4 n
  rw [Nat.mod_eq_of_lt hn] at hvalue
  refine run_digits read ?_ hvalue
  have hdigit (place : Nat) :
      ∃ value, Text.hexDigitValue? (n / place % 16).digitChar = some value :=
    ⟨_, Text.hexDigitValue?_digitChar (Nat.mod_lt _ (by decide))⟩
  simp only [List.forall_mem_cons]
  exact ⟨hdigit _, hdigit _, hdigit _, hdigit _, nofun⟩

/-- A character of a written text is read as that character. -/
theorem run_quotedChar (c : Char) (read : List Nat) :
    run (.text read) (quotedChar c).toList = some (.text (c.toNat :: read), []) := by
  unfold quotedChar
  split
  · rfl
  · rfl
  · rfl
  · rfl
  · rfl
  · rfl
  · rfl
  · next hquote hbackslash _ _ _ _ _ =>
    split
    · next hcontrol =>
      have hescape : run (.text read) "\\u".toList = some (.numbered read [], []) := rfl
      have hnumber : run (.numbered read []) (String.ofList (Text.hexDigits 4 c.toNat)).toList =
          some (.text (c.toNat :: read), []) := by
        rw [String.toList_ofList]
        exact run_numbered (Nat.lt_trans hcontrol (by decide)) read
      rw [String.toList_append]
      exact run_append hescape hnumber
    · next hcontrol =>
      have hplain : step (.text read) c = some (.text (c.toNat :: read), []) := by
        rw [step, if_neg hquote, if_neg hbackslash, if_neg hcontrol]
      rw [String.toList_singleton]
      exact run_cons hplain rfl

theorem run_quotedChars (chars : List Char) (read : List Nat) :
    run (.text read) (String.join (chars.map quotedChar)).toList =
      some (.text (chars.reverse.map Char.toNat ++ read), []) := by
  induction chars generalizing read with
  | nil => rfl
  | cons c chars ih =>
    rw [List.map_cons, String.join_cons, String.toList_append,
      run_append (run_quotedChar c read) (ih _)]
    simp

end Scan

/-- A text between quotes is one token. -/
theorem tokens?_quoted (s : String) : tokens? (quoted s).toList = some [.text (some s)] := by
  have hopening : Scan.run .between "\"".toList = some (.text [], []) := rfl
  have hclosing : Scan.run (.text (s.toList.reverse.map Char.toNat)) "\"".toList =
      some (.between, [.text (some s)]) := by
    have hread : characters? (s.toList.reverse.map Char.toNat) = some s.toList := by
      rw [characters?, charactersOnto_map_toNat, List.reverse_reverse, List.append_nil]
    simp [Scan.run, Scan.step, hread, -List.map_reverse]
  have hchars := Scan.run_quotedChars s.toList []
  rw [List.append_nil] at hchars
  rw [tokens?_eq_run, quoted, String.toList_append, String.toList_append,
    Scan.run_append (Scan.run_append hopening hchars) hclosing]
  rfl

end DialectSql.Json
