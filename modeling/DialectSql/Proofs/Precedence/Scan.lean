import DialectSql.Proofs.Precedence
import DialectSql.Proofs.Surface

/-!
# Lexemes of texts

The lexemes of a text in a dialect. Blanks, parentheses, commas and the signs that can stand in
front of an operand end the run of characters in front of them. Other signs and operands end each
other. A run is an operator if it is a keyword or a sign, and an operand otherwise. The characters
of an identifier between quotes and of a text literal belong to one operand, whatever they are.

## Main definitions

* `Text.scan` — the lexemes from a place in a text on
* `Text.read` — the term that a text is read as
* `Text.Joins`, `Text.Separates`, `Text.Settles`, `Text.Scans` — what parts of a text do to the
  lexemes

## Main results

* `Text.Scans.separated`, `Text.Scans.parens` — parts of a text are scanned one by one
* `Text.Joins.quoteIdentifier`, `Text.Joins.quoteText` — identifiers and literals are operands
-/

namespace DialectSql.Text

/-- The characters of the signs that can only stand between operands. -/
def isSignChar (c : Char) : Bool := "+*/%=<>|&^#".toList.contains c

/-- What a character that is always alone stands for. -/
def separator? : Char → Option (List Lexeme)
  | ' ' => some []
  | '(' => some [.opening]
  | ')' => some [.closing]
  | ',' => some [.operator ","]
  | '-' => some [.operator "-"]
  | '~' => some [.operator "~"]
  | _ => none

/-- Whether a run of characters goes on with a character: with a sign if it is one itself, and
otherwise with anything else. A wildcard belongs to its qualifier. -/
def goesOn (run : List Char) (c : Char) : Bool :=
  run.getLast?.all fun last => isSignChar last == isSignChar c || last == '.' && c == '*'

/-- Whether a text is a keyword or a sign. -/
def isOperatorName (t : String) : Bool := 0 < unaryLevel t || 0 < binaryLevel t

/-- The lexeme of a run of characters, if there are any. -/
def flush (run : List Char) : List Lexeme :=
  if run = [] then []
  else if isOperatorName (String.ofList run) then [.operator (String.ofList run)]
  else [.operand (String.ofList run)]

/-- Where a reader stands behind a character outside of identifiers and literals. -/
def regionBehind (d : Dialect) (c : Char) : Region :=
  if c = '\'' then .literal else if c = d.identifierQuotes.1 then .identifier else .code

/-- The lexemes of a run and of the characters behind it. -/
def scan (d : Dialect) : Region → (run : List Char) → List Char → List Lexeme
  | _, run, [] => flush run
  | .code, run, c :: chars =>
    match separator? c with
    | some lexemes => flush run ++ (lexemes ++ scan d .code [] chars)
    | none =>
      if goesOn run c then scan d (regionBehind d c) (run ++ [c]) chars
      else flush run ++ scan d (regionBehind d c) [c] chars
  | .identifier, run, c :: chars =>
    scan d (if c = d.identifierQuotes.2 then .code else .identifier) (run ++ [c]) chars
  | .literal, run, c :: chars =>
    scan d (if c = '\'' then .code else if d.doubledInText c then .escape else .literal)
      (run ++ [c]) chars
  | .escape, run, c :: chars => scan d .literal (run ++ [c]) chars

/-- The term that a text is read as. -/
def read (d : Dialect) (t : String) : Option Term := Lexeme.read (scan d .code [] t.toList)

/-! ## Parts of texts -/

section Parts

variable (d : Dialect) (chars : List Char) (lexemes : List Lexeme)

/-- Characters that go on with an operand. -/
structure Joins : Prop where
  scan_append (run rest : List Char) (hrun : ∀ c ∈ run.getLast?, isSignChar c = false) :
    scan d .code run (chars ++ rest) = scan d .code (run ++ chars) rest
  last : ∀ c ∈ chars.getLast?, isSignChar c = false

/-- Characters that end the run in front of them, and themselves. -/
def Separates : Prop :=
  ∀ run rest, scan d .code run (chars ++ rest) = flush run ++ (lexemes ++ scan d .code [] rest)

/-- Characters that end themselves. -/
def Settles : Prop := ∀ rest, scan d .code [] (chars ++ rest) = lexemes ++ scan d .code [] rest

/-- Characters of which the last run may go on behind them. -/
def Scans : Prop :=
  ∃ front run, front ++ flush run = lexemes ∧
    ∀ rest, scan d .code [] (chars ++ rest) = front ++ scan d .code run rest

end Parts

variable {d : Dialect} {chars chars' : List Char} {lexemes lexemes' : List Lexeme}

theorem Separates.settles (h : Separates d chars lexemes) : Settles d chars lexemes :=
  fun rest => h [] rest

theorem Settles.scans (h : Settles d chars lexemes) : Scans d chars lexemes :=
  ⟨lexemes, [], List.append_nil _, h⟩

/-- One part behind another that ends itself. -/
theorem Settles.append (h : Settles d chars lexemes) (h' : Scans d chars' lexemes') :
    Scans d (chars ++ chars') (lexemes ++ lexemes') := by
  obtain ⟨front, run, rfl, hscan⟩ := h'
  refine ⟨lexemes ++ front, run, List.append_assoc .., fun rest => ?_⟩
  rw [List.append_assoc, h, hscan, List.append_assoc]

/-- A separator behind a part ends it. -/
theorem Scans.settles (h : Scans d chars lexemes) (h' : Separates d chars' lexemes') :
    Settles d (chars ++ chars') (lexemes ++ lexemes') := by
  obtain ⟨front, run, rfl, hscan⟩ := h
  intro rest
  rw [List.append_assoc, hscan, h']
  simp only [List.append_assoc]

/-- What is scanned of a whole text. -/
theorem Scans.scan_eq (h : Scans d chars lexemes) : scan d .code [] chars = lexemes := by
  obtain ⟨front, run, rfl, hscan⟩ := h
  have hwhole := hscan []
  rw [List.append_nil] at hwhole
  rw [hwhole, scan]

theorem Scans.read_eq {t : String} (h : Scans d t.toList lexemes) :
    read d t = Lexeme.read lexemes := by
  rw [read, h.scan_eq]

/-- A separator between two parts. -/
theorem Scans.separated {between : List Char} {found : List Lexeme} (h : Scans d chars lexemes)
    (hbetween : Separates d between found) (h' : Scans d chars' lexemes') :
    Scans d (chars ++ between ++ chars') (lexemes ++ found ++ lexemes') :=
  (h.settles hbetween).append h'

/-- Parentheses around a part. -/
theorem Scans.parens (h : Scans d chars lexemes) :
    Settles d ('(' :: chars ++ [')']) (.opening :: lexemes ++ [.closing]) := by
  have hopening : Separates d ['('] [.opening] := fun _ _ => rfl
  have hclosing : Separates d [')'] [.closing] := fun _ _ => rfl
  exact (hopening.settles.append h).settles hclosing

/-- A name with a part between parentheses behind it. -/
theorem Scans.call {name : String} (hname : Scans d name.toList [.operand name])
    (h : Scans d chars lexemes) : Settles d (name.toList ++ ('(' :: chars ++ [')']))
      (.operand name :: .opening :: lexemes ++ [.closing]) := by
  have hopening : Separates d ['('] [.opening] := fun _ _ => rfl
  have hclosing : Separates d [')'] [.closing] := fun _ _ => rfl
  have hcall := ((hname.settles hopening).append h).settles hclosing
  simpa only [List.append_assoc, List.cons_append, List.nil_append] using hcall

/-! ## Operands -/

/-- A character outside of identifiers and literals that can only belong to an operand. -/
structure IsOperandChar (d : Dialect) (c : Char) : Prop where
  separator : separator? c = none
  sign : isSignChar c = false
  region : regionBehind d c = .code

/-- The characters with which operands and operators end, and those that open a quote. -/
def delimiters : List Char := " (),-~+*/%=<>|&^#'\"[\x60".toList

/-- Characters of a class without delimiters can only belong to operands. -/
theorem isOperandChar_of_class (d : Dialect) {p : Char → Bool} {c : Char}
    (hp : delimiters.all (!p ·) = true) (hc : p c = true) : IsOperandChar d c := by
  have hother : ∀ e ∈ delimiters, c ≠ e := by
    rintro e he rfl
    have hnone := List.all_eq_true.mp hp c he
    rw [hc] at hnone
    cases hnone
  refine ⟨?_, ?_, ?_⟩
  · unfold separator?
    split
    case h_7 => rfl
    all_goals exact absurd rfl (hother _ (by decide))
  · refine Bool.eq_false_iff.mpr fun hsign => hother c ?_ rfl
    have hsub : "+*/%=<>|&^#".toList.all delimiters.contains = true := rfl
    exact List.contains_iff_mem.mp
      (List.all_eq_true.mp hsub c (List.contains_iff_mem.mp hsign))
  · have hquote : c ≠ d.identifierQuotes.1 := hother _ (by cases d <;> decide)
    rw [regionBehind, if_neg (hother _ (by decide)), if_neg hquote]

/-- A character that is no sign goes on with an operand. -/
theorem goesOn_of_not_isSignChar {run : List Char}
    (hrun : ∀ c ∈ run.getLast?, isSignChar c = false) {c : Char} (hc : isSignChar c = false) :
    goesOn run c = true := by
  unfold goesOn
  cases hlast : run.getLast? with
  | none => rfl
  | some last => simp [hrun last hlast, hc]

/-- A character of an operand is put at the end of the run. -/
theorem scan_cons {run : List Char} (hrun : ∀ c ∈ run.getLast?, isSignChar c = false) {c : Char}
    (hseparator : separator? c = none) (hsign : isSignChar c = false) (rest : List Char) :
    scan d .code run (c :: rest) = scan d (regionBehind d c) (run ++ [c]) rest := by
  rw [scan, hseparator]
  exact if_pos (goesOn_of_not_isSignChar hrun hsign)

theorem not_isSignChar_of_concat {run : List Char} {c : Char} (hsign : isSignChar c = false) :
    ∀ e ∈ (run ++ [c]).getLast?, isSignChar e = false := by
  rw [List.getLast?_concat]
  rintro e ⟨⟩
  exact hsign

namespace Joins

/-- One part of an operand behind another. -/
theorem append (h : Joins d chars) (h' : Joins d chars') : Joins d (chars ++ chars') := by
  have hends : ∀ run : List Char, (∀ c ∈ run.getLast?, isSignChar c = false) →
      ∀ {part : List Char}, (∀ c ∈ part.getLast?, isSignChar c = false) →
        ∀ c ∈ (run ++ part).getLast?, isSignChar c = false := by
    intro run hrun part hpart c hc
    rw [List.getLast?_append, Option.mem_def, Option.or_eq_some_iff] at hc
    rcases hc with hc | ⟨-, hc⟩
    · exact hpart c hc
    · exact hrun c hc
  refine ⟨fun run rest hrun => ?_, hends chars h.last h'.last⟩
  rw [List.append_assoc, h.scan_append run _ hrun, h'.scan_append _ rest (hends run hrun h.last),
    List.append_assoc]

/-- Characters that can only belong to operands. -/
theorem of_isOperandChar (h : ∀ c ∈ chars, IsOperandChar d c) : Joins d chars := by
  refine ⟨fun run rest hrun => ?_, fun c hc => (h c (List.mem_of_getLast? hc)).sign⟩
  induction chars generalizing run with
  | nil => rw [List.nil_append, List.append_nil]
  | cons c chars ih =>
    obtain ⟨⟨hseparator, hsign, hregion⟩, hchars⟩ := List.forall_mem_cons.mp h
    rw [List.cons_append, scan_cons hrun hseparator hsign, hregion,
      ih hchars _ (not_isSignChar_of_concat hsign), List.append_assoc, List.singleton_append]

/-- An identifier between quotes, if it has no closing quote. -/
theorem quoteIdentifier {name : String} (h : d.identifierQuotes.2 ∉ name.toList) :
    Joins d (d.quoteIdentifier name).toList := by
  -- Between the quotes every character is taken, up to the closing quote.
  have hinside : ∀ run rest, scan d .identifier run
      (name.toList ++ d.identifierQuotes.2 :: rest) =
        scan d .code (run ++ name.toList ++ [d.identifierQuotes.2]) rest := by
    intro run rest
    generalize name.toList = chars at h ⊢
    induction chars generalizing run with
    | nil => rw [List.nil_append, scan, if_pos rfl, List.append_nil]
    | cons c chars ih =>
      rw [List.mem_cons, not_or] at h
      rw [List.cons_append, scan, if_neg (Ne.symm h.1), ih _ h.2, List.append_assoc run,
        List.singleton_append]
  have hchars : (d.quoteIdentifier name).toList =
      d.identifierQuotes.1 :: (name.toList ++ [d.identifierQuotes.2]) := by
    simp [Dialect.quoteIdentifier, enclosed]
  have hseparator : separator? d.identifierQuotes.1 = none := by cases d <;> rfl
  have hsign : isSignChar d.identifierQuotes.1 = false := by cases d <;> rfl
  have hregion : regionBehind d d.identifierQuotes.1 = .identifier := by cases d <;> rfl
  refine ⟨fun run rest hrun => ?_, fun c hc => ?_⟩
  · rw [hchars, List.cons_append, scan_cons hrun hseparator hsign, hregion, List.append_assoc,
      List.singleton_append, hinside]
    simp only [List.append_assoc, List.cons_append, List.nil_append]
  · rw [hchars, ← List.cons_append, List.getLast?_concat] at hc
    cases hc
    cases d <;> rfl

/-- A reader comes out of a literal behind its last quote. -/
theorem scan_doubled (run rest : List Char) (chars : List Char) :
    scan d .literal run (doubled d.doubledInText chars ++ '\'' :: rest) =
      scan d .code (run ++ doubled d.doubledInText chars ++ ['\'']) rest := by
  induction chars generalizing run with
  | nil => rw [doubled_nil, List.nil_append, scan, if_pos rfl, List.append_nil]
  | cons c chars ih =>
    rw [doubled_cons, List.append_assoc]
    by_cases hquote : c = '\''
    · subst hquote
      -- The first quote closes the literal and the second one opens it again.
      have hdoubled : d.doubledInText '\'' = true := by cases d <;> rfl
      rw [if_pos hdoubled, List.cons_append, scan, if_pos rfl, List.singleton_append,
        scan_cons (not_isSignChar_of_concat rfl) rfl rfl, regionBehind, if_pos rfl, ih]
      simp only [List.append_assoc, List.cons_append, List.nil_append]
    · by_cases hdoubled : d.doubledInText c = true
      -- A doubled backslash escapes itself.
      · rw [if_pos hdoubled, List.cons_append, scan, if_neg hquote, if_pos hdoubled,
          List.singleton_append, scan, ih]
        simp only [List.append_assoc, List.cons_append, List.nil_append]
      · rw [if_neg hdoubled, List.singleton_append, scan, if_neg hquote, if_neg hdoubled, ih]
        simp only [List.append_assoc, List.cons_append, List.nil_append]

/-- A text literal. -/
theorem quoteText (d : Dialect) (text : String) : Joins d (d.quoteText text).toList := by
  have hchars : (d.quoteText text).toList =
      '\'' :: (doubled d.doubledInText text.toList ++ ['\'']) := by
    simp [Dialect.quoteText, enclosed]
  refine ⟨fun run rest hrun => ?_, fun c hc => ?_⟩
  · rw [hchars, List.cons_append, scan_cons hrun rfl rfl, regionBehind, if_pos rfl,
      List.append_assoc, List.singleton_append, scan_doubled]
    simp only [List.append_assoc, List.cons_append, List.nil_append]
  · rw [hchars, ← List.cons_append, List.getLast?_concat] at hc
    cases hc
    rfl

end Joins

/-! ## Names -/

/-- The characters that no keyword and no sign has: digits, points and quotes. -/
def isForeignChar (c : Char) : Bool := c.isDigit || "'.\"[\x60".toList.contains c

theorem not_isForeignChar_of_isOperatorName {t : String} (h : isOperatorName t = true) :
    t.toList.all (!isForeignChar ·) = true := by
  rw [isOperatorName, Bool.or_eq_true, decide_eq_true_eq, decide_eq_true_eq] at h
  rcases h with h | h
  · unfold unaryLevel at h
    split at h
    case h_5 => exact absurd h (by decide)
    all_goals decide
  · unfold binaryLevel at h
    split at h
    all_goals first | decide | exact absurd h (by decide)

/-- A text is no keyword and no sign if one of its characters is in none of them. -/
theorem isOperatorName_eq_false {t : String} {c : Char} (hc : c ∈ t.toList)
    (h : isForeignChar c = true) : isOperatorName t = false := by
  refine Bool.eq_false_iff.mpr fun hname => ?_
  have hnone := List.all_eq_true.mp (not_isForeignChar_of_isOperatorName hname) c hc
  rw [h] at hnone
  cases hnone

/-- An operand by itself. -/
theorem Joins.scans {t : String} (h : Joins d t.toList) (hne : t.toList ≠ [])
    (hname : isOperatorName t = false) : Scans d t.toList [.operand t] := by
  refine ⟨[], t.toList, ?_, fun rest => h.scan_append [] rest (by simp)⟩
  simp [flush, hne, hname, String.ofList_toList]

/-- An operand with a character that no keyword and no sign has. -/
theorem Joins.scans_of_mem {t : String} (h : Joins d t.toList) {c : Char} (hc : c ∈ t.toList)
    (hforeign : isForeignChar c = true) : Scans d t.toList [.operand t] :=
  h.scans (List.ne_nil_of_mem hc) (isOperatorName_eq_false hc hforeign)

/-- The quotes of identifiers are in no keyword. -/
theorem isForeignChar_identifierQuotes (d : Dialect) :
    isForeignChar d.identifierQuotes.1 = true := by cases d <;> decide

/-- Letters, digits and underscores belong to operands. -/
theorem Joins.of_isNameChar (h : chars.all Config.isNameChar = true) : Joins d chars :=
  .of_isOperandChar fun c hc => isOperandChar_of_class d (by decide) (List.all_eq_true.mp h c hc)

/-- A word that is no keyword. -/
theorem scans_word {t : String} (h : t.toList.all Config.isNameChar = true)
    (hne : t.toList ≠ []) (hname : isOperatorName t = false) : Scans d t.toList [.operand t] :=
  (Joins.of_isNameChar h).scans hne hname

/-- An operator that binds more tightly than a comma ends the operand in front of it, with blanks
around it. -/
theorem separates_operator {symbol : String} (h : 2 < binaryLevel symbol) :
    Separates d (" " ++ symbol ++ " ").toList (Lexeme.spelled symbol) := by
  unfold binaryLevel at h
  split at h
  case h_1 => exact absurd h (by decide)
  case h_25 => exact absurd h (by decide)
  all_goals
    intro run rest
    cases d <;> rfl

theorem separates_comma : Separates d ", ".toList (Lexeme.spelled ",") := fun run rest => by
  cases d <;> simp [scan, separator?, flush, Lexeme.spelled]

/-- A keyword in front of its operand. -/
theorem settles_keyword {symbol : String} (h : symbol = "NOT" ∨ symbol = "DISTINCT") :
    Settles d (symbol ++ " ").toList [.operator symbol] := by
  rcases h with rfl | rfl
  all_goals
    intro rest
    cases d <;> rfl

end DialectSql.Text
