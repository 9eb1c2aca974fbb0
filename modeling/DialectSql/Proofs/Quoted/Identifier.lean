import DialectSql.Rendering
import DialectSql.Proofs.Quoted
import DialectSql.Proofs.Written

/-!
# Reading quoted identifiers

A database reads an identifier up to the first closing quote that is not written twice. A dialect
writes a name between quotes as it is, without doubling anything. So an identifier is read back
exactly if its name has no closing quote. A name that has one can end its quoting early, and then
the rest of it is a part of the statement, with literals in the text as well as with placeholders.

## Main definitions

* `Dialect.readIdentifier` — a quoted identifier, read by the rule of a dialect

## Main results

* `Text.readQuoted_eq_some_iff` — what is read behind an opening quote is what was doubled there
* `Dialect.readIdentifier_quoteIdentifier` — which names are read back wherever they stand, and
  what is read of the others
-/

namespace DialectSql

namespace Text

variable {closing : Char} {name rest chars : List Char}

/-- A text stays as it is exactly if nothing in it is doubled. -/
theorem doubled_eq_self_iff {special : Char → Bool} :
    doubled special chars = chars ↔ ∀ c ∈ chars, special c = false := by
  constructor
  · intro h c hc
    have hcount := count_doubled special c chars
    have hpos : 0 < chars.count c := List.count_pos_iff.mpr hc
    rw [h] at hcount
    cases hspecial : special c with
    | false => rfl
    | true =>
      -- A doubled character would be there twice as often as it is.
      rw [hspecial, if_pos rfl] at hcount
      omega
  · intro h
    induction chars with
    | nil => rfl
    | cons c chars ih =>
      rw [List.forall_mem_cons] at h
      rw [doubled_cons, h.1, ih h.2]
      rfl

/-- A text without a closing quote stays as it is where closing quotes are doubled. -/
theorem doubled_closing_eq_self_iff : doubled (· == closing) chars = chars ↔ closing ∉ chars := by
  rw [doubled_eq_self_iff]
  constructor
  · intro h hclosing
    simpa using h closing hclosing
  · intro h c hc
    exact beq_false_of_ne fun heq => h (heq ▸ hc)

/-- What is read behind an opening quote stands there with its closing quotes doubled, and behind it
a closing quote that is not. -/
theorem eq_doubled_of_readQuoted
    (h : readQuoted closing (fun _ => false) chars = some (name, rest)) :
    chars = doubled (· == closing) name ++ closing :: rest ∧ rest.head? ≠ some closing := by
  fun_induction readQuoted closing (fun _ => false) chars generalizing name with
  | case1 => cases h
  | case2 =>
    cases h
    exact ⟨rfl, by simp⟩
  | case3 => cases h
  | case4 chars ih =>
    -- Two closing quotes are one character of the name.
    obtain ⟨⟨name, rest⟩, hread, heq⟩ := Option.map_eq_some_iff.mp h
    cases heq
    obtain ⟨rfl, hhead⟩ := ih hread
    exact ⟨by simp [doubled_cons], hhead⟩
  | case5 e chars he =>
    cases h
    exact ⟨rfl, by simpa using he⟩
  | case6 c e chars hc hescapes => cases hescapes
  | case7 c e chars hc _ ih =>
    obtain ⟨⟨name, rest⟩, hread, heq⟩ := Option.map_eq_some_iff.mp h
    cases heq
    obtain ⟨hchars, hhead⟩ := ih hread
    exact ⟨by simp [doubled_cons, hc, hchars], hhead⟩

/-- A name is read behind an opening quote exactly where it stands with its closing quotes doubled,
and behind it a closing quote that is not. -/
theorem readQuoted_eq_some_iff :
    readQuoted closing (fun _ => false) chars = some (name, rest) ↔
      chars = doubled (· == closing) name ++ closing :: rest ∧ rest.head? ≠ some closing := by
  constructor
  · exact eq_doubled_of_readQuoted
  · rintro ⟨rfl, hhead⟩
    exact (readQuoted_doubled_closing_iff (by simp) name rest).mpr hhead

end Text

namespace Dialect

/-- What a quoted identifier at the beginning of a text is read as, and what is left behind it. -/
def readIdentifier (d : Dialect) : List Char → Option (List Char × List Char)
  | [] => none
  | c :: chars =>
    if c = d.identifierQuotes.1 then Text.readQuoted d.identifierQuotes.2 (fun _ => false) chars
    else none

/-- What is read of a quoted name stands in it with its closing quotes doubled. -/
theorem readIdentifier_eq_some_iff {d : Dialect} {name : String} {read rest left : List Char} :
    d.readIdentifier ((d.quoteIdentifier name).toList ++ rest) = some (read, left) ↔
      name.toList ++ d.identifierQuotes.2 :: rest =
          Text.doubled (· == d.identifierQuotes.2) read ++ d.identifierQuotes.2 :: left ∧
        left.head? ≠ some d.identifierQuotes.2 := by
  have hchars : (d.quoteIdentifier name).toList ++ rest =
      d.identifierQuotes.1 :: (name.toList ++ d.identifierQuotes.2 :: rest) := by
    simp [quoteIdentifier, Text.enclosed]
  rw [hchars, readIdentifier, if_pos rfl, Text.readQuoted_eq_some_iff]

/-- A name is read back exactly if it has no closing quote and none stands behind it. -/
theorem readIdentifier_eq_name_iff {d : Dialect} {name : String} {rest : List Char} :
    d.readIdentifier ((d.quoteIdentifier name).toList ++ rest) = some (name.toList, rest) ↔
      d.identifierQuotes.2 ∉ name.toList ∧ rest.head? ≠ some d.identifierQuotes.2 := by
  rw [readIdentifier_eq_some_iff, List.append_cancel_right_eq, eq_comm,
    Text.doubled_closing_eq_self_iff]

end Dialect

/-- Behind what stands in front of an identifier, a draft is written on with the identifier between
its quotes, and then with the other pieces. -/
theorem Draft.written_drop_quoted {draft : Draft} {before after : List Piece} {name : String}
    (h : draft.pieces = before ++ .quoted name :: after) (d : Dialect) (write : Writer) :
    (draft.written d write 0).toList.drop (writtenPieces d write 0 before).toList.length =
      (d.quoteIdentifier name).toList ++
        (writtenPieces d write (before.filterMap Piece.value?).length after).toList := by
  have hquoted : ∀ index, writtenPieces d write index (.quoted name :: after) =
      d.quoteIdentifier name ++ writtenPieces d write index after := fun _ => by
    rw [writtenPieces, Piece.literalText]
    simp
  rw [written, h, writtenPieces_append, hquoted, Nat.zero_add, String.toList_append,
    List.drop_left, String.toList_append]

/-- Three facts about a name between the quotes of a dialect. It is read back in front of some text
exactly if it has no closing quote and the text does not begin with one. A part of it is left in
front of the text exactly if it has a closing quote that is not doubled, with something behind it.
And wherever a statement has it between quotes, it is read back in the text of the statement, with
literals or with placeholders, under the condition of the first fact. -/
theorem Dialect.readIdentifier_quoteIdentifier (d : Dialect) (name : String) :
    (∀ rest, d.readIdentifier ((d.quoteIdentifier name).toList ++ rest) = some (name.toList, rest) ↔
      d.identifierQuotes.2 ∉ name.toList ∧ rest.head? ≠ some d.identifierQuotes.2) ∧
    (∀ read back rest, d.readIdentifier ((d.quoteIdentifier name).toList ++ rest) =
        some (read, back ++ d.identifierQuotes.2 :: rest) ↔
      name.toList = Text.doubled (· == d.identifierQuotes.2) read ++ d.identifierQuotes.2 :: back ∧
        ∃ c ∈ back.head?, c ≠ d.identifierQuotes.2) ∧
    ∀ (draft : Draft) (before after : List Piece), draft.pieces = before ++ .quoted name :: after →
      ∀ write : Writer,
        let front := (writtenPieces d write 0 before).toList
        let rest := (writtenPieces d write (before.filterMap Piece.value?).length after).toList
        d.readIdentifier ((draft.written d write 0).toList.drop front.length) =
            some (name.toList, rest) ↔
          d.identifierQuotes.2 ∉ name.toList ∧ rest.head? ≠ some d.identifierQuotes.2 := by
  refine ⟨fun rest => readIdentifier_eq_name_iff, fun read back rest => ?_,
    fun draft before after h write => ?_⟩
  · rw [readIdentifier_eq_some_iff]
    refine and_congr ?_ ?_
    · rw [← List.cons_append, ← List.append_assoc, List.append_cancel_right_eq]
    · -- A closing quote at the end of the name is doubled by that of the identifier.
      cases back <;> simp
  · intro front rest
    rw [Draft.written_drop_quoted h]
    exact readIdentifier_eq_name_iff

/-- A qualified column whose name has the closing quote of another dialect. -/
theorem Dialect.readIdentifier_quoteIdentifier_column :
    let e : Expression := .comparison .equal (.ofField ⟨"x]", some "t"⟩) (.constant (.int 1))
    let draft := Drafted.draft e (.outermost .mySql .standard .bound)
    draft.pieces = [.quoted "t", .text "."] ++ .quoted "x]" :: [.text " = ", .value (.int 1)] ∧
      mySql.readIdentifier
          ((draft.written .mySql (placeholders .mySql "p") 0).toList.drop 4) =
        some ("x]".toList, " = ?p0".toList) := by
  intro e draft
  have hpieces : draft.pieces =
      [.quoted "t", .text "."] ++ .quoted "x]" :: [.text " = ", .value (.int 1)] := rfl
  exact ⟨hpieces, ((mySql.readIdentifier_quoteIdentifier "x]").2.2 draft _ _ hpieces
    (placeholders .mySql "p")).mpr (by decide)⟩

/-- The name of a table ends its quoting early and adds a condition to a query, in both modes. -/
theorem Query.text_closingQuote :
    let rows := Query.ofTable "A] WHERE 1 = 0 --"
    renderInline rows .sqlServer .standard = .ok "SELECT * FROM [A] WHERE 1 = 0 --]" ∧
      (renderBound rows .sqlServer .standard .blank ()).map (·.sql) =
        .ok "SELECT * FROM [A] WHERE 1 = 0 --]" ∧
      Dialect.sqlServer.readIdentifier "[A] WHERE 1 = 0 --]".toList =
        some ("A".toList, " WHERE 1 = 0 --]".toList) :=
  ⟨rfl, rfl, by decide⟩

end DialectSql
