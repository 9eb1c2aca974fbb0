import DialectSql.Config
import DialectSql.Literal

/-!
# Drafts

A draft is the text of a statement before its constants are placed: a sequence of pieces, in which a
constant is still a value. The same draft is read with literals or with placeholders. A construct
that the dialect lacks ends a draft at the place where it would stand.

## Main definitions

* `Piece`, `Draft` — pieces of text, and a sequence of them with the failure that ended it
* `Draft.append` — one draft behind another, unless the first one ended in a failure
* `Draft.parens`, `Draft.list` — parentheses and comma-separated lists
* `Setting` — what a draft depends on besides the statement

## Main results

* `Draft.append_assoc` — drafts can be put together from either end
* `Draft.failure_append` — a sequence fails where its first part does, or else where its second does
-/

namespace DialectSql

/-- A piece of a statement. -/
inductive Piece
  /-- Keywords, numbers and punctuation. -/
  | text (text : String)
  /-- An opening parenthesis. -/
  | opening
  /-- A closing parenthesis. -/
  | closing
  /-- An identifier between quotes. -/
  | quoted (name : String)
  /-- An identifier without quotes. -/
  | bare (name : String)
  /-- A constant, which is never NULL. -/
  | value (value : Value)

/-- The value of a constant. -/
def Piece.value? : Piece → Option Value
  | value v => some v
  | _ => none

/-- A sequence of pieces, and the failure that ended it if there was one. -/
structure Draft where
  /-- The pieces in front of the failure. -/
  pieces : List Piece
  /-- The failure. -/
  failure : Option Error

namespace Draft

/-- The draft of nothing. -/
def empty : Draft := ⟨[], none⟩

/-- A draft of one piece. -/
def piece (p : Piece) : Draft := ⟨[p], none⟩

/-- Keywords, numbers and punctuation. -/
def text (s : String) : Draft := piece (.text s)

/-- A construct that cannot be written. -/
def fail (e : Error) : Draft := ⟨[], some e⟩

/-- A constant. NULL is a keyword and never bound. -/
def constant (v : Value) : Draft :=
  if v.isNull then text "NULL" else piece (.value v)

/-- An identifier between quotes. -/
def quoted (name : String) : Draft := piece (.quoted name)

/-- One draft behind another. Nothing follows a failure. -/
def append (a b : Draft) : Draft :=
  match a.failure with
  | some e => ⟨a.pieces, some e⟩
  | none => ⟨a.pieces ++ b.pieces, b.failure⟩

instance : Append Draft := ⟨append⟩

instance : Coe String Draft := ⟨text⟩

/-! ### Sequences -/

/-- Nothing follows a failure. -/
theorem append_of_failure {a : Draft} {e : Error} (h : a.failure = some e) (b : Draft) :
    a ++ b = a := by
  cases a
  subst h
  rfl

/-- Behind a draft that did not fail the pieces go on. -/
theorem append_of_success {a : Draft} (h : a.failure = none) (b : Draft) :
    a ++ b = ⟨a.pieces ++ b.pieces, b.failure⟩ := by
  cases a
  subst h
  rfl

@[simp] theorem empty_append (a : Draft) : empty ++ a = a := rfl

@[simp] theorem append_empty (a : Draft) : a ++ empty = a := by
  rcases h : a.failure with _ | e
  · rw [append_of_success h, empty, List.append_nil, ← h]
  · exact append_of_failure h _

/-- A sequence fails where its first part does, or else where its second part does. -/
@[simp] theorem failure_append (a b : Draft) : (a ++ b).failure = a.failure.or b.failure := by
  rcases h : a.failure with _ | e
  · rw [append_of_success h, Option.none_or]
  · rw [append_of_failure h, h, Option.some_or]

/-- Drafts can be put together from either end. -/
theorem append_assoc (a b c : Draft) : a ++ b ++ c = a ++ (b ++ c) := by
  rcases ha : a.failure with _ | e
  · rcases hb : b.failure with _ | e
    · have hab : (a ++ b).failure = none := by simp [ha, hb]
      rw [append_of_success hab, append_of_success ha, append_of_success ha, append_of_success hb,
        List.append_assoc]
    · have hab : (a ++ b).failure = some e := by simp [ha, hb]
      rw [append_of_failure hab, append_of_failure hb]
  · have hab : (a ++ b).failure = some e := by simp [ha]
    rw [append_of_failure hab, append_of_failure ha, append_of_failure ha]

/-- A draft between parentheses. -/
def parens (d : Draft) : Draft := piece .opening ++ d ++ piece .closing

/-- Drafts one behind the other, with a text between them. -/
def joinWith (separator : String) : List Draft → Draft
  | [] => empty
  | [d] => d
  | d :: ds => d ++ text separator ++ joinWith separator ds

/-- A comma-separated list. -/
def list (ds : List Draft) : Draft := joinWith ", " ds

/-- A draft for a result that may be a failure. -/
def ofExcept {α : Type} (r : Except Error α) (f : α → Draft) : Draft :=
  match r with
  | .ok a => f a
  | .error e => fail e

/-- String operands in one string: by an operator, or by a function where the dialect has no
operator. One function takes two operands at a time. -/
def concatenation (d : Dialect) (parts : List Draft) : Draft :=
  match d with
  | .sqlServer | .oledb => joinWith " + " parts
  | .mySql | .postgreSql => text "concat" ++ parens (list parts)
  | .sqlite | .other => joinWith " || " parts
  | .oracle => pairwise parts
where
  /-- The first operand with the concatenation of the others. -/
  pairwise : List Draft → Draft
    | [] => text "''"
    | [part] => part
    | part :: parts => text "concat" ++ parens (part ++ text ", " ++ pairwise parts)

end Draft

/-- How the constants of a statement reach the database. -/
inductive Mode
  /-- As literals in the text. -/
  | inline
  /-- As parameters bound to placeholders. -/
  | bound
  deriving DecidableEq, Repr

/-- What a draft depends on besides the statement. -/
structure Setting where
  /-- The database. -/
  dialect : Dialect
  /-- The settings of the application. -/
  config : Config
  /-- How constants reach the database. -/
  mode : Mode
  /-- The number of subqueries around the place of writing. -/
  depth : Nat

namespace Setting

/-- The setting inside one subquery more. -/
def nested (s : Setting) : Setting := { s with depth := s.depth + 1 }

/-- The setting around the innermost subquery. -/
def enclosing (s : Setting) : Setting := { s with depth := s.depth - 1 }

/-- An identifier at the head of a change or of an assignment. -/
def changeName (s : Setting) (name : String) : Draft :=
  .piece (if s.dialect.bareChangeIdentifiers then .bare name else .quoted name)

end Setting

end DialectSql
