import Mathlib.Data.List.Forall2
import DialectSql.Proofs.Precedence.Literal
import DialectSql.Proofs.Written

/-!
# Sketches of drafts

A sketch is the term that the text of a draft is meant to be read as. It depends on the number of
the first constant as the text does, because placeholders are numbered. Sketches are put together
from the sketches of parts with one operator at a time, and what a sketch demands of its parts is
known from the levels of its operators.

## Main definitions

* `Sketch` — a term for every number of the first constant
* `Draft.Spells` — a draft in writing has the lexemes of a sketch
* `Sketch.Fits` — when a sketch respects the levels as an operand

## Main results

* `Draft.Spells.separated`, `Draft.Spells.call`, `Draft.Spells.joinWith` — drafts of operators,
  calls and lists
* `Sketch.Fits.binary`, `Sketch.Fits.unary`, `Sketch.Fits.chain` — what operators demand
-/

namespace DialectSql

open Text

/-- What a draft is meant to be read as: a term for every number of the first constant. -/
structure Sketch where
  /-- The number of constants. -/
  count : Nat
  /-- The term with constants numbered from `index` on. -/
  term : (index : Nat) → Term

namespace Sketch

/-- A term without constants. -/
def leaf (t : Term) : Sketch := ⟨0, fun _ => t⟩

/-- A constant, which may be the keyword NULL. -/
def constant (write : Writer) (v : Value) : Sketch :=
  if v.isNull then leaf (.operand "NULL") else ⟨1, fun index => .ofConstant (write index v)⟩

def group (a : Sketch) : Sketch := ⟨a.count, fun index => .group (a.term index)⟩

def call (function : String) (arguments : Sketch) : Sketch :=
  ⟨arguments.count, fun index => .call function (arguments.term index)⟩

def unary (symbol : String) (a : Sketch) : Sketch :=
  ⟨a.count, fun index => .unary symbol (a.term index)⟩

def binary (symbol : String) (a b : Sketch) : Sketch :=
  ⟨a.count + b.count, fun index => .binary symbol (a.term index) (b.term (index + a.count))⟩

/-- Operands with the same operator between them, which is applied from the left. -/
def chain (symbol : String) : List Sketch → Sketch
  | [] => leaf .nothing
  | a :: rest => rest.foldl (binary symbol) a

/-- String operands in one string, in the form of a dialect. -/
def concatenation (d : Dialect) (parts : List Sketch) : Sketch :=
  match d with
  | .sqlServer | .oledb => chain "+" parts
  | .mySql | .postgreSql => call "concat" (chain "," parts)
  | .sqlite | .other => chain "||" parts
  | .oracle => pairwise parts
where
  /-- The first operand with the concatenation of the others. -/
  pairwise : List Sketch → Sketch
    | [] => leaf (.operand "''")
    | [part] => part
    | part :: parts => call "concat" (binary "," part (pairwise parts))

end Sketch

/-! ## Spelling -/

/-- The first two parts of a sequence are a part together. -/
theorem Draft.joinWith_cons_cons (separator : String) (x y : Draft) (rest : List Draft) :
    joinWith separator (x :: y :: rest) =
      joinWith separator ((x ++ text separator ++ y) :: rest) := by
  cases rest with
  | nil => rfl
  | cons z rest =>
    simp only [joinWith, append_assoc]

/-- Whether a draft that did not fail has as many constants as a sketch, and its lexemes. -/
def Draft.Spells (d : Dialect) (write : Writer) (draft : Draft) (a : Sketch) : Prop :=
  draft.failure = none → draft.constants.length = a.count ∧
    ∀ index, Scans d (draft.written d write index).toList (a.term index).lexemes

/-- Whether constants are written with the lexemes of their terms, whatever their numbers are. -/
def Writer.Spells (d : Dialect) (write : Writer) : Prop :=
  ∀ index v, Scans d (write index v).toList (Term.ofConstant (write index v)).lexemes

namespace Draft.Spells

variable {d : Dialect} {write : Writer} {x y : Draft} {a b : Sketch} {symbol : String}

theorem fail (e : Error) (a : Sketch) : Spells d write (.fail e) a := by
  rintro ⟨⟩

/-- A draft that is written in the same way whatever the number of its first constant is. -/
theorem of_written {t : String} {u : Term} (hcount : x.constants = [])
    (hwritten : ∀ index, x.written d write index = t) (h : Scans d t.toList u.lexemes) :
    Spells d write x (.leaf u) := fun _ =>
  ⟨by rw [hcount]; rfl, fun index => by rwa [hwritten]⟩

theorem text {t : String} {u : Term} (h : Scans d t.toList u.lexemes) :
    Spells d write (.text t) (.leaf u) := of_written rfl (fun _ => written_text t) h

theorem empty : Spells d write .empty (.leaf .nothing) := fun _ =>
  ⟨rfl, fun _ => ⟨[], [], rfl, fun _ => rfl⟩⟩

/-- A constant is a keyword or what its writer makes of it. -/
theorem constant (hwrite : Writer.Spells d write) (v : Value) :
    Spells d write (.constant v) (.constant write v) := by
  unfold Draft.constant Sketch.constant
  split
  · exact text (scans_word rfl (by decide) rfl)
  · intro _
    refine ⟨rfl, fun index => ?_⟩
    rw [written_value]
    exact hwrite index v

theorem parens (h : Spells d write x a) : Spells d write x.parens a.group := by
  intro hfailure
  rw [failure_parens] at hfailure
  obtain ⟨hcount, hscans⟩ := h hfailure
  refine ⟨by rw [constants_parens hfailure, hcount]; rfl, fun index => ?_⟩
  rw [written_parens hfailure, String.toList_append, String.toList_append]
  exact (hscans index).parens.scans

/-- Operands with an operator between them. -/
theorem separated {between : String} (hx : Spells d write x a)
    (hbetween : Separates d between.toList (Lexeme.spelled symbol)) (hy : Spells d write y b) :
    Spells d write (x ++ .text between ++ y) (.binary symbol a b) := by
  intro hfailure
  obtain ⟨hfront, hyfailure⟩ := failure_append_eq_none hfailure
  obtain ⟨hxfailure, -⟩ := failure_append_eq_none hfront
  obtain ⟨hxcount, hxscans⟩ := hx hxfailure
  obtain ⟨hycount, hyscans⟩ := hy hyfailure
  have hfrontCount : (x ++ .text between).constants.length = a.count := by
    rw [constants_append hxfailure, List.length_append, hxcount]
    rfl
  refine ⟨?_, fun index => ?_⟩
  · rw [constants_append hfront, List.length_append, hfrontCount, hycount]
    rfl
  · rw [written_append hfront, written_append hxfailure, written_text, hfrontCount,
      String.toList_append, String.toList_append]
    exact (hxscans index).separated hbetween (hyscans _)

/-- Operands with an operator of keywords or signs between blanks. -/
theorem operation (h : 2 < binaryLevel symbol) (hx : Spells d write x a)
    (hy : Spells d write y b) :
    Spells d write (x ++ .text (" " ++ symbol ++ " ") ++ y) (.binary symbol a b) :=
  hx.separated (separates_operator h) hy

/-- The two arguments of a function. -/
theorem arguments (hx : Spells d write x a) (hy : Spells d write y b) :
    Spells d write (x ++ .text ", " ++ y) (.binary "," a b) :=
  hx.separated separates_comma hy

/-- An operator in front of its operand. -/
theorem lead {front : String} (hfront : Settles d front.toList [.operator symbol])
    (hx : Spells d write x a) : Spells d write (.text front ++ x) (.unary symbol a) := by
  intro hfailure
  obtain ⟨-, hxfailure⟩ := failure_append_eq_none hfailure
  obtain ⟨hcount, hscans⟩ := hx hxfailure
  refine ⟨?_, fun index => ?_⟩
  · rw [constants_append rfl, List.length_append, hcount]
    exact Nat.zero_add _
  · rw [written_append rfl, written_text, String.toList_append]
    exact hfront.append (hscans _)

/-- A function in front of its arguments. -/
theorem call {function : String} (hname : Scans d function.toList [.operand function])
    (hx : Spells d write x a) : Spells d write (.text function ++ x.parens) (.call function a) := by
  intro hfailure
  obtain ⟨-, hparens⟩ := failure_append_eq_none hfailure
  rw [failure_parens] at hparens
  obtain ⟨hcount, hscans⟩ := hx hparens
  refine ⟨?_, fun index => ?_⟩
  · rw [constants_append rfl, List.length_append, constants_parens hparens, hcount]
    exact Nat.zero_add _
  · rw [written_append rfl, written_text, written_parens hparens, String.toList_append,
      String.toList_append, String.toList_append]
    exact (hname.call (hscans _)).scans

/-! ### Lists -/

/-- A sequence is a chain of the operator that its separator stands for. -/
theorem joinWith {separator : String} {parts : List Draft} {sketches : List Sketch}
    (hseparator : Separates d separator.toList (Lexeme.spelled symbol))
    (h : List.Forall₂ (Spells d write) parts sketches) :
    Spells d write (Draft.joinWith separator parts) (.chain symbol sketches) := by
  cases h with
  | nil => exact empty
  | cons hx hrest =>
    rename_i x a parts sketches
    -- The draft is put together from the right and the term from the left.
    induction hrest generalizing x a with
    | nil => exact hx
    | cons hy _ ih =>
      rw [joinWith_cons_cons]
      exact ih (hx.separated hseparator hy)

theorem list {parts : List Draft} {sketches : List Sketch}
    (h : List.Forall₂ (Spells d write) parts sketches) :
    Spells d write (Draft.list parts) (.chain "," sketches) := joinWith separates_comma h

/-- Operands put together by a dialect. -/
theorem concatenation (dialect : Dialect) {parts : List Draft} {sketches : List Sketch}
    (h : List.Forall₂ (Spells d write) parts sketches) :
    Spells d write (.concatenation dialect parts) (.concatenation dialect sketches) := by
  have hname : Scans d "concat".toList [.operand "concat"] := scans_word rfl (by decide) rfl
  have hpairwise : Spells d write (Draft.concatenation.pairwise parts)
      (Sketch.concatenation.pairwise sketches) := by
    induction h with
    | nil => exact text (scans_quoted d (t := "") rfl)
    | cons hx hrest ih =>
      cases hrest with
      | nil => exact hx
      | cons hy hrest => exact call hname (hx.arguments ih)
  have hplus : Separates d " + ".toList (Lexeme.spelled "+") :=
    separates_operator (by decide : 2 < binaryLevel "+")
  have hbars : Separates d " || ".toList (Lexeme.spelled "||") :=
    separates_operator (by decide : 2 < binaryLevel "||")
  cases dialect with
  | sqlServer | oledb => exact joinWith hplus h
  | mySql | postgreSql => exact call hname (list h)
  | sqlite | other => exact joinWith hbars h
  | oracle => exact hpairwise

end Draft.Spells

/-! ## Levels -/

namespace Sketch

/-- Whether a sketch is an operand at a level that respects the levels itself, exactly under a
condition. -/
def Fits (k : Nat) (a : Sketch) (condition : Bool) : Prop :=
  ∀ index, k ≤ (a.term index).level ∧ (a.term index).Levelled ↔ condition = true

namespace Fits

variable {k : Nat} {a b : Sketch} {p q : Bool} {symbol : String}

theorem leaf {t : Term} (hlevel : k ≤ t.level) (h : t.Levelled) : Fits k (leaf t) true :=
  fun _ => iff_of_true ⟨hlevel, h⟩ rfl

theorem constant (write : Writer) (v : Value) (hk : k ≤ 8) : Fits k (constant write v) true := by
  unfold Sketch.constant
  split
  · exact leaf (Nat.le_succ_of_le hk) trivial
  · exact fun index => iff_of_true
      ⟨Nat.le_trans hk (Term.le_level_ofConstant _), Term.levelled_ofConstant _⟩ rfl

/-- A sketch that binds tightly enough is an operand where it respects the levels itself. -/
theorem of_level (h : Fits 0 a p) (hlevel : ∀ index, k ≤ (a.term index).level) : Fits k a p :=
  fun index => by
    rw [← h index]
    exact and_congr_left fun _ => iff_of_true (hlevel index) (Nat.zero_le _)

/-- Parentheses make an operand of anything. -/
theorem group (h : Fits 0 a p) (hk : k ≤ 9) : Fits k a.group p := fun index => by
  rw [← h index]
  exact and_congr_left fun _ => iff_of_true hk (Nat.zero_le _)

theorem call (function : String) (h : Fits 0 a p) (hk : k ≤ 9) :
    Fits k (call function a) p := h.group hk

/-- An operator in front of its operand demands its own level of it. -/
theorem unary (hpos : 0 < unaryLevel symbol) (h : Fits (unaryLevel symbol) a p)
    (hk : k ≤ unaryLevel symbol) : Fits k (unary symbol a) p := fun index => by
  rw [← h index]
  exact ⟨fun hunary => hunary.2.2, fun hoperand => ⟨hk, hpos, hoperand⟩⟩

/-- An operator between operands demands its own level of the operand on its left, and more of the
other. -/
theorem binary (hpos : 0 < binaryLevel symbol) (ha : Fits (binaryLevel symbol) a p)
    (hb : Fits (binaryLevel symbol + 1) b q) (hk : k ≤ binaryLevel symbol) :
    Fits k (binary symbol a b) (p && q) := fun index => by
  rw [Bool.and_eq_true, ← ha index, ← hb (index + a.count)]
  constructor
  · rintro ⟨-, -, hleft, hright, hlevelled, hlevelled'⟩
    exact ⟨⟨hleft, hlevelled⟩, hright, hlevelled'⟩
  · rintro ⟨⟨hleft, hlevelled⟩, hright, hlevelled'⟩
    exact ⟨hk, hpos, hleft, hright, hlevelled, hlevelled'⟩

/-- Operators of a chain are applied from the left. -/
theorem foldl (hpos : 0 < binaryLevel symbol) {rest : List Sketch} {conditions : List Bool}
    (ha : ∀ m ≤ binaryLevel symbol, Fits m a p)
    (hrest : List.Forall₂ (Fits (binaryLevel symbol + 1)) rest conditions)
    (hk : k ≤ binaryLevel symbol) :
    Fits k (rest.foldl (Sketch.binary symbol) a) (p && conditions.all id) := by
  induction hrest generalizing a p with
  | nil =>
    rw [List.all_nil, Bool.and_true]
    exact ha k hk
  | cons hb _ ih =>
    rw [List.foldl_cons, List.all_cons, ← Bool.and_assoc]
    exact ih fun m hm => binary hpos (ha _ (Nat.le_refl _)) hb hm

/-- A list of operands that bind more tightly than its commas. -/
theorem chain {sketches : List Sketch} {conditions : List Bool} (hk : k ≤ 1)
    (h : List.Forall₂ (fun a p => ∀ m ≤ 3, Fits m a p) sketches conditions) :
    Fits k (chain "," sketches) (conditions.all id) := by
  have hcomma : 0 < binaryLevel "," := by decide
  cases h with
  | nil => exact leaf hk trivial
  | cons ha hrest =>
    exact foldl hcomma (fun m hm => ha m (Nat.le_succ_of_le hm))
      (hrest.imp fun _ _ hb => hb _ (Nat.le_refl _)) (Nat.le_succ_of_le hk)

end Fits

end Sketch

end DialectSql
