import DialectSql.Proofs.Call
import DialectSql.Proofs.Nesting.Pieces

/-!
# Nesting of joins

A chain of joins is written without parentheses and read from the left, and a join on the right of
another one is kept together by parentheses. So the text of a join of tables tells how it is nested:
a reader who keeps what stands open on a stack finds the join again, but for the storing orders of
the tables, which are never written.

## Main definitions

* `Source.JoinsTables` — joins of tables on the equality of columns
* `Source.withoutOrders` — a join of tables without storing orders
* `JoinReader.step` — one step of a reader of such joins
* `Source.read` — the join of tables that a text stands for

## Main results

* `Source.JoinsTables.isTold` — the pieces of a join of tables can be told from its text
* `Source.JoinsTables.run_draft` — a reader goes from the start of a join of tables behind it
* `Source.JoinsTables.read_literalText` — the text of a join of tables is read as that join
* `Source.text_eq_iff` — joins of tables with one text are nested alike
-/

namespace DialectSql

/-! ## Joins of tables -/

/-- The condition that two columns are equal. -/
def Criteria.equating (left right : Field) : Criteria :=
  .expression (.eq (.ofField left) (.ofField right))

/-- Two columns are compared by an operator in every dialect. -/
theorem Criteria.draft_equating (left right : Field) (s : Setting) :
    (equating left right).draft s = left.draft ++ .text " = " ++ right.draft := by
  -- A column is no constant, so nothing else stands for the comparison.
  change (if s.dialect = .sqlServer then Expression.plainComparison .equal left.draft right.draft
    else Expression.plainComparison .equal left.draft right.draft) = _
  rw [ite_self]
  rfl

namespace Source

/-- Single tables, and joins of them on the equality of two columns with their sources. The
predicate holds of all names. -/
inductive JoinsTables (N : String → Prop) : Source → Prop
  | table {t : Table} (hname : N t.name) (halias : ∀ name ∈ t.alias?, N name) :
    JoinsTables N (.single (.table t))
  | joined {kind : JoinKind} {left right : Source} {s n t m : String}
    (hleft : JoinsTables N left) (hright : JoinsTables N right)
    (hnames : ∀ name ∈ [s, n, t, m], N name) :
    JoinsTables N (.joined kind left right (.equating ⟨n, some s⟩ ⟨m, some t⟩))

/-- A join of tables without the orders in which the tables are stored. -/
def withoutOrders : Source → Source
  | single (.table t) => single (.table { t with storingOrder := [] })
  | single r => single r
  | joined kind left right on => joined kind left.withoutOrders right.withoutOrders on

@[simp] theorem isJoined_withoutOrders (a : Source) : a.withoutOrders.isJoined = a.isJoined := by
  cases a with
  | single r => cases r <;> rfl
  | joined => rfl

/-- Storing orders are not written. -/
theorem draft_withoutOrders (s : Setting) : ∀ a : Source, a.withoutOrders.draft s = a.draft s
  | single (.table _) | single (.select _ _) | single (.set _ _) => rfl
  | joined kind left right on => by
    rw [withoutOrders, draft, draft, isJoined_withoutOrders, draft_withoutOrders s left,
      draft_withoutOrders s right]

/-- The right side of a join, in parentheses if it is a join itself. -/
def sideDraft (s : Setting) (r : Source) : Draft :=
  if r.isJoined then (r.draft s).parens else r.draft s

theorem draft_joined (s : Setting) (kind : JoinKind) (left right : Source) (on : Criteria) :
    (joined kind left right on).draft s =
      left.draft s ++ .text (" " ++ kind.symbol ++ " ") ++ right.sideDraft s ++
        .text " ON " ++ on.draft s := by
  rw [draft, sideDraft]

namespace JoinsTables

variable {N : String → Prop} {a : Source}

/-- There are no subqueries whose orders could be implied. -/
theorem implyOrders_eq (h : a.JoinsTables N) : a.implyOrders = a := by
  induction h with
  | table => rfl
  | joined _ _ _ ihleft ihright =>
    rw [implyOrders, ihleft, ihright]
    rfl

theorem drafted_eq (h : a.JoinsTables N) (s : Setting) : Drafted.draft a s = a.draft s := by
  change (if s.numbersRows then a.implyOrders else a).draft s = a.draft s
  rw [h.implyOrders_eq, ite_self]

/-- A join of tables has the same pieces in every setting. -/
theorem draft_eq (h : a.JoinsTables N) (s s' : Setting) : a.draft s = a.draft s' := by
  induction h with
  | table => rfl
  | joined _ _ _ ihleft ihright =>
    rw [draft_joined, draft_joined, sideDraft, sideDraft, ihleft, ihright,
      Criteria.draft_equating, Criteria.draft_equating]

end JoinsTables

end Source

/-! ## Telling pieces apart -/

namespace Source.JoinsTables

variable {d : Dialect} {a : Source}

/-- The names in a condition can be told from its text. -/
theorem isTold_equating {s n t m : String}
    (h : ∀ name ∈ [s, n, t, m], d.identifierQuotes.2 ∉ name.toList) (setting : Setting) :
    ((Criteria.equating ⟨n, some s⟩ ⟨m, some t⟩).draft setting).IsTold d := by
  simp only [List.forall_mem_cons] at h
  obtain ⟨hs, hn, ht, hm, -⟩ := h
  have hleft : (Field.draft ⟨n, some s⟩).IsTold d :=
    (Draft.IsTold.quoted hs).separated rfl (by decide) (.quoted hn)
  have hright : (Field.draft ⟨m, some t⟩).IsTold d :=
    (Draft.IsTold.quoted ht).separated rfl (by decide) (.quoted hm)
  rw [Criteria.draft_equating]
  exact hleft.separated rfl (by decide) hright

theorem isTold_sideDraft {s : Setting} (h : (a.draft s).IsTold d) : (a.sideDraft s).IsTold d := by
  unfold sideDraft
  split
  · exact h.parens
  · exact h

/-- The pieces of a join of tables can be told from its text. -/
theorem isTold (h : a.JoinsTables fun name => d.identifierQuotes.2 ∉ name.toList) (s : Setting) :
    (a.draft s).IsTold d := by
  induction h with
  | @table t hname halias =>
    change t.draft.IsTold d
    obtain ⟨name, alias?, orders⟩ := t
    cases alias? with
    | none => exact .quoted hname
    | some symbol =>
      exact (Draft.IsTold.quoted hname).separated rfl (by decide) (.quoted (halias symbol rfl))
  | @joined kind _ _ _ _ _ _ _ _ hnames ihleft ihright =>
    have hplain : Text.isPlain (" " ++ kind.symbol ++ " ") = true := by cases kind <;> decide
    have hne : " " ++ kind.symbol ++ " " ≠ "" := by cases kind <;> decide
    rw [draft_joined]
    exact (ihleft.separated hplain hne (isTold_sideDraft ihright)).separated rfl (by decide)
      (isTold_equating hnames s)

end Source.JoinsTables

/-! ## Reading -/

/-- What stands open around the place of reading. -/
inductive JoinReader.Opening
  /-- A parenthesis. -/
  | parenthesis
  /-- A join of which the right side or the condition is read. -/
  | join (left : Source) (kind : JoinKind)

/-- What has been read behind that. -/
inductive JoinReader.Place
  /-- Nothing. -/
  | start
  /-- A source. -/
  | source (r : Source)
  /-- The right side of a join, and names in its condition. -/
  | condition (right : Source) (names : List String)

/-- A reader of joins of tables. -/
structure JoinReader where
  /-- What stands open, the innermost first. -/
  openings : List JoinReader.Opening
  /-- What has been read behind that. -/
  place : JoinReader.Place

/-- The kind of join that some words stand for. -/
def JoinKind.ofWords? (words : String) : Option JoinKind :=
  (Named.all : List JoinKind).find? fun kind => " " ++ kind.symbol ++ " " == words

namespace JoinReader

/-- Words behind a source: those in front of an alias or of a condition, or those of a join. -/
def behindSource (openings : List Opening) (r : Source) (words : String) : Option JoinReader :=
  if words = " " then some ⟨openings, .source r⟩
  else if words = " ON " then some ⟨openings, .condition r []⟩
  -- What was read so far is the left side of the join.
  else (JoinKind.ofWords? words).map fun kind => ⟨.join r kind :: openings, .start⟩

/-- A reader behind one more piece. The fourth name of a condition ends a join, and then the join is
the source that was read. -/
def step : JoinReader → Piece → Option JoinReader
  | ⟨openings, .start⟩, .quoted name => some ⟨openings, .source (.ofTable name)⟩
  | ⟨openings, .start⟩, .opening => some ⟨.parenthesis :: openings, .start⟩
  | ⟨openings, .source (.single (.table t))⟩, .quoted name =>
    some ⟨openings, .source (.ofTableAs t.name name)⟩
  | ⟨openings, .source r⟩, .text words => behindSource openings r words
  | ⟨.parenthesis :: openings, .source r⟩, .closing => some ⟨openings, .source r⟩
  | ⟨.join left kind :: openings, .condition right [s, n, t]⟩, .quoted m =>
    some ⟨openings, .source (.joined kind left right (.equating ⟨n, some s⟩ ⟨m, some t⟩))⟩
  | ⟨openings, .condition right names⟩, .quoted name =>
    some ⟨openings, .condition right (names ++ [name])⟩
  | ⟨openings, .condition right names⟩, .text _ => some ⟨openings, .condition right names⟩
  | _, _ => none

/-- A reader behind some more pieces. -/
def run (reader : JoinReader) (pieces : List Piece) : Option JoinReader := pieces.foldlM step reader

variable {openings : List Opening} {r : Source} {x : Draft}

/-! ### Steps -/

theorem step_text (words : String) :
    step ⟨openings, .source r⟩ (.text words) = behindSource openings r words := by
  rcases r with (_ | _ | _) | _ <;> rfl

theorem step_closing :
    step ⟨.parenthesis :: openings, .source r⟩ .closing = some ⟨openings, .source r⟩ := by
  rcases r with (_ | _ | _) | _ <;> rfl

/-- The words of a join are told from those in front of an alias or a condition. -/
theorem behindSource_symbol (kind : JoinKind) :
    behindSource openings r (" " ++ kind.symbol ++ " ") =
      some ⟨.join r kind :: openings, .start⟩ := by
  cases kind <;> rfl

/-! ### Runs -/

theorem run_append (reader : JoinReader) (hx : x.failure = none) (y : Draft) :
    reader.run (x ++ y).pieces = (reader.run x.pieces).bind (·.run y.pieces) := by
  rw [Draft.append_of_success hx]
  exact List.foldlM_append

theorem run_piece (reader : JoinReader) (p : Piece) :
    reader.run (Draft.piece p).pieces = reader.step p := by
  simp [run, Draft.piece]

/-- Words between two drafts are one step between them. -/
theorem run_separated (reader : JoinReader) (hx : x.failure = none) (words : String) (y : Draft) :
    reader.run (x ++ .text words ++ y).pieces =
      ((reader.run x.pieces).bind (·.step (.text words))).bind (·.run y.pieces) := by
  rw [run_append _ (Draft.failure_append_text hx words), run_append _ hx]
  simp only [Draft.text, run_piece]

/-- Behind a parenthesis a reader starts again. -/
theorem run_parens (hx : x.failure = none) :
    run ⟨openings, .start⟩ x.parens.pieces =
      (run ⟨.parenthesis :: openings, .start⟩ x.pieces).bind (·.step .closing) := by
  rw [Draft.parens, run_append _ (Draft.failure_opening_append hx), run_append _ rfl]
  simp only [run_piece]
  rfl

/-- A condition ends the join that stands open. -/
theorem run_equating (left : Source) (kind : JoinKind) (s n t m : String) (setting : Setting) :
    run ⟨.join left kind :: openings, .condition r []⟩
        ((Criteria.equating ⟨n, some s⟩ ⟨m, some t⟩).draft setting).pieces =
      some ⟨openings, .source (.joined kind left r (.equating ⟨n, some s⟩ ⟨m, some t⟩))⟩ := by
  rw [Criteria.draft_equating]
  rfl

/-- The right side of a join is read as it is, with parentheses or without. -/
theorem run_sideDraft {a : Source} {s : Setting} (hsuccess : (a.draft s).failure = none)
    (h : ∀ openings, run ⟨openings, .start⟩ (a.draft s).pieces = some ⟨openings, .source r⟩) :
    run ⟨openings, .start⟩ (a.sideDraft s).pieces = some ⟨openings, .source r⟩ := by
  unfold Source.sideDraft
  split
  · rw [run_parens hsuccess, h, Option.bind_some, step_closing]
  · exact h openings

end JoinReader

namespace Source

variable {d : Dialect} {a b : Source}

open JoinReader in
/-- A reader goes from the start of a join of tables behind it, whatever stands open around it. -/
theorem JoinsTables.run_draft (h : a.JoinsTables fun name => d.identifierQuotes.2 ∉ name.toList)
    (s : Setting) (openings : List Opening) :
    run ⟨openings, .start⟩ (a.draft s).pieces = some ⟨openings, .source a.withoutOrders⟩ := by
  induction h generalizing openings with
  | @table t _ _ =>
    obtain ⟨name, alias?, orders⟩ := t
    cases alias? <;> rfl
  | @joined kind left right _ _ _ _ hleft hright hnames ihleft ihright =>
    have hsuccess := (hleft.isTold s).success
    have hside := isTold_sideDraft (hright.isTold s)
    have hsides : (left.draft s ++ .text (" " ++ kind.symbol ++ " ") ++
        right.sideDraft s).failure = none := by
      rw [Draft.failure_append, Draft.failure_append, hsuccess, hside.success]
      rfl
    -- The left side is read first. It waits on the stack until the condition ends the join.
    rw [draft_joined, run_separated _ hsides, run_separated _ hsuccess, ihleft, Option.bind_some,
      step_text, behindSource_symbol, Option.bind_some,
      run_sideDraft (hright.isTold s).success ihright, Option.bind_some, step_text]
    exact run_equating ..

/-- The join of tables that a text stands for. -/
def read (d : Dialect) (t : String) : Option Source :=
  match JoinReader.run ⟨[], .start⟩ (Text.pieces d t) with
  | some ⟨[], .source r⟩ => some r
  | _ => none

/-- The text of a join of tables is read as that join. -/
theorem JoinsTables.read_literalText
    (h : a.JoinsTables fun name => d.identifierQuotes.2 ∉ name.toList) (s : Setting) :
    read d ((a.draft s).literalText d) = some a.withoutOrders := by
  rw [read, (h.isTold s).pieces_literalText, h.run_draft]

/-- A join of tables is written, with one text in every context of a dialect. -/
theorem JoinsTables.render_eq (s : Setting)
    (h : a.JoinsTables fun name => d.identifierQuotes.2 ∉ name.toList) {c : Context}
    (hc : c.setting.dialect = d) : c.render a = (.ok ((a.draft s).literalText d), c) := by
  have htold := h.isTold c.setting
  rw [Context.render, h.drafted_eq, h.draft_eq s c.setting]
  refine Context.write_eq_ok_iff.mpr ⟨htold.success, ?_⟩
  rw [c.place_of_constants_eq_nil htold.constants, hc]

/-- Joins of tables are written in every context of a dialect, with literals or with placeholders,
and their text is read as the join that it was written for. So two of them have one text exactly if
they are the same but for storing orders: the kinds of joins, how these are nested, the tables with
their aliases, and the conditions. No name may have the closing quote of the dialect, which is no
letter and no digit. -/
theorem text_eq_iff (ha : a.JoinsTables fun name => d.identifierQuotes.2 ∉ name.toList)
    (hb : b.JoinsTables fun name => d.identifierQuotes.2 ∉ name.toList) :
    ∃ text text' : String,
      (∀ c : Context, c.setting.dialect = d →
        c.render a = (.ok text, c) ∧ c.render b = (.ok text', c)) ∧
      read d text = some a.withoutOrders ∧ read d text' = some b.withoutOrders ∧
      (text = text' ↔ a.withoutOrders = b.withoutOrders) := by
  have hreada := ha.read_literalText (.outermost d .standard .inline)
  have hreadb := hb.read_literalText (.outermost d .standard .inline)
  refine ⟨_, _, fun c hc => ⟨ha.render_eq _ hc, hb.render_eq _ hc⟩, hreada, hreadb, ?_⟩
  constructor
  · intro htext
    rw [htext, hreadb] at hreada
    exact (Option.some.inj hreada).symm
  · intro hsame
    rw [← draft_withoutOrders _ a, hsame, draft_withoutOrders]

/-- A join on the right of another one. -/
def joinOnRight : Source :=
  (ofTable "A").join .left
    ((ofTableAs "B" "b").join .inner (ofTable "C") (.equating ⟨"x", some "b"⟩ ⟨"y", some "C"⟩))
    (.equating ⟨"x", some "A"⟩ ⟨"z", some "b"⟩)

example : renderInline joinOnRight .postgreSql .standard = .ok ("\"A\" LEFT JOIN (\"B\" \"b\" " ++
    "INNER JOIN \"C\" ON \"b\".\"x\" = \"C\".\"y\") ON \"A\".\"x\" = \"b\".\"z\"") := rfl

/-- The same tables and conditions in a chain of joins. -/
def joinOnLeft : Source :=
  ((ofTable "A").join .left (ofTableAs "B" "b") (.equating ⟨"x", some "A"⟩ ⟨"z", some "b"⟩)).join
    .inner (ofTable "C") (.equating ⟨"x", some "b"⟩ ⟨"y", some "C"⟩)

/-- A join on the right is not regrouped. -/
theorem text_eq_iff_joinOnRight :
    ∃ text text' : String,
      renderInline joinOnRight .postgreSql .standard = .ok text ∧
      renderInline joinOnLeft .postgreSql .standard = .ok text' ∧ text ≠ text' := by
  have htable : ∀ name, '"' ∉ name.toList →
      (ofTable name).JoinsTables fun name => '"' ∉ name.toList :=
    fun name h => .table h (by simp [Table.ofName])
  have halias : (ofTableAs "B" "b").JoinsTables fun name => '"' ∉ name.toList :=
    .table (by decide) (by decide)
  obtain ⟨text, text', hrender, -, -, hsame⟩ := text_eq_iff (d := .postgreSql)
    (a := joinOnRight) (b := joinOnLeft)
    (.joined (htable "A" (by decide)) (.joined halias (htable "C" (by decide)) (by decide))
      (by decide))
    (.joined (.joined (htable "A" (by decide)) halias (by decide)) (htable "C" (by decide))
      (by decide))
  obtain ⟨hright, hleft⟩ := hrender (.start .postgreSql .standard .inline) rfl
  refine ⟨text, text', congrArg Prod.fst hright, congrArg Prod.fst hleft, fun heq => ?_⟩
  -- One join has a single table on its left side, and the other one has not.
  cases hsame.mp heq

end Source

end DialectSql
