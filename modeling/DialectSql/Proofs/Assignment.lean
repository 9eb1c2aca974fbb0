import DialectSql.Proofs.Call

/-!
# Assignments in writing

An assignment is an item of the SET list of an UPDATE, or a column and a value in the two lists of
an INSERT. Both are made of the same value, so they agree in the text, in the parameters and in the
failure if there is one. A datetime outside of the range of the configuration is written as NULL in
both, and nothing is bound for it.

## Main definitions

* `Assignment.item` — an item of a SET list from its column and its value
* `Context.WritesNull` — assignments that are written as NULL and bind nothing

## Main results

* `DateTime.le_refl`, `DateTime.le_trans` — datetimes are ordered
* `Context.columnAndValue_eq`, `Context.render_assignment_eq` — the two forms of an assignment
* `Context.writesNull_dateTime_iff` — which datetimes are written as NULL
* `Context.render_assignment` — the two forms agree
-/

namespace DialectSql

/-! ## The order of datetimes -/

theorem lexLe_refl : ∀ xs : List Int, lexLe xs xs = true
  | [] => rfl
  | x :: xs => by
    rw [lexLe, lexLe_refl xs]
    simp

/-- Lists of numbers of one length are ordered transitively. -/
theorem lexLe_trans : ∀ {xs ys zs : List Int}, xs.length = ys.length → ys.length = zs.length →
    lexLe xs ys = true → lexLe ys zs = true → lexLe xs zs = true
  | [], [], [], _, _, _, _ => rfl
  | x :: xs, y :: ys, z :: zs, hxy, hyz, hle, hle' => by
    simp only [lexLe, Bool.or_eq_true, Bool.and_eq_true, decide_eq_true_eq, beq_iff_eq] at *
    rcases hle with hlt | ⟨rfl, hle⟩
    · rcases hle' with hlt' | ⟨rfl, -⟩
      · exact .inl (Int.lt_trans hlt hlt')
      · exact .inl hlt
    · rcases hle' with hlt' | ⟨rfl, hle'⟩
      · exact .inl hlt'
      · exact .inr ⟨rfl, lexLe_trans (Nat.succ.inj hxy) (Nat.succ.inj hyz) hle hle'⟩

namespace DateTime

theorem le_refl (t : DateTime) : t.le t = true := lexLe_refl t.numbers

theorem le_trans {s t u : DateTime} (hst : s.le t = true) (htu : t.le u = true) :
    s.le u = true := by
  -- Every datetime has the same numbers, from the year to the nanosecond.
  have hlength : s.numbers.length = t.numbers.length ∧ t.numbers.length = u.numbers.length :=
    ⟨rfl, rfl⟩
  exact lexLe_trans hlength.1 hlength.2 hst htu

end DateTime

namespace Assignment

/-- An item of a SET list from its column and its value: an increment is added to the column. -/
def item (a : Assignment) (column value : String) : String :=
  column ++ " = " ++ if a.value.isIncrement then column ++ " + " ++ value else value

end Assignment

namespace Context

variable (c : Context) (a : Assignment)

/-- Whether an assignment is written as NULL and nothing is bound for it. -/
def WritesNull : Prop := ∃ column, c.columnAndValue a = (.ok (column, "NULL"), c)

/-! ## The two forms -/

theorem place_changeName (name : String) :
    c.place (c.setting.changeName name) = (c.changeIdentifier name, c) := by
  unfold Setting.changeName changeIdentifier Dialect.quoteChangeIdentifier
  split
  · exact c.place_piece rfl
  · exact c.place_piece rfl

/-- The column of an assignment is an identifier, and its value is written behind. -/
theorem columnAndValue_eq : c.columnAndValue a =
    ((c.write (a.valueDraft c.setting)).1.map (c.changeIdentifier a.column.name, ·),
      (c.write (a.valueDraft c.setting)).2) := by
  simp only [columnAndValue, Assignment.pair, Assignment.columnDraft, place_changeName]

/-- What stands in front of a draft is written in front of what it is written as. -/
theorem write_append_of_place {front : Draft} {t : String} (hfront : front.failure = none)
    (h : c.place front = (t, c)) (draft : Draft) :
    c.write (front ++ draft) = ((c.write draft).1.map (t ++ ·), (c.write draft).2) := by
  rw [write_append, write_eq_ok_iff.mpr ⟨hfront, h⟩]

/-- An item of a SET list is the column with the value behind it. -/
theorem render_assignment_eq : c.render a =
    ((c.write (a.valueDraft c.setting)).1.map (a.item (c.changeIdentifier a.column.name)),
      (c.write (a.valueDraft c.setting)).2) := by
  have hcolumn : (a.columnDraft c.setting).failure = none := rfl
  have hdraft : Drafted.draft a c.setting = a.draft c.setting := rfl
  rw [render, hdraft, Assignment.draft_eq_ite, Draft.append_assoc,
    c.write_append_of_place hcolumn (c.place_changeName _),
    c.write_append_of_place rfl (c.place_text " = ")]
  unfold Assignment.item
  split
  · rw [Draft.append_assoc, c.write_append_of_place hcolumn (c.place_changeName _),
      c.write_append_of_place rfl (c.place_text " + ")]
    cases (c.write (a.valueDraft c.setting)).1 <;> simp [Except.map, String.append_assoc]
  · cases (c.write (a.valueDraft c.setting)).1 <;> simp [Except.map, String.append_assoc]

/-! ## Datetimes -/

/-- A datetime is written as NULL and binds nothing exactly if it is outside of the range. -/
theorem writesNull_dateTime_iff (column : Field) (t : DateTime) :
    c.WritesNull ⟨column, .dateTime t⟩ ↔ c.setting.config.inRange t = false := by
  unfold WritesNull
  rw [columnAndValue_eq]
  have hdraft : (⟨column, .dateTime t⟩ : Assignment).valueDraft c.setting =
      if c.setting.config.inRange t then .piece (.value (.dateTime t)) else .text "NULL" := rfl
  rw [hdraft]
  cases c.setting.config.inRange t with
  | false =>
    refine iff_of_true ⟨c.changeIdentifier column.name, ?_⟩ rfl
    rw [if_neg Bool.false_ne_true, write_eq_ok_iff.mpr ⟨rfl, c.place_text "NULL"⟩]
    rfl
  | true =>
    refine iff_of_false ?_ Bool.noConfusion
    rintro ⟨name, hnull⟩
    obtain ⟨⟨d, config, mode, depth⟩, parameters⟩ := c
    cases mode with
    | inline =>
      have hliteral : "'" ++ t.literalText ++ "'" = "NULL" := by
        have hpair := (Prod.mk.inj hnull).1
        simp only [write, place, Draft.piece, Draft.literalText, Piece.literalText, Value.literal,
          Except.map] at hpair
        exact (Prod.mk.inj (Except.ok.inj hpair)).2
      -- The literal begins with a quote.
      have hhead := congrArg (·.toList.head?) hliteral
      simp at hhead
    | bound =>
      -- There is one parameter more.
      have hparameters := congrArg (·.2.parameters.length) hnull
      simp [write, place, Draft.piece, Draft.constants, Piece.value?] at hparameters

/-- All datetimes are written as NULL exactly if the range is inverted. -/
theorem forall_writesNull_dateTime_iff (column : Field) :
    (∀ t, c.WritesNull ⟨column, .dateTime t⟩) ↔
      c.setting.config.earliest.le c.setting.config.latest = false := by
  simp only [writesNull_dateTime_iff]
  constructor
  · intro hall
    have hearliest := hall c.setting.config.earliest
    rwa [Config.inRange, DateTime.le_refl, Bool.true_and] at hearliest
  · intro hinverted t
    by_contra hrange
    rw [Bool.not_eq_false, Config.inRange, Bool.and_eq_true] at hrange
    rw [DateTime.le_trans hrange.1 hrange.2] at hinverted
    cases hinverted

/-! ## Agreement -/

/-- In an UPDATE and in an INSERT an assignment is written alike, in every context: as an item of a
SET list it is the column of the INSERT with the value of the INSERT behind it, where an increment
repeats the column. If one fails the other fails with the same error, and both leave the same
parameters. A datetime is written as NULL and binds nothing exactly if it is before the earliest or
behind the latest datetime of the configuration, and so all datetimes are if the range is inverted,
and only then. -/
theorem render_assignment :
    c.render a = ((c.columnAndValue a).1.map (fun (column, value) => a.item column value),
      (c.columnAndValue a).2) ∧
    (∀ column t, c.WritesNull ⟨column, .dateTime t⟩ ↔
      c.setting.config.earliest.le t = false ∨ t.le c.setting.config.latest = false) ∧
    ∀ column, (∀ t, c.WritesNull ⟨column, .dateTime t⟩) ↔
      c.setting.config.earliest.le c.setting.config.latest = false := by
  refine ⟨?_, fun column t => ?_, c.forall_writesNull_dateTime_iff⟩
  · rw [render_assignment_eq, columnAndValue_eq]
    cases (c.write (a.valueDraft c.setting)).1 <;> rfl
  · rw [writesNull_dateTime_iff, Config.inRange, Bool.and_eq_false_iff]

end Context

end DialectSql
