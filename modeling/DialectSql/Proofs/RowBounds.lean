import DialectSql.Proofs.NaturalOrder
import DialectSql.Proofs.RowBounds.Wrapper

/-!
# Bounds of rows

Each dialect limits rows in its own way, but all of them return the same rows of a query: those
behind the skipped ones, and no more of them than the limit. Numbers of rows have 64 bits. A sum of
skipped rows and limit that is larger is cut off, and there is no row so far behind.

The only exception is the limit of a query without skipped rows where the row pseudo-column stands
among literals: there the rows are counted before they are ordered.

## Main definitions

* `RowLimiting.rowBounds` — the bounds by which a strategy skips and limits rows
* `Part.Within` — queries that state some bounds, whatever stands behind them
* `Query.CountsOrdered` — the queries whose limit counts rows in their order

## Main results

* `Dialect.admits_rowBounds` — the rows within the bounds of any dialect
* `Query.states_pagedDraft`, `Query.within_clausesDraft` — the bounds that a query states
* `Query.admits_iff_drafted` — the rows of a query
-/

namespace DialectSql

open Text Draft DialectSql.Part

/-! ## Strategies -/

/-- The number of rows that a clause skips, and its limit. A negative count is no limit. -/
def LimitClause.bounds : LimitClause → Nat × Option Nat
  | absent => (0, none)
  | limit take => (0, some take.toNat)
  | limitComma skip count => (skip.toNat, if count < 0 then none else some count.toNat)
  | limitOffset take skip => (skip.toNat, some take.toNat)
  | offset skip => (skip.toNat, none)

/-- The bounds by which a strategy skips and limits rows. -/
def RowLimiting.rowBounds (p : RowLimiting) (skip take : Option UInt64) : RowBounds :=
  match p.limitClause? skip take with
  | some clause => ⟨0, none, clause.bounds.1, clause.bounds.2⟩
  | none =>
    if p = .numbering then ⟨(skip.getD 0).toNat, none, 0, take.map (·.toNat)⟩
    else ⟨(skip.getD 0).toNat, take.map (rowCap (skip.getD 0)), 0, none⟩

namespace RowBounds

variable {row : Nat}

/-- The rows behind some of them, with a limit, are counted from the first of them on. -/
theorem admits_above {skip : Nat} {take : Option Nat} :
    (⟨skip, none, 0, take⟩ : RowBounds).Admits row ↔
      skip < row ∧ ∀ count ∈ take, row - skip ≤ count := by
  rw [admits_iff]
  dsimp only
  simp only [Nat.zero_add]
  constructor
  · rintro ⟨habove, -, -, hcount⟩
    exact ⟨habove, hcount⟩
  · rintro ⟨habove, hcount⟩
    exact ⟨habove, fun _ hlast => absurd hlast (Option.not_mem_none _), Nat.sub_pos_of_lt habove,
      hcount⟩

/-- It is the same whether rows are left out by their numbers or skipped. -/
theorem admits_offset {skip : Nat} {take : Option Nat} :
    (⟨0, none, skip, take⟩ : RowBounds).Admits row ↔
      skip < row ∧ ∀ count ∈ take, row - skip ≤ count := by
  rw [admits_iff]
  dsimp only
  simp only [Nat.sub_zero, ← Nat.sub_le_iff_le_add']
  constructor
  · rintro ⟨-, -, hskip, hcount⟩
    exact ⟨hskip, hcount⟩
  · rintro ⟨hskip, hcount⟩
    exact ⟨Nat.zero_lt_of_lt hskip, fun _ hlast => absurd hlast (Option.not_mem_none _), hskip,
      hcount⟩

/-- The number of the last row may be cut off, because no row has a larger one. -/
theorem admits_rowCap {skip : UInt64} {take : Option UInt64} (hrow : row < UInt64.size) :
    (⟨skip.toNat, take.map (rowCap skip), 0, none⟩ : RowBounds).Admits row ↔
      skip.toNat < row ∧ ∀ count ∈ take, row - skip.toNat ≤ count.toNat := by
  -- Where the sum has been cut off, every row is in front of it and of the largest number.
  have hcap : ∀ count : UInt64, row ≤ rowCap skip count ↔ row - skip.toNat ≤ count.toNat := by
    intro count
    rw [rowCap, Nat.le_min]
    omega
  rw [admits_iff]
  dsimp only
  constructor
  · rintro ⟨habove, hlast, -, -⟩
    refine ⟨habove, fun n htake => (hcap n).mp (hlast _ ?_)⟩
    exact Option.mem_map_of_mem _ htake
  · rintro ⟨habove, hcount⟩
    refine ⟨habove, fun last hlast => ?_, Nat.sub_pos_of_lt habove,
      fun _ hnone => absurd hnone (Option.not_mem_none _)⟩
    obtain ⟨n, htake, rfl⟩ := Option.map_eq_some_iff.mp hlast
    exact (hcap n).mpr (hcount n htake)

end RowBounds

/-- Whatever the strategy of a dialect is, the rows within its bounds are those behind the skipped
ones, up to the limit. -/
theorem Dialect.admits_rowBounds (d : Dialect) (skip take : Option UInt64) {row : Nat}
    (hrow : row < UInt64.size) :
    (d.rowLimiting.rowBounds skip take).Admits row ↔
      (skip.getD 0).toNat < row ∧ ∀ count ∈ take, row - (skip.getD 0).toNat ≤ count.toNat := by
  have hcounts : ∀ {m : Nat}, (∀ count ∈ take.map (·.toNat), m ≤ count) ↔
      ∀ count ∈ take, m ≤ count.toNat := by simp
  cases d with
  | sqlServer => exact RowBounds.admits_above.trans (and_congr_right fun _ => hcounts)
  | oracle => exact RowBounds.admits_rowCap hrow
  | postgreSql | oledb | other | sqlite =>
    rw [← hcounts, ← RowBounds.admits_offset]
    cases skip <;> cases take <;> rfl
  | mySql =>
    cases take with
    | some count =>
      rw [← hcounts, ← RowBounds.admits_offset]
      cases skip <;> rfl
    | none =>
      cases skip with
      | none =>
        rw [← hcounts, ← RowBounds.admits_offset]
        rfl
      -- Skipped rows come with a count, and the largest one stands for no limit.
      | some skip =>
        have hlargest : ∀ count ∈ some (UInt64.size - 1), row - skip.toNat ≤ count := by
          rintro _ ⟨⟩
          omega
        exact RowBounds.admits_offset.trans
          (and_congr_right fun _ => iff_of_true hlargest (by simp))

/-! ## Closing clauses -/

/-- What a closing clause shows is read as its bounds. -/
theorem limit_tokens_text (clause : LimitClause) :
    limit ((tokens clause.text).map .leaf) = clause.bounds := by
  have hlimit : ∀ n, tokens (" LIMIT " ++ natural n) = [.word "LIMIT", .word (natural n)] := by
    intro n
    rw [tokens_append_of_closesApart rfl, tokens_natural]
    rfl
  have hcomma : tokens "," = [.sign ','] := rfl
  have hminus : tokens "-" = [.sign '-'] := rfl
  have hoffset : tokens " OFFSET " = [.word "OFFSET"] := rfl
  cases clause with
  | absent => rfl
  | limit take =>
    rw [LimitClause.text, hlimit]
    simp [limit, LimitClause.bounds]
  | limitComma skip count =>
    rw [LimitClause.text, tokens_append_of_closesApart (closesApart_append rfl),
      tokens_append_of_opensApart rfl, hlimit, hcomma, integer, LimitClause.bounds]
    split
    -- A negative count shows its sign in place of a number.
    · rw [tokens_append_of_closesApart rfl, tokens_natural, hminus]
      simp [limit]
    · have hcount : count.natAbs = count.toNat := by omega
      rw [tokens_natural]
      simp [limit, hcount]
  | limitOffset take skip =>
    rw [LimitClause.text, tokens_append_of_closesApart (closesApart_append rfl),
      tokens_append_of_opensApart rfl, hlimit, hoffset, tokens_natural]
    simp [limit, LimitClause.bounds]
  | offset skip =>
    have hword : natural skip.toNat ∉ ["LIMIT"] := fun hmem =>
      natural_notMem _ ((by decide : ["LIMIT"] ⊆ "FROM" :: limitWords) hmem)
    have hnone : after "LIMIT" [.leaf (.word "OFFSET"), .leaf (.word (natural skip.toNat))] = [] :=
      after_of_lacks (.word (by decide) (.word hword .nil))
    rw [LimitClause.text, tokens_append_of_closesApart rfl, hoffset, tokens_natural]
    simp [limit, LimitClause.bounds, hnone]

/-! ## Queries -/

namespace Part

variable {b : RowBounds} {ps : List (Part Token)}

/-- A query that states some bounds, or whose aggregate is taken of such a query, whatever stands
behind it that is no limit. -/
def Within (b : RowBounds) (ps : List (Part Token)) : Prop :=
  Lacks limitWords ps ∧ ∀ more, Lacks limitWords more → rowBounds (aggregated (ps ++ more)) = b

theorem Within.rowBounds_eq (h : Within b ps) : rowBounds (aggregated ps) = b := by
  have hall := h.2 [] .nil
  rwa [List.append_nil] at hall

/-- A query may go on with anything that is no limit. -/
theorem Within.append {qs : List (Part Token)} (h : Within b ps) (hqs : Lacks limitWords qs) :
    Within b (ps ++ qs) := by
  refine ⟨lacks_append.mpr ⟨h.1, hqs⟩, fun more hmore => ?_⟩
  rw [List.append_assoc]
  exact h.2 _ (lacks_append.mpr ⟨hqs, hmore⟩)

/-- A query without bounds may go on. -/
theorem IsSelect.within (h : IsSelect none ps) : Within .unlimited ps := by
  refine ⟨h.lacks, fun more hmore => ?_⟩
  obtain ⟨hbounds, haggregated⟩ := (h.append hmore).states
  rw [haggregated, hbounds]
  rfl

/-- An aggregate of the rows of a query. -/
theorem States.within {opening rows : List (Part Token)} {top : Option Nat} (h : States b rows)
    (hopening : IsOpening top opening) :
    Within b (opening ++ [parens rows, leaf (.word "AGG_T")]) := by
  refine ⟨lacks_append.mpr ⟨hopening.lacks, ?_⟩, fun more _ => ?_⟩
  · exact lacks_cons.mpr ⟨fun _ _ => rfl, .word (by decide) .nil⟩
  · rw [aggregated, List.append_assoc, hopening.after_eq]
    exact h.1

end Part

/-- Without skipped rows and a limit there are no bounds. -/
theorem RowLimiting.rowBounds_none (p : RowLimiting) :
    p.rowBounds none none = .unlimited := by
  cases p <;> rfl

namespace Query

theorem has_limitDraft (clause : LimitClause) :
    (limitDraft clause).Has fun ps => limit ps = clause.bounds := by
  have htext : (Draft.text clause.text).Has fun ps => limit ps = clause.bounds :=
    (Has.text _).mono fun _ hps => hps ▸ limit_tokens_text clause
  cases clause with
  | absent =>
    refine Has.empty.mono ?_
    rintro _ rfl
    rfl
  | limit | limitComma | limitOffset | offset => exact htext

/-- Whether the limit of a query counts its rows in their order. A limit alone does not if it stands
among literals and the rows are counted by the row pseudo-column. -/
def CountsOrdered (q : Query) (s : Setting) : Prop :=
  s.dialect = .oracle → s.mode = .inline → q.take.isSome = true → q.skip.isSome = true

variable {q : Query} {c : Clauses} {s : Setting}

section Clauses

variable (hc : c.Unlimited)
include hc

/-- The bounds of a query with its limits. -/
theorem states_pagedDraft (hcounted : q.CountsOrdered s) :
    (q.pagedDraft c s).Has (States (s.dialect.rowLimiting.rowBounds q.skip q.take)) := by
  have hnumbering := states_numberingDraft (q := q) hc s
  have hpseudo := fun hd => states_pseudoColumnDraft hc (hcounted hd)
  -- A clause stands behind the query that it limits.
  have htrailing : ∀ clause, (q.unpagedDraft c none none s ++ limitDraft clause).Has
      (States ⟨0, none, clause.bounds.1, clause.bounds.2⟩) := by
    intro clause
    refine (has_unpagedDraft hc none s).append (has_limitDraft clause) ?_
    intro ps qs hps hqs
    have hall := hps.states_append qs
    rwa [hqs] at hall
  unfold pagedDraft
  cases hd : s.dialect with
  | sqlServer => exact hnumbering
  | oracle => exact hpseudo hd
  | mySql | sqlite | postgreSql | oledb | other => exact htrailing _

/-- The bounds of an aggregate are those of the rows that it is taken of. -/
theorem within_aggregateDraft (a : Aggregation) (hcounted : q.CountsOrdered s) :
    (q.aggregateDraft c a s).Has (Within (s.dialect.rowLimiting.rowBounds q.skip q.take)) := by
  have hopening : ∀ e : Expression, (.text "SELECT " ++ e.draft s ++ .text " FROM " : Draft).Has
      (IsOpening none) := by
    intro e
    have hhead : (.text "SELECT " ++ e.draft s : Draft).Has (Lacks headWords) :=
      has_lacks_append (has_lacks_text (by decide)) ((e.composed_draft s).has_lacks (by decide))
    refine hhead.append has_from ?_
    rintro head _ hlacks rfl
    exact ⟨head, rfl, hlacks.mono (by decide), top?_of_lacks (hlacks.mono (by decide))⟩
  unfold aggregateDraft
  split
  -- The rows of the aggregate are limited in its derived table.
  · have hrows := states_pagedDraft (s := s.nested) hc hcounted
    rw [Draft.append_assoc]
    refine (hopening _).append (has_derived (w := "AGG_T") hrows rfl) ?_
    rintro _ _ hopening ⟨rows, rfl, hrows⟩
    exact hrows.within hopening
  · next hplain =>
    have hunlimited : q.distinct = false ∧ q.skip = none ∧ q.take = none := by
      simpa [isPaged] using hplain
    have hsource : (c.source s ++ whereDraft (c.filter.map (· s)) none).Has IsSource :=
      (hc.source s).append (has_whereDraft hc s) fun _ _ hps hqs => hps.append hqs
    rw [hunlimited.2.1, hunlimited.2.2, RowLimiting.rowBounds_none, Draft.append_assoc]
    refine (hopening _).append hsource fun opening source hopening hsource => ?_
    have hselect : IsSelect none (opening ++ source) := ⟨opening, source, rfl, hopening, hsource⟩
    exact hselect.within

/-- The bounds of a query from its clauses. -/
theorem within_clausesDraft (hcounted : q.CountsOrdered s) :
    (q.clausesDraft c s).Has fun ps =>
      rowBounds (aggregated ps) = s.dialect.rowLimiting.rowBounds q.skip q.take := by
  unfold clausesDraft
  split
  · exact (within_aggregateDraft hc _ hcounted).mono fun _ => Within.rowBounds_eq
  · exact (states_pagedDraft hc hcounted).mono fun _ ⟨hbounds, haggregated⟩ => by
      rw [haggregated, hbounds]

/-- A query that is not limited has no bounds, whatever stands behind it. -/
theorem within_of_not_isPaged (hpaged : q.isPaged = false) :
    (q.clausesDraft c s).Has (Within .unlimited) := by
  have hunlimited : q.skip = none ∧ q.take = none := by simpa [isPaged] using hpaged
  unfold clausesDraft
  split
  · next a _ =>
    have haggregate := within_aggregateDraft (q := q) (s := s) hc a fun _ _ htake => by
      simp [hunlimited.2] at htake
    rwa [hunlimited.1, hunlimited.2, RowLimiting.rowBounds_none] at haggregate
  · rw [pagedDraft_of_not_isPaged c s hunlimited.1 hunlimited.2]
    exact (has_unpagedDraft hc none s).mono fun _ => IsSelect.within

end Clauses

end Query

/-! ## Set operations -/

section Sets

variable {s : Setting} {a b : Draft}

theorem SetOperator.lacks_keyword {operator : SetOperator} {d : Dialect} {keyword : String}
    (h : operator.keyword d = .ok keyword) :
    ∀ w ∈ limitWords, w ∉ words (" " ++ keyword ++ " ") := by
  cases operator <;> cases d <;> cases h <;> decide

/-- A set operation begins with its first operand, and has no limit of its own. -/
theorem QuerySet.within_operandsDraft {operator : SetOperator} {orders : List Order}
    (hleft : a.Has (Within .unlimited)) (hright : b.Has (Within .unlimited)) :
    (operandsDraft s operator orders a b).Has (Within .unlimited) := by
  unfold operandsDraft Draft.ofExcept
  split
  · next keyword hkeyword =>
    have hrest : (.text (" " ++ keyword ++ " ") ++ (b ++ orderDraft s orders) : Draft).Has
        (Lacks limitWords) :=
      has_lacks_append (has_lacks_text (operator.lacks_keyword hkeyword))
        (has_lacks_append (hright.mono fun _ => And.left) (has_orderDraft s orders))
    dsimp only
    rw [Draft.append_assoc, Draft.append_assoc]
    exact hleft.append hrest fun _ _ => Within.append
  · exact ⟨[], .fail _ [], fun hfailure => by cases hfailure⟩

/-- An operand that is wrapped has no bounds outside of its wrapper. -/
theorem within_wrappedOperand (ha : a.Has fun _ => True) :
    (wrappedOperand a).Has (Within .unlimited) := by
  have htable : (a.parens ++ .text (" " ++ operandSymbol)).Has IsSource := by
    refine (has_derived (w := "SET_T") ha rfl).mono ?_
    rintro _ ⟨rows, rfl, -⟩
    exact ⟨.derived rows (by simp) [], lacks_cons.mpr ⟨fun _ _ => rfl, .word (by decide) .nil⟩⟩
  unfold wrappedOperand
  rw [Draft.append_assoc]
  refine has_star.append htable fun opening source hopening hsource => ?_
  have hselect : IsSelect none (opening ++ source) := ⟨opening, source, rfl, hopening, hsource⟩
  exact hselect.within

mutual

/-- A query that is not limited has no bounds. -/
theorem Query.within_unlimited : ∀ (q : Query) (s : Setting), q.isPaged = false →
    (q.draft s).Has (Within .unlimited)
  | ⟨source, criteria, selection, distinct, orders, skip, take, aggregation, groupBy, having⟩, s,
    hpaged => by
    by_cases hwrapper : Query.isSetWrapper ⟨source, criteria, selection, distinct, orders, skip,
        take, aggregation, groupBy, having⟩ = true
    -- A query that adds nothing to a set operation is written as that set operation.
    · rcases source with (_ | _ | ⟨set, _⟩) | _
      · cases hwrapper
      · cases hwrapper
      · rw [Query.draft]
        split
        · exact set.within_unlimited s
        · next hbare => exact absurd hwrapper hbare
      · cases hwrapper
    · obtain ⟨c, hc, hdraft⟩ := Query.exists_unlimited (Bool.eq_false_iff.mpr hwrapper) s
      rw [hdraft]
      exact Query.within_of_not_isPaged hc hpaged

/-- Neither has an operand of a set operation. -/
theorem SetOperand.within_unlimited : ∀ (o : SetOperand) (s : Setting),
    (o.draft s).Has (Within .unlimited)
  | .query q, s => by
    rw [SetOperand.draft]
    split
    · next hplain =>
      exact q.within_unlimited s (by simpa using (Bool.and_eq_true_iff.mp hplain).2)
    · exact within_wrappedOperand (q.composed_draft s.nested).has_parts
  | .set set, s => within_wrappedOperand (set.composed_draft s.nested).has_parts

/-- Neither has a set operation. -/
theorem QuerySet.within_unlimited : ∀ (r : QuerySet) (s : Setting),
    (r.draft s).Has (Within .unlimited)
  | ⟨_, left, right, _⟩, s =>
    QuerySet.within_operandsDraft (left.within_unlimited s) (right.within_unlimited s)

end

end Sets

/-! ## Statements -/

/-- The bounds of a query as it is written. -/
theorem Query.has_rowBounds {q : Query} {s : Setting} (hcounted : q.CountsOrdered s) :
    (q.draft s).Has fun ps =>
      Part.rowBounds (aggregated ps) = s.dialect.rowLimiting.rowBounds q.skip q.take := by
  by_cases hwrapper : q.isSetWrapper = true
  · have hpaged : q.isPaged = false := by
      simpa using (Bool.and_eq_true_iff.mp (orders_isEmpty_of_isSetWrapper hwrapper)).2
    have hunlimited : q.skip = none ∧ q.take = none := by simpa [isPaged] using hpaged
    rw [hunlimited.1, hunlimited.2, RowLimiting.rowBounds_none]
    exact (q.within_unlimited s hpaged).mono fun _ => Within.rowBounds_eq
  · obtain ⟨c, hc, hdraft⟩ := exists_unlimited (Bool.eq_false_iff.mpr hwrapper) s
    rw [hdraft]
    exact within_clausesDraft hc hcounted

/-- Whatever the strategy of a dialect is, the bounds that a query states for its rows leave those
behind the skipped ones, up to the limit, as long as they are counted in their order. -/
theorem Query.admits_iff_drafted {q : Query} {s : Setting}
    (hsuccess : (Drafted.draft q s).failure = none)
    (hcounted : q.CountsOrdered s) :
    (Drafted.draft q s).rowBounds = s.dialect.rowLimiting.rowBounds q.skip q.take ∧
      ∀ row < UInt64.size, (Drafted.draft q s).rowBounds.Admits row ↔
        (q.skip.getD 0).toNat < row ∧
          ∀ take ∈ q.take, row - (q.skip.getD 0).toNat ≤ take.toNat := by
  have hbounds : (Drafted.draft q s).rowBounds = s.dialect.rowLimiting.rowBounds q.skip q.take := by
    -- Orders that are implied leave the numbers of skipped rows and of the limit.
    have hhas : (Drafted.draft q s).Has fun ps =>
        Part.rowBounds (aggregated ps) = s.dialect.rowLimiting.rowBounds q.skip q.take := by
      change ((if s.numbersRows then q.implyOrders else q).draft s).Has _
      cases s.numbersRows with
      | false => exact has_rowBounds hcounted
      | true =>
        obtain ⟨source, criteria, orders, having, heq⟩ := q.implyOrders_eq
        rw [if_pos rfl, heq]
        exact has_rowBounds hcounted
    exact hhas.outline hsuccess
  refine ⟨hbounds, fun row hrow => ?_⟩
  rw [hbounds]
  exact s.dialect.admits_rowBounds q.skip q.take hrow

/-- Rows so far behind that the number of the last one is cut off. -/
def Query.lastRows : Query :=
  ((Query.ofTable "T").withSkip 18446744073709551610).withTake 10

/-- The largest number of a row is within the bounds, and that of the last skipped row is not. -/
theorem Query.admits_lastRows :
    let bounds := (Drafted.draft lastRows (.outermost .oracle .standard .bound)).rowBounds
    bounds = ⟨18446744073709551610, some 18446744073709551615, 0, none⟩ ∧
      bounds.Admits 18446744073709551615 ∧ ¬bounds.Admits 18446744073709551610 := by
  have hcounted : lastRows.CountsOrdered (.outermost .oracle .standard .bound) := fun _ _ _ => rfl
  obtain ⟨hbounds, hrows⟩ := admits_iff_drafted (q := lastRows) rfl hcounted
  refine ⟨hbounds, (hrows _ (by decide)).mpr ?_, fun hadmits => ?_⟩
  · refine ⟨by decide, ?_⟩
    rintro _ ⟨⟩
    decide
  · exact absurd ((hrows _ (by decide)).mp hadmits).1 (by decide)

example :
    (Drafted.draft ((Query.ofTable "T").withSkip 1)
      (.outermost .mySql .standard .inline)).rowBounds =
        ⟨0, none, 1, some 18446744073709551615⟩ := by decide +kernel

end DialectSql
