import DialectSql.Proofs.Grouping
import DialectSql.Proofs.NaturalOrder
import DialectSql.Proofs.Width.Item

/-!
# Widths of nested queries

A query that writes out its projection is as wide as that, however its rows are limited, with one
exception. Where rows are skipped by their numbers, the wrapper selects everything from the numbered
rows, and their number is a column more. Who compares a value with the rows of such a query, or
combines them with those of another, meets that column.

## Main definitions

* `Draft.Opens` — the beginning of a query, up to its FROM
* `Draft.Wide` — queries with some number of columns
* `Query.keepsNumbers` — queries whose rows keep their numbers

## Main results

* `Draft.Opens.wide_derived` — the width of a query around a derived table
* `Query.wide_pagedDraft` — the width of a query with its limits
* `Query.width_nested` — the width of a query in a membership test and in a set operation
-/

namespace DialectSql

open Text

namespace Draft

variable {a b c : Draft} {columns stars n : Nat} {gs : List Glyph} {d : Dialect}
  {T : String → Prop}

/-- Drafts that begin a query, with its items and the FROM behind them. -/
def Opens (columns stars : Nat) (a : Draft) : Prop :=
  ∃ distinct top? gs, Glyph.Items columns stars gs ∧
    HasGlyphs a (.word "SELECT" :: (Glyph.headGlyphs distinct top? ++ (gs ++ [.word "FROM"])))

/-- Queries with `n` columns. -/
def Wide (n : Nat) (a : Draft) : Prop := ∃ gs, HasGlyphs a gs ∧ Glyph.width? gs = some n

theorem Wide.width?_eq (h : Wide n a) (hfailure : a.failure = none) : a.width? = some n := by
  obtain ⟨gs, hgs, hwidth⟩ := h
  rw [hgs.width?_eq hfailure, hwidth]

namespace Opens

/-- Without stars the items are all columns. -/
theorem wide (h : Opens n 0 a) (hb : b.Composed d T) : Wide n (a ++ b) := by
  obtain ⟨distinct, top?, gs, hitems, hgs⟩ := h
  obtain ⟨rest, hrest⟩ := hb.exists_hasGlyphs
  refine ⟨_, hgs.append hrest, ?_⟩
  have hwidth := hitems.width?_eq distinct top? rest
  simpa using hwidth

/-- Each star stands for the columns of a derived table that is alone in the FROM. -/
theorem wide_derived (h : Opens columns stars a) (hb : Wide n b) (hc : HasGlyphs c gs)
    (halone : Glyph.isAlone gs = true) : Wide (columns + stars * n) (a ++ b.parens ++ c) := by
  obtain ⟨distinct, top?, items, hitems, hitemsGlyphs⟩ := h
  obtain ⟨inner, hinner, hwidth⟩ := hb
  refine ⟨_, (hitemsGlyphs.append hinner.parens).append hc, ?_⟩
  have hall := hitems.width?_eq distinct top? (.parens (Glyph.width? inner) :: gs)
  have hsource : Glyph.sourceWidth? (.parens (Glyph.width? inner) :: gs) = some n := by
    rw [Glyph.sourceWidth?, if_pos halone, hwidth]
  rw [hsource] at hall
  have hsame : (if stars = 0 then some columns else (some n).map (columns + stars * ·)) =
      some (columns + stars * n) := by
    split
    · next hzero => rw [hzero, Nat.zero_mul, Nat.add_zero]
    · rfl
  rw [hsame] at hall
  simpa using hall

/-- A query of all columns of a derived table is as wide as that. -/
theorem wide_around (h : Opens 0 1 a) (hb : Wide n b) (hc : HasGlyphs c gs)
    (halone : Glyph.isAlone gs = true) : Wide n (a ++ b.parens ++ c) := by
  have hwide := h.wide_derived hb hc halone
  rwa [Nat.zero_add, Nat.one_mul] at hwide

/-- A text that begins a query of all columns. -/
theorem star {t : String} (ht : glyphs t = [.word "SELECT", .star, .word "FROM"]) :
    Opens 0 1 (.text t) :=
  ⟨false, none, [.star], .star, .text_of ht⟩

end Opens

end Draft

namespace Query

open Draft

variable {q : Query} {c : Clauses} {s : Setting} {a : Draft} {columns stars n : Nat}
  {gs : List Glyph}

/-! ## Parts of queries -/

/-- A limit in front of the projection is a word and a number. -/
theorem exists_glyphs_top (count : UInt64) :
    ∃ n, glyphs ("TOP " ++ natural count.toNat ++ " ") = [.word "TOP", .word n] := by
  obtain ⟨n, hn⟩ := exists_glyphs_natural count.toNat
  refine ⟨n, ?_⟩
  rw [glyphs_append_of_opensApart rfl, glyphs_append_of_closesApart rfl, hn]
  rfl

/-- The head of a query. -/
theorem hasGlyphs_headDraft (q : Query) (top : Option UInt64) :
    ∃ top?, HasGlyphs (q.headDraft top) (.word "SELECT" :: Glyph.headGlyphs q.distinct top?) := by
  have hdistinct : HasGlyphs (if q.distinct then .text "DISTINCT " else .empty)
      (if q.distinct then [.word "DISTINCT"] else []) := by
    split
    · exact .text "DISTINCT "
    · exact .empty
  unfold headDraft
  cases top with
  | none =>
    exact ⟨none, ((HasGlyphs.text "SELECT ").append hdistinct).append .empty⟩
  | some count =>
    obtain ⟨n, hn⟩ := exists_glyphs_top count
    exact ⟨some n, ((HasGlyphs.text "SELECT ").append hdistinct).append (.text_of hn)⟩

/-- The head of a query with its items and the FROM behind them begins it. -/
theorem opens_headDraft (q : Query) (top : Option UInt64) (ha : HasGlyphs a gs)
    (hitems : Glyph.Items columns stars gs) :
    Opens columns stars (q.headDraft top ++ a ++ .text " FROM ") := by
  obtain ⟨top?, hhead⟩ := q.hasGlyphs_headDraft top
  have hfrom : glyphs " FROM " = [.word "FROM"] := rfl
  have hall := (hhead.append ha).append (.text " FROM ")
  rw [hfrom, List.append_assoc, List.cons_append] at hall
  exact ⟨q.distinct, top?, gs, hitems, hall⟩

/-- A projection that is written out has its items. -/
theorem exists_items_projectionDraft (hselection : q.selection ≠ [])
    (hstars : ∀ p ∈ q.selection, p.expression.isStarIn s.dialect = false) :
    ∃ gs, HasGlyphs (q.projectionDraft s) gs ∧ Glyph.Items q.selection.length 0 gs := by
  have hne : q.selection.map (·.draft s) ≠ [] := by simpa using hselection
  have hitems := exists_items_list hne
    (List.forall_mem_map.mpr fun p hp => p.column_draft (hstars p hp))
  rw [List.length_map] at hitems
  rw [projectionDraft, if_neg (by simpa using hselection)]
  exact hitems

/-- There is nothing to write where rows have no limit. -/
theorem composed_none : ∀ a ∈ (none : Option Draft), AnyDraft s.dialect a := by simp

/-- The sources and conditions of a query stand behind a FROM. -/
theorem exists_bodyDraft (q : Query) (hc : c.Composed s.dialect) {limit : Option Draft}
    (hlimit : ∀ a ∈ limit, AnyDraft s.dialect a) :
    ∃ rest, AnyDraft s.dialect rest ∧ q.bodyDraft c limit s = .text " FROM " ++ rest := by
  have hgroup : AnyDraft s.dialect (if q.groupBy.isEmpty then .empty
      else .text " GROUP BY " ++ .list (q.groupBy.map (·.draft s))) :=
    .ite .empty (.lead trivial (.items (fun e _ => (e.composed_draft s).any) trivial))
  rw [bodyDraft, Draft.append_assoc, Draft.append_assoc, Draft.append_assoc]
  refine ⟨_, .append (hc.source s rfl) (.append (composed_whereDraft (composed_filter hc) hlimit)
    (.append hgroup ?_)), rfl⟩
  split
  · next f hf => exact .lead trivial (hc.having f hf s rfl)
  · exact .empty

/-- The name of a column of row numbers is a word that ends no items. -/
theorem exists_glyphs_rowNumberName {base : String}
    (hbase : base = "rownum" ∨ base = "paging_rownumber") (s : Setting) :
    ∃ w, glyphs (rowNumberName base s) = [.word w] ∧ Glyph.isClause (.word w) = false := by
  obtain ⟨w, c, hfirst, hletter, hruns⟩ := exists_runs_rowNumberName hbase s
  refine ⟨w, by rw [glyphs_eq, hruns], Glyph.isClause_word ?_⟩
  intro e he
  rw [hfirst] at he
  obtain rfl : c = e := Option.some.inj he
  rcases hletter with rfl | rfl
  · decide
  · decide

/-- A limit on row numbers goes on from the text in front of it. -/
theorem exists_glyphs_skip {t : String} (ht : closesApart t = true) (column : String)
    (skip : UInt64) :
    ∃ gs, glyphs (t ++ column ++ " > " ++ natural skip.toNat) = glyphs t ++ gs := by
  refine ⟨glyphs (column ++ (" > " ++ natural skip.toNat)), ?_⟩
  rw [String.append_assoc, String.append_assoc]
  exact glyphs_append_of_closesApart ht _

/-- A projected row number is one item more. -/
theorem exists_items_rowNumberDraft (s : Setting) (orders : List Order) :
    ∃ gs, HasGlyphs (rowNumberDraft (rowNumberName "rownum" s) (overDraft s orders))
      (.comma :: gs) ∧ Glyph.Items 1 0 gs := by
  obtain ⟨w, hw, hclause⟩ := exists_glyphs_rowNumberName (.inl rfl) s
  have hover : AnyDraft s.dialect (overDraft s orders) :=
    .ite (.parens (.text trivial)) (.items (fun o _ => (o.composed_draft s).any) trivial)
  obtain ⟨gs, hgs⟩ := hover.exists_hasGlyphs
  have hname : glyphs (" AS " ++ rowNumberName "rownum" s) = [.word "AS", .word w] := by
    rw [glyphs_append_of_closesApart rfl, hw]
    rfl
  have hnumber : HasGlyphs (.text ", ROW_NUMBER" ++ Draft.empty.parens ++ .text " OVER ")
      [.comma, .word "ROW_NUMBER", .parens none, .word "OVER"] :=
    ((HasGlyphs.text ", ROW_NUMBER").append HasGlyphs.empty.parens).append (.text " OVER ")
  have hall := (hnumber.append ((HasGlyphs.text "ORDER BY ").append hgs).parens).append
    (.text_of hname)
  -- Neither a comma nor a clause stands outside of its parentheses, so it is a single item.
  refine ⟨[.word "ROW_NUMBER", .parens none, .word "OVER", .parens _, .word "AS", .word w], hall,
    .column (by simp) ?_ rfl⟩
  simp only [List.forall_mem_cons]
  exact ⟨rfl, rfl, rfl, rfl, rfl, hclause, by simp⟩

/-- A query of all columns with a limit in front of them. -/
theorem opens_top (take : Option UInt64) :
    Opens 0 1 (.text "SELECT " ++ (match take with
      | some take => .text ("TOP " ++ natural take.toNat ++ " ")
      | none => .empty) ++ .text "* FROM ") := by
  cases take with
  | none =>
    exact ⟨false, none, [.star], .star,
      ((HasGlyphs.text "SELECT ").append .empty).append (.text "* FROM ")⟩
  | some take =>
    obtain ⟨n, hn⟩ := exists_glyphs_top take
    exact ⟨false, some n, [.star], .star,
      ((HasGlyphs.text "SELECT ").append (.text_of hn)).append (.text "* FROM ")⟩

/-- A query of all columns of a derived table and their row numbers. -/
theorem opens_numberedRows (s : Setting) :
    Opens 1 1 (.text ("SELECT " ++ pagingSymbol ++ ".*, ROWNUM " ++
      rowNumberName "paging_rownumber" s ++ " FROM ")) := by
  obtain ⟨w, hw, hclause⟩ := exists_glyphs_rowNumberName (.inr rfl) s
  have hnumber : Glyph.Items 1 0 [.word "ROWNUM", .word w] :=
    .column (by simp) (by simpa only [List.forall_mem_cons] using ⟨rfl, hclause, by simp⟩) rfl
  have hrows : Glyph.Items 0 1 [.word "PAGING_T", .dot, .star] :=
    ⟨rfl, rfl, by simpa only [List.forall_mem_cons] using ⟨rfl, rfl, rfl, by simp⟩⟩
  refine ⟨false, none, _, hrows.append hnumber, .text_of ?_⟩
  rw [glyphs_append_of_opensApart rfl, glyphs_append_of_closesApart rfl, hw]
  rfl

/-! ## Limits -/

/-- Whether the rows of a query keep their numbers in a dialect: where rows are skipped by their
numbers, the query that skips them selects everything. -/
def keepsNumbers (q : Query) (d : Dialect) : Bool :=
  q.skip.isSome && (d.rowLimiting = .numbering || d.rowLimiting = .pseudoColumn)

section Limits

variable (hselection : q.selection ≠ [])
  (hstars : ∀ p ∈ q.selection, p.expression.isStarIn s.dialect = false) (hc : c.Composed s.dialect)
include hselection hstars hc

/-- A query from its projection, whatever stands behind its sources and conditions. -/
theorem wide_bodyDraft (top : Option UInt64) {limit : Option Draft}
    (hlimit : ∀ a ∈ limit, AnyDraft s.dialect a) {b : Draft} (hb : AnyDraft s.dialect b) :
    Wide q.selection.length
      (q.headDraft top ++ q.projectionDraft s ++ q.bodyDraft c limit s ++ b) := by
  obtain ⟨gs, hgs, hitems⟩ := exists_items_projectionDraft hselection hstars
  obtain ⟨rest, hrest, hbody⟩ := q.exists_bodyDraft hc hlimit
  have hwide := (q.opens_headDraft top hgs hitems).wide (hrest.append hb)
  rw [hbody]
  simpa only [Draft.append_assoc] using hwide

/-- A query without limits other than those that fit into its clauses. -/
theorem wide_unpagedDraft (top : Option UInt64) {limit : Option Draft}
    (hlimit : ∀ a ∈ limit, AnyDraft s.dialect a) {b : Draft} (hb : AnyDraft s.dialect b) :
    Wide q.selection.length (q.unpagedDraft c top limit s ++ b) := by
  rw [unpagedDraft, Draft.append_assoc]
  exact wide_bodyDraft hselection hstars hc top hlimit ((composed_orderDraft s q.orders).append hb)

/-- A query without limits. -/
theorem wide_whole (top : Option UInt64) :
    Wide q.selection.length (q.unpagedDraft c top none s) := by
  have hwide := wide_unpagedDraft hselection hstars hc top composed_none .empty
  rwa [Draft.append_empty] at hwide

/-- The rows of a query with their numbers have a column more. -/
theorem wide_numberedDraft :
    Wide (q.selection.length + 1) (q.numberedDraft c (rowNumberName "rownum" s) s) := by
  unfold numberedDraft
  split
  · obtain ⟨number, hnumber, hitem⟩ := exists_items_rowNumberDraft s
      (q.orders.map (·.ontoDistinct q.selection))
    -- Equal rows are dropped in a derived table, and a star passes its columns on.
    have hinner := wide_bodyDraft (s := s.nested) hselection hstars hc none composed_none .empty
    rw [Draft.append_empty] at hinner
    have hopens : Opens 1 1 (.text "SELECT *" ++ rowNumberDraft (rowNumberName "rownum" s)
        (overDraft s (q.orders.map (·.ontoDistinct q.selection))) ++ .text " FROM ") :=
      ⟨false, none, .star :: .comma :: number, Glyph.Items.star.append hitem,
        ((HasGlyphs.text "SELECT *").append hnumber).append (.text " FROM ")⟩
    have hwide := hopens.wide_derived hinner (.text (" " ++ distinctSymbol)) rfl
    rwa [Nat.one_mul, Nat.add_comm] at hwide
  · obtain ⟨gs, hgs, hitems⟩ := exists_items_projectionDraft hselection hstars
    obtain ⟨number, hnumber, hitem⟩ := exists_items_rowNumberDraft s q.orders
    obtain ⟨rest, hrest, hbody⟩ := q.exists_bodyDraft hc composed_none
    have hwide := (q.opens_headDraft none (hgs.append hnumber) (hitems.append hitem)).wide hrest
    rw [hbody]
    simpa only [Draft.append_assoc] using hwide

/-- Where rows are skipped by their numbers, these are a column of the result. -/
theorem wide_numberingDraft :
    Wide (q.selection.length + if q.skip.isSome then 1 else 0) (q.numberingDraft c s) := by
  unfold numberingDraft
  cases q.skip with
  | none => exact wide_whole hselection hstars hc q.take
  | some skip =>
    have hnumbered := wide_numberedDraft hselection hstars hc
    have hopens := opens_top q.take
    have horder : AnyDraft s.dialect (if (decide (0 < s.depth) && q.take.isNone) = true then .empty
        else .text (" ORDER BY " ++ rowNumberName "rownum" s)) := .ite .empty (.text trivial)
    obtain ⟨order, horder⟩ := horder.exists_hasGlyphs
    obtain ⟨limit, hlimit⟩ := exists_glyphs_skip (t := " " ++ pagingSymbol ++ " WHERE ") rfl
      (rowNumberName "rownum" s) skip
    -- The wrapper has a WHERE behind its derived table, whatever the limit and the order are.
    have hwide := hopens.wide_around hnumbered ((HasGlyphs.text_of hlimit).append horder) rfl
    rwa [← Draft.append_assoc] at hwide

/-- Where rows are skipped by the row pseudo-column, their numbers are a column of the result. -/
theorem wide_pseudoColumnDraft :
    Wide (q.selection.length + if q.skip.isSome then 1 else 0) (q.pseudoColumnDraft c s) := by
  have hwhole := wide_whole hselection hstars hc none
  have hstar : Opens 0 1 (.text "SELECT * FROM ") := .star rfl
  unfold pseudoColumnDraft
  cases q.skip with
  | none =>
    cases q.take with
    | none => exact hwhole
    | some take =>
      cases s.mode with
      | bound =>
        have hcap := (HasGlyphs.text " WHERE ").append (b := rowNumCap take.toNat) (.text _)
        have hwide := hstar.wide_around hwhole hcap rfl
        rwa [← Draft.append_assoc] at hwide
      | inline =>
        have hcap : ∀ a ∈ some (rowNumCap take.toNat), AnyDraft s.dialect a := by
          rintro a ⟨⟩
          exact .text trivial
        have hwide := wide_unpagedDraft hselection hstars hc none hcap .empty
        rwa [Draft.append_empty] at hwide
  | some skip =>
    have hopens := opens_numberedRows s
    obtain ⟨limit, hlimit⟩ := exists_glyphs_skip (t := " WHERE ") rfl
      (rowNumberName "paging_rownumber" s) skip
    -- The numbers of the last rows are limited further in, where the first query is named.
    have hwide : ∀ {cap : Draft} {gs : List Glyph}, HasGlyphs cap gs →
        Glyph.isAlone (.word "PAGING_T" :: gs) = true →
        Wide (q.selection.length + 1) (.text "SELECT * FROM " ++
          (.text ("SELECT " ++ pagingSymbol ++ ".*, ROWNUM " ++
              rowNumberName "paging_rownumber" s ++ " FROM ") ++
            (q.unpagedDraft c none none s).parens ++ .text (" " ++ pagingSymbol) ++
              cap : Draft).parens ++
          .text (" WHERE " ++ rowNumberName "paging_rownumber" s ++ " > " ++
            natural skip.toNat)) := by
      intro cap gs hcap halone
      have hnumbered := hopens.wide_derived hwhole
        ((HasGlyphs.text (" " ++ pagingSymbol)).append hcap) halone
      rw [← Draft.append_assoc] at hnumbered
      have hall := hstar.wide_around hnumbered (.text_of hlimit) rfl
      rwa [Nat.one_mul, Nat.add_comm] at hall
    cases q.take with
    | none => exact hwide .empty rfl
    | some take => exact hwide ((HasGlyphs.text " WHERE ").append (.text _)) rfl

/-- A query with its limits is as wide as its projection, and the numbers of its rows are a column
more where they are kept. -/
theorem wide_pagedDraft :
    Wide (q.selection.length + if q.keepsNumbers s.dialect then 1 else 0) (q.pagedDraft c s) := by
  have hclause : ∀ clause : Option LimitClause,
      AnyDraft s.dialect (clause.elim .empty limitDraft) := by
    rintro (_ | clause)
    · exact .empty
    · cases clause <;> first | exact .empty | exact .text trivial
  have hnumbering := wide_numberingDraft hselection hstars hc
  have hpseudo := wide_pseudoColumnDraft hselection hstars hc
  unfold pagedDraft keepsNumbers
  cases s.dialect.rowLimiting with
  | numbering => simpa using hnumbering
  | pseudoColumn => simpa using hpseudo
  | limitComma unbounded =>
    have hwide := wide_unpagedDraft hselection hstars hc none composed_none
      (hclause (RowLimiting.limitClause? (.limitComma unbounded) q.skip q.take))
    simpa using hwide
  | limitOffset =>
    have hwide := wide_unpagedDraft hselection hstars hc none composed_none
      (hclause (RowLimiting.limitClause? .limitOffset q.skip q.take))
    simpa using hwide

end Limits

/-! ## Nested queries -/

/-- A query that writes out its projection and has no aggregate is as wide as that, but for the
numbers of its rows. -/
theorem wide_draft (haggregation : q.aggregation = none) (hselection : q.selection ≠ [])
    (hstars : ∀ p ∈ q.selection, p.expression.isStarIn s.dialect = false) :
    Wide (q.selection.length + if q.keepsNumbers s.dialect then 1 else 0) (q.draft s) := by
  -- A projection is something that a query adds to a set operation.
  obtain ⟨c, hc, hdraft⟩ := exists_clausesDraft (q := q) (by simp [isBare, hselection]) s
  rw [hdraft, clausesDraft, haggregation]
  exact wide_pagedDraft hselection hstars hc

end Query

/-- An operand of a set operation is as wide as the query that it is. -/
theorem SetOperand.wide_draft {q : Query} {s : Setting} (haggregation : q.aggregation = none)
    (hselection : q.selection ≠ [])
    (hstars : ∀ p ∈ q.selection, p.expression.isStarIn s.dialect = false) :
    Draft.Wide (q.selection.length + if q.keepsNumbers s.dialect then 1 else 0)
      ((SetOperand.query q).draft s) := by
  rw [draft]
  by_cases hbeside : (q.orders.isEmpty && !q.isPaged) = true
  · rw [if_pos hbeside]
    exact Query.wide_draft haggregation hselection hstars
  · rw [if_neg hbeside]
    have hinner := Query.wide_draft (s := s.nested) haggregation hselection hstars
    have hstar : Draft.Opens 0 1 (.text "SELECT * FROM ") := .star rfl
    exact hstar.wide_around hinner (.text (" " ++ operandSymbol)) rfl

section Implied

variable {q : Query} {s : Setting} (haggregation : q.aggregation = none)
  (hselection : q.selection ≠ [])
  (hstars : ∀ p ∈ q.selection, p.expression.isStarIn s.dialect = false)
include haggregation hselection hstars

/-- Implied orders leave the width of a query. -/
theorem Query.wide_drafted :
    Draft.Wide (q.selection.length + if q.keepsNumbers s.dialect then 1 else 0)
      (Drafted.draft q s) := by
  change Draft.Wide _ ((if s.numbersRows then q.implyOrders else q).draft s)
  cases s.numbersRows with
  | false => exact wide_draft haggregation hselection hstars
  | true =>
    obtain ⟨source, criteria, orders, having, heq⟩ := q.implyOrders_eq
    rw [if_pos rfl, heq]
    exact wide_draft haggregation hselection hstars

/-- Implied orders leave the width of an operand. -/
theorem SetOperand.wide_drafted :
    Draft.Wide (q.selection.length + if q.keepsNumbers s.dialect then 1 else 0)
      ((SetOperand.query q).drafted s) := by
  unfold drafted
  cases s.numbersRows with
  | false => exact wide_draft haggregation hselection hstars
  | true =>
    obtain ⟨source, criteria, orders, having, heq⟩ := q.implyOrders_eq
    rw [if_pos rfl, implyOrders, heq]
    exact wide_draft haggregation hselection hstars

end Implied

/-- A membership test consists of its subject, the keyword, and the query with its implied orders.
-/
theorem Criteria.drafted_inSelect (subject : Expression) (q : Query) (op : Membership)
    (s : Setting) :
    Drafted.draft (Criteria.inSelect subject q op) s =
      subject.draft s ++ .text (" " ++ op.symbol ++ " ") ++ (Drafted.draft q s.nested).parens := by
  change (if s.numbersRows then (Criteria.inSelect subject q op).implyOrders
    else Criteria.inSelect subject q op).draft s = _ ++ ((if s.numbersRows then q.implyOrders
      else q).draft s.nested).parens
  cases s.numbersRows <;> rfl

/-- A query in a membership test and an operand of a set operation have a column for each item of
their projection. Where rows are skipped by their numbers, these are a column more, and nothing else
about the limits of a query changes its width. -/
theorem Query.width_nested {q : Query} {s : Setting} (haggregation : q.aggregation = none)
    (hselection : q.selection ≠ [])
    (hstars : ∀ p ∈ q.selection, p.expression.isStarIn s.dialect = false) :
    let width := q.selection.length + if q.keepsNumbers s.dialect then 1 else 0
    (∀ (subject : Expression) (op : Membership),
      (Drafted.draft (Criteria.inSelect subject q op) s).failure = none →
        Drafted.draft (Criteria.inSelect subject q op) s =
            subject.draft s ++ .text (" " ++ op.symbol ++ " ") ++
              (Drafted.draft q s.nested).parens ∧
          (Drafted.draft q s.nested).width? = some width) ∧
    (((SetOperand.query q).drafted s).failure = none →
      ((SetOperand.query q).drafted s).width? = some width) := by
  refine ⟨fun subject op h => ⟨Criteria.drafted_inSelect subject q op s, ?_⟩, fun h => ?_⟩
  · rw [Criteria.drafted_inSelect] at h
    have hinner := (Draft.failure_append_eq_none h).2
    rw [Draft.failure_parens] at hinner
    exact (wide_drafted (s := s.nested) haggregation hselection hstars).width?_eq hinner
  · exact (SetOperand.wide_drafted haggregation hselection hstars).width?_eq h

/-- All but the first row of a table with one column. -/
def Query.skippedRows : Query :=
  ((Query.ofTable "T").project (.ofField ⟨"B", none⟩) none).withSkip 1

/-- A value is compared with two columns. -/
theorem Query.text_skippedRows :
    renderInline (Criteria.inSelect (.ofField ⟨"A", none⟩) skippedRows .isIn) .sqlServer .standard =
        .ok ("[A] IN (SELECT * FROM (SELECT [B], ROW_NUMBER() OVER (ORDER BY (SELECT NULL)) " ++
          "AS rownum_1 FROM [T]) paging_t WHERE rownum_1 > 1)") ∧
      skippedRows.selection.length = 1 ∧
      (skippedRows.draft (Setting.outermost .sqlServer .standard .inline).nested).width? = some 2 :=
  ⟨by decide +kernel, rfl, by decide +kernel⟩

/-- Where no numbers are kept a limit changes nothing. -/
theorem Query.width_nested_limitedRows :
    ((SetOperand.query (skippedRows.withTake 2)).drafted
        (.outermost .postgreSql .standard .bound)).width? = some 1 ∧
      ((SetOperand.query (skippedRows.withTake 2)).drafted
        (.outermost .oracle .standard .bound)).width? = some 2 := by
  have hstars : ∀ d, ∀ p ∈ (skippedRows.withTake 2).selection, p.expression.isStarIn d = false :=
    fun d => List.forall_mem_singleton.mpr rfl
  exact ⟨(width_nested (q := skippedRows.withTake 2) rfl (List.cons_ne_nil _ _) (hstars _)).2 rfl,
    (width_nested (q := skippedRows.withTake 2) rfl (List.cons_ne_nil _ _) (hstars _)).2 rfl⟩

end DialectSql
