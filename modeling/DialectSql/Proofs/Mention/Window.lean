import DialectSql.Proofs.Mention.Aggregate
import DialectSql.Proofs.NaturalOrder.Column

/-!
# Orders of different rows

Where the different rows of a query are numbered, the numbers stand outside of the query that drops
equal rows, and the orders that they follow can refer to output columns of it only. An order whose
expression is projected under a name refers to that name. Every other order keeps its columns on the
symbol of the different rows, which have a column of that name only by chance: this is so for an
expression that is projected without a name, and for an order that is taken over from a source and
is not projected.

## Main definitions

* `Draft.window?` — the orders by which the rows of a query are numbered
* `Draft.HasWindow` — queries whose rows are numbered by orders with some references
* `Query.numberingOrders` — the orders by which rows are to be numbered
* `Order.IsOutput` — orders of different rows by output columns

## Main results

* `Order.forall_mentions_ontoDistinct_iff` — which columns an order of different rows refers to
* `Query.hasWindow_drafted` — the orders of different rows are written
* `Query.references_window` — when all columns by which different rows are numbered are outputs
-/

namespace DialectSql

/-! ## Windows -/

namespace Part

/-- Whether some parts begin with an ORDER. -/
def beginsOrder : List (Part Sign) → Bool
  | .leaf (.glyph (.word "ORDER")) :: _ => true
  | _ => false

mutual

/-- What stands between the parentheses of a part has its signs. -/
theorem signsIn_subset_of_groups {group : List (Part Sign)} :
    ∀ p : Part Sign, group ∈ p.groups → signsIn group ⊆ p.signs
  | .leaf _, h => by cases h
  | .parens inner, h => by
    have hinner : signsIn inner ⊆ (Part.parens inner).signs := fun sign hsign => by
      simp [Part.signs, hsign]
    rcases List.mem_cons.mp h with rfl | h
    · exact hinner
    · exact List.Subset.trans (signsIn_subset_of_groupsIn inner h) hinner

theorem signsIn_subset_of_groupsIn {group : List (Part Sign)} :
    ∀ ps : List (Part Sign), group ∈ groupsIn ps → signsIn group ⊆ signsIn ps
  | [], h => by cases h
  | p :: ps, h => by
    rcases List.mem_append.mp h with h | h
    · exact List.Subset.trans (signsIn_subset_of_groups p h) (List.subset_append_left _ _)
    · exact List.Subset.trans (signsIn_subset_of_groupsIn ps h) (List.subset_append_right _ _)

end

/-- Where no clause begins, none begins between parentheses. -/
theorem find?_beginsOrder_eq_none {ps : List (Part Sign)}
    (h : ∀ sign ∈ signsIn ps, sign.beginsClause = false) :
    (groupsIn ps).find? beginsOrder = none := by
  refine List.find?_eq_none.mpr fun group hgroup hbegins => ?_
  unfold beginsOrder at hbegins
  split at hbegins
  · next rest =>
    have hmem : Sign.glyph (.word "ORDER") ∈ signsIn ps :=
      signsIn_subset_of_groupsIn ps hgroup (by simp [signsIn, Part.signs])
    cases h _ hmem
  · cases hbegins

end Part

namespace Draft

variable {a b c : Draft} {refs : List Reference} {d : Dialect} {T : String → Prop}

/-- The orders by which the rows of a query are numbered: what stands between the first parentheses
that begin with an ORDER. All other parentheses with a clause hold a query, which begins with a
SELECT. -/
def window? (a : Draft) : Option (List Sign) :=
  ((Part.groupsIn (a.outline Piece.signs)).find? Part.beginsOrder).map Part.signsIn

/-- A text whose glyphs are known. -/
theorem reads_text (t : String) (gs : List Glyph) (h : Text.glyphs t = gs) :
    Reads Piece.signs (.text t) (gs.map fun g => .leaf (.glyph g)) := by
  have hreads : Reads Piece.signs (.text t) ((Piece.text t).signs.map .leaf) := .text t
  rwa [Piece.signs, h, List.map_map] at hreads

/-- Drafts that begin a query and hold no window yet, unless they fail. -/
def IsFront (a : Draft) : Prop :=
  a.failure = none → ∃ parts, Reads Piece.signs a (.leaf (.glyph (.word "SELECT")) :: parts) ∧
    (Part.groupsIn parts).find? Part.beginsOrder = none

/-- Queries whose rows are numbered by orders with some references, unless they fail. -/
def HasWindow (refs : List Reference) (a : Draft) : Prop :=
  a.failure = none → ∃ parts clause,
    Reads Piece.signs a (.leaf (.glyph (.word "SELECT")) :: parts) ∧
    (Part.groupsIn parts).find? Part.beginsOrder = some clause ∧
    Sign.references (Part.signsIn clause) = refs

theorem HasWindow.exists_window (h : HasWindow refs a) (hsuccess : a.failure = none) :
    ∃ window, a.window? = some window ∧ Sign.references window = refs := by
  obtain ⟨parts, clause, hreads, hfind, hrefs⟩ := h hsuccess
  refine ⟨_, ?_, hrefs⟩
  rw [window?, hreads.outline_eq hsuccess]
  simp [Part.groupsIn, Part.groups, hfind]

/-- A query around another one has the window of that. -/
theorem HasWindow.around (ha : IsFront a) (hb : HasWindow refs b) (hc : c.Composed d T) :
    HasWindow refs (a ++ b.parens ++ c) := by
  intro hsuccess
  obtain ⟨hfirst, -⟩ := failure_append_eq_none hsuccess
  obtain ⟨hfront, hinner⟩ := failure_append_eq_none hfirst
  rw [failure_parens] at hinner
  obtain ⟨ps, hps, hnone⟩ := ha hfront
  obtain ⟨qs, clause, hqs, hfind, hrefs⟩ := hb hinner
  obtain ⟨rs, hrs⟩ := hc.exists_reads Piece.signs
  refine ⟨_, clause, (hps.append hqs.parens).append hrs, ?_, hrefs⟩
  -- What is between the parentheses begins with a SELECT, so it is no window itself.
  simp [Part.groupsIn, Part.groups, List.find?_append, hnone, hfind, Part.beginsOrder]

/-- A query of numbered rows has the orders that the numbers follow. -/
theorem HasWindow.numbered {column : String} (hb : Mentions refs b) (hc : c.Composed d T) :
    HasWindow refs (.text "SELECT *" ++ Query.rowNumberDraft column b ++ c) := by
  intro hsuccess
  -- The whole is written, so its orders are.
  have horders : b.failure = none := by
    obtain ⟨hnumber, -⟩ := failure_append_eq_none
      (failure_append_eq_none (failure_append_eq_none hsuccess).1).2
    have hwindow := (failure_append_eq_none hnumber).2
    rw [failure_parens] at hwindow
    exact (failure_append_eq_none hwindow).2
  obtain ⟨ps, hps, hspells⟩ := hb horders
  obtain ⟨rs, hrs⟩ := hc.exists_reads Piece.signs
  have hwindow := ((reads_text "ORDER BY " [.word "ORDER", .word "BY"] rfl).append hps).parens
  have hnumber := ((((reads_text ", ROW_NUMBER" [.comma, .word "ROW_NUMBER"] rfl).append
    Reads.empty.parens).append (reads_text " OVER " [.word "OVER"] rfl)).append hwindow).append
    (.text (" AS " ++ column))
  have hselect := reads_text "SELECT *" [.word "SELECT", .star] rfl
  refine ⟨_, .leaf (.glyph (.word "ORDER")) :: .leaf (.glyph (.word "BY")) :: ps,
    (hselect.append hnumber).append hrs, ?_, hspells.references_eq⟩
  simp [Part.groupsIn, Part.groups, Part.beginsOrder]

/-- What projects an expression begins a query. -/
theorem Mentions.isFront (ha : Mentions refs a) :
    IsFront (.text "SELECT " ++ a ++ .text " FROM ") := by
  intro hsuccess
  obtain ⟨ps, hps, hspells⟩ := ha (failure_append_eq_none
    (failure_append_eq_none hsuccess).1).2
  refine ⟨_, ((reads_text "SELECT " [.word "SELECT"] rfl).append hps).append (.text " FROM "), ?_⟩
  simp [Part.find?_beginsOrder_eq_none hspells.inside]

end Draft

/-! ## Numbered rows -/

/-- What orders mention is written where rows are numbered by them. -/
theorem Query.mentions_overDraft (s : Setting) (orders : List Order) :
    (overDraft s orders).Mentions (orders.flatMap (·.expression.mentions)) := by
  have horder : ∀ o : Order, (o.draft s).Mentions o.expression.mentions := by
    intro o
    refine ((o.expression.mentions_draft s).1.followed ?_).mentions
    cases o.direction <;> rfl
  unfold overDraft
  split
  · next hempty =>
    rw [List.isEmpty_iff.mp hempty]
    exact (Draft.Mixed.text rfl).mentions.parens.mentions
  · exact .items fun o _ => horder o

namespace Query

variable {q : Query} {c : Clauses} {s : Setting}

/-- A query of all columns with a limit in front of them begins a query. -/
theorem isFront_top (take : Option UInt64) :
    Draft.IsFront (.text "SELECT " ++ (match take with
      | some take => .text ("TOP " ++ Text.natural take.toNat ++ " ")
      | none => .empty) ++ .text "* FROM ") := by
  have hselect := Draft.reads_text "SELECT " [.word "SELECT"] rfl
  intro _
  cases take with
  | none => exact ⟨_, (hselect.append .empty).append (.text "* FROM "), by simp⟩
  | some take => exact ⟨_, (hselect.append (.text _)).append (.text "* FROM "), by simp⟩

/-- Different rows are numbered by their orders, on the symbol of these rows. -/
theorem hasWindow_numberedDraft (hdistinct : q.distinct = true) (hc : c.Composed s.dialect)
    (column : String) :
    (q.numberedDraft c column s).HasWindow
      ((q.orders.map (·.ontoDistinct q.selection)).flatMap (·.expression.mentions)) := by
  have hrows : AnyDraft s.dialect
      (q.headDraft none ++ q.projectionDraft s.nested ++ q.bodyDraft c none s.nested) :=
    .append (.append (q.composed_headDraft none) (composed_projectionDraft (s := s.nested) q))
      (composed_bodyDraft (s := s.nested) hc (by simp))
  rw [numberedDraft, if_pos hdistinct, Draft.append_assoc, Draft.append_assoc]
  exact .numbered (mentions_overDraft s _)
    (.lead trivial (.append (.parens hrows) (.text trivial)))

/-- The numbers by which rows are skipped are those of the different rows. -/
theorem hasWindow_pagedDraft (hnumbers : s.numbersRows = true) (hdistinct : q.distinct = true)
    (hskip : q.skip.isSome = true) (hc : c.Composed s.dialect) :
    (q.pagedDraft c s).HasWindow
      ((q.orders.map (·.ontoDistinct q.selection)).flatMap (·.expression.mentions)) := by
  obtain ⟨skip, hskip⟩ := Option.isSome_iff_exists.mp hskip
  have hlimiting : s.dialect.rowLimiting = .numbering := by
    simpa [Setting.numbersRows] using hnumbers
  rw [pagedDraft, hlimiting]
  dsimp only
  rw [numberingDraft, hskip]
  dsimp only
  rw [Draft.append_assoc]
  refine .around (isFront_top q.take) (hasWindow_numberedDraft hdistinct hc _)
    (?_ : AnyDraft s.dialect _)
  exact .append (.text trivial) (.ite .empty (.text trivial))

/-- An aggregate of such rows stands in front of them. -/
theorem hasWindow_clausesDraft (hnumbers : s.numbersRows = true) (hdistinct : q.distinct = true)
    (hskip : q.skip.isSome = true) (hc : c.Composed s.dialect) :
    (q.clausesDraft c s).HasWindow
      ((q.orders.map (·.ontoDistinct q.selection)).flatMap (·.expression.mentions)) := by
  unfold clausesDraft
  split
  · next a _ =>
    have hrows := hasWindow_pagedDraft (s := s.nested) hnumbers hdistinct hskip hc
    rw [aggregateDraft, if_pos (by simp [hdistinct])]
    have hfront := ((a.toExpression.relocate aggregateSymbol).mentions_draft s).1.isFront
    exact .around hfront hrows (.text trivial : AnyDraft s.dialect _)
  · exact hasWindow_pagedDraft hnumbers hdistinct hskip hc

/-- The same is true of a query with its implied orders. -/
theorem hasWindow_drafted (hnumbers : s.numbersRows = true) (hdistinct : q.distinct = true)
    (hskip : q.skip.isSome = true) :
    (Drafted.draft q s).HasWindow
      ((q.implyOrders.orders.map (·.ontoDistinct q.selection)).flatMap
        (·.expression.mentions)) := by
  change Draft.HasWindow _ ((if s.numbersRows then q.implyOrders else q).draft s)
  rw [if_pos hnumbers]
  obtain ⟨source, criteria, orders, having, heq⟩ := q.implyOrders_eq
  rw [heq]
  have hbare : Query.isBare { q with
      source := source, criteria := criteria, orders := orders, having := having } = false := by
    simp [isBare, hdistinct]
  obtain ⟨c, hc, hdraft⟩ := exists_clausesDraft hbare s
  rw [hdraft]
  exact hasWindow_clausesDraft hnumbers hdistinct hskip hc

end Query

/-! ## Orders of different rows -/

/-- The orders by which the rows of a query are to be numbered: its own, or else those that its
source gives. -/
def Query.numberingOrders (q : Query) : List Order :=
  if q.orders.isEmpty then
    let lifted := q.source.implyOrders.bubbleOrder []
    if lifted.failure.isNone then lifted.orders else []
  else q.orders

/-- A query that skips rows implies the orders by which these are numbered. -/
theorem Query.orders_implyOrders {q : Query} (hskip : q.skip.isSome = true) :
    q.implyOrders.orders = q.numberingOrders := by
  obtain ⟨source, criteria, selection, distinct, orders, skip, take, aggregation, groupBy,
    having⟩ := q
  rw [implyOrders, implyOrder, numberingOrders]
  cases orders with
  | cons order orders => simp
  | nil =>
    have hskip : (skip.isSome && ([] : List Order).isEmpty) = true := by simpa using hskip
    rw [if_pos hskip, bubbleSourceOrder_eq]
    dsimp only
    split <;> simp_all

/-- Whether an order of different rows is by output columns alone: by the name under which its
expression is projected, or by columns that happen to be called like output columns. -/
def Order.IsOutput (selection : List Projection) (o : Order) : Prop :=
  (∃ item ∈ selection.find? (·.expression == o.expression), ∃ name ∈ item.outputName?,
      Field.IsColumnName name) ∨
    ∀ f, Reference.field f ∈ o.expression.mentions → f.name ∈ outputNames selection

/-- A checked column is one whose name is a column name. -/
theorem Field.toOption_qualified (symbol name : String) : (Field.qualified symbol name).toOption =
    if IsColumnName name then some ⟨name, some symbol⟩ else none := by
  unfold qualified unqualified
  split <;> rfl

/-- An order of different rows refers to output columns of them alone if it is by output columns. -/
theorem Order.forall_mentions_ontoDistinct_iff (selection : List Projection) (o : Order) :
    (∀ f, Reference.field f ∈ (o.ontoDistinct selection).expression.mentions →
        f.source = some distinctSymbol ∧ f.name ∈ outputNames selection) ↔
      o.IsOutput selection := by
  unfold ontoDistinct
  simp only [Field.toOption_qualified]
  split
  · next field hfield =>
    -- The name of the item that equals the expression is an output name.
    obtain ⟨name, hcolumn, hname⟩ := Option.bind_eq_some_iff.mp hfield
    obtain ⟨item, hitem, houtput⟩ := Option.bind_eq_some_iff.mp hcolumn
    rw [Option.ite_none_right_eq_some] at hname
    obtain ⟨hname, hchecked⟩ := hname
    cases hchecked
    refine iff_of_true (fun f hf => ?_) (.inl ⟨item, hitem, name, houtput, hname⟩)
    obtain rfl := Reference.field.inj (List.mem_singleton.mp hf)
    exact ⟨rfl, List.mem_filterMap.mpr ⟨item, List.mem_of_find?_eq_some hitem, houtput⟩⟩
  · next hnone =>
    -- Without a name for its expression the order keeps its columns, on the symbol of the rows.
    have hmoved : (o.requalify (.onto (some distinctSymbol))).expression.mentions =
        o.expression.mentions.map (·.movedOnto distinctSymbol) := o.expression.mentions_relocate _
    have hunnamed : ¬ ∃ item ∈ selection.find? (·.expression == o.expression),
        ∃ name ∈ item.outputName?, Field.IsColumnName name := by
      rintro ⟨item, hitem, name, houtput, hname⟩
      simp [Option.mem_def.mp hitem, Option.mem_def.mp houtput, hname] at hnone
    rw [hmoved, IsOutput, or_iff_right hunnamed]
    constructor
    · exact fun h f hf => (h _ (List.mem_map.mpr ⟨_, hf, rfl⟩)).2
    · intro h f hf
      obtain ⟨reference, hreference, heq⟩ := List.mem_map.mp hf
      cases reference with
      | field f' =>
        obtain rfl := Reference.field.inj heq
        exact ⟨rfl, h f' hreference⟩
      | wildcard source => cases heq

/-- Different rows are numbered by output columns of them alone exactly if each order is by output
columns: an order of the query itself, or where it has none one that its source gives. -/
theorem Query.references_window {q : Query} {s : Setting} (hnumbers : s.numbersRows = true)
    (hdistinct : q.distinct = true) (hskip : q.skip.isSome = true)
    (hsuccess : (Drafted.draft q s).failure = none) :
    ∃ window, (Drafted.draft q s).window? = some window ∧
      ((∀ f, Reference.field f ∈ Sign.references window →
          f.source = some distinctSymbol ∧ f.name ∈ outputNames q.selection) ↔
        ∀ o ∈ q.numberingOrders, o.IsOutput q.selection) := by
  obtain ⟨window, hwindow, hrefs⟩ :=
    (hasWindow_drafted hnumbers hdistinct hskip).exists_window hsuccess
  refine ⟨window, hwindow, ?_⟩
  -- The columns of a window are those of its orders, one by one.
  rw [hrefs, orders_implyOrders hskip]
  simp only [← Order.forall_mentions_ontoDistinct_iff, List.mem_flatMap, List.mem_map]
  constructor
  · exact fun h o ho f hf => h f ⟨_, ⟨o, ho, rfl⟩, hf⟩
  · rintro h f ⟨_, ⟨o, ho, rfl⟩, hf⟩
    exact h o ho f hf

/-- All but the first of the different values of a column, under another name and in some order, of
a table that is stored in some order. -/
def Query.skippedValues (stored orders : List Order) : Query :=
  let table := Query.ofSource (.single (.table ⟨"T", none, stored⟩))
  let values := table.project (.ofField ⟨"A", none⟩) (some "x")
  { values.withDistinct.withSkip 1 with orders := orders }

/-- An order by the expression of the column. -/
theorem Query.references_window_skippedValues :
    let draft := Drafted.draft (skippedValues [] [⟨.ofField ⟨"A", none⟩, .asc⟩])
      (.outermost .sqlServer .standard .bound)
    draft.failure = none ∧ ∃ window, draft.window? = some window ∧
      ∀ f, Reference.field f ∈ Sign.references window →
        f.source = some distinctSymbol ∧ f.name ∈ ["x"] := by
  intro draft
  obtain ⟨window, hwindow, houtput⟩ :=
    references_window (q := skippedValues [] [⟨.ofField ⟨"A", none⟩, .asc⟩])
      (s := .outermost .sqlServer .standard .bound) rfl rfl rfl rfl
  refine ⟨rfl, window, hwindow, houtput.mpr (List.forall_mem_singleton.mpr (.inl ?_))⟩
  exact ⟨⟨.ofField ⟨"A", none⟩, some "x"⟩, rfl, "x", rfl, by decide⟩

/-- The order of a stored table, by a column that has another name in the different rows. -/
theorem Query.text_skippedValues :
    renderInline (skippedValues [⟨.ofField ⟨"A", none⟩, .asc⟩] []) .sqlServer .standard =
        .ok ("SELECT * FROM (SELECT *, ROW_NUMBER() OVER (ORDER BY [distinct_t].[A] ASC) " ++
          "AS rownum FROM (SELECT DISTINCT [A] AS [x] FROM [T]) distinct_t) paging_t " ++
          "WHERE rownum > 1 ORDER BY rownum") ∧
      (Drafted.draft (skippedValues [⟨.ofField ⟨"A", none⟩, .asc⟩] [])
          (.outermost .sqlServer .standard .inline)).window? =
        some ([.glyph (.word "ORDER"), .glyph (.word "BY")] ++
          Sign.column ⟨"A", some distinctSymbol⟩ ++ [.glyph (.word "ASC")]) ∧
      outputNames (skippedValues [⟨.ofField ⟨"A", none⟩, .asc⟩] []).selection = ["x"] :=
  ⟨by decide +kernel, by decide +kernel, rfl⟩

end DialectSql
