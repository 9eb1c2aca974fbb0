import DialectSql.Draft.Query
import DialectSql.Proofs.Phrase.Expression
import DialectSql.Proofs.Run

/-!
# Phrases of queries

The draft of a query, a set operation, a source or a condition is a phrase whose identifiers are
those of the tree and the symbols that writing adds. Sources and conditions are interior phrases,
and so is what stands behind the SELECT of a query without orders and limits.

## Main definitions

* `SelectPhrase` — a SELECT and a phrase behind it
* `Clauses.Phrases`, `Query.ClauseNames` — what is known of the clauses of a query

## Main results

* `Query.phrase_unpagedDraft`, `Query.phrase_pagedDraft`, `Query.phrase_clausesDraft` — a query from
  its clauses
* `Query.phrase_draft`, `QuerySet.phrase_draft`, `Source.phrase_draft`, `Criteria.phrase_draft` —
  whole statements
-/

namespace DialectSql

open Text Phrase

/-- A phrase of any words. -/
abbrev AnyPhrase (N B : String → Prop) (opens closes : Bool) (d : Draft) : Prop :=
  Phrase N B (fun _ => True) opens closes d

variable {N B T : String → Prop} {opens closes : Bool} {a b d : Draft} {s : Setting}

/-- Any keywords, numbers and operators. -/
theorem Phrase.anyText (t : String) (hplain : isPlain t = true) :
    AnyPhrase N B (opensApart t) (closesApart t) (.text t) :=
  .text hplain trivial

/-- Keywords, numbers and operators that are not known to begin or end apart. -/
theorem Phrase.looseText (t : String) (hplain : isPlain t = true) :
    AnyPhrase N B false false (.text t) :=
  (anyText t hplain).loose

/-- Keywords, numbers and operators that begin apart. -/
theorem Phrase.apartText {t : String} (hplain : isPlain t = true) (hopens : opensApart t = true) :
    AnyPhrase N B true false (.text t) :=
  spelled hplain trivial (fun _ => hopens) (Bool.false_le _)

/-- An interior phrase is one of any words. -/
theorem Phrase.any (h : Phrase N B T opens closes d) : AnyPhrase N B opens closes d :=
  h.mono fun _ _ => trivial

/-! ## SELECT -/

/-- A SELECT and a phrase behind it. -/
def SelectPhrase (N B T : String → Prop) (d : Draft) : Prop :=
  ∃ t rest, d = .text ("SELECT " ++ t) ++ rest ∧ isPlain t = true ∧ T t ∧
    closesApart ("SELECT " ++ t) = true ∧ Phrase N B T false false rest

namespace SelectPhrase

theorem of_rest (hT : T "") (h : Phrase N B T false false d) :
    SelectPhrase N B T (.text "SELECT " ++ d) :=
  ⟨"", d, rfl, rfl, hT, rfl, h⟩

theorem followedBy (ha : SelectPhrase N B T a) (hb : Phrase N B T true closes b) :
    SelectPhrase N B T (a ++ b) := by
  obtain ⟨t, rest, rfl, hplain, ht, hcloses, hrest⟩ := ha
  exact ⟨t, rest ++ b, Draft.append_assoc _ _ _, hplain, ht, hcloses, (hrest.followedBy hb).loose⟩

theorem append_optional (ha : SelectPhrase N B T a) (hb : Optional N B T true b) :
    SelectPhrase N B T (a ++ b) := by
  obtain ⟨t, rest, rfl, hplain, ht, hcloses, hrest⟩ := ha
  exact ⟨t, rest ++ b, Draft.append_assoc _ _ _, hplain, ht, hcloses,
    Phrase.append_optional hrest hb rfl⟩

/-- A SELECT with all that stands behind it. -/
theorem phrase (h : SelectPhrase N B T d) : AnyPhrase N B false false d := by
  obtain ⟨t, rest, rfl, hplain, -, hcloses, hrest⟩ := h
  have hselect : AnyPhrase N B false true (.text ("SELECT " ++ t)) := by
    refine spelled ?_ trivial (Bool.false_le _) fun _ => hcloses
    rw [isPlain_append, hplain]
    rfl
  exact hselect.lead hrest.any

end SelectPhrase

/-! ## Clauses -/

/-- The clauses of a query that hold statements are interior phrases. -/
structure Clauses.Phrases (N B : String → Prop) (c : Clauses) : Prop where
  /-- What the query reads. -/
  source : ∀ s, InteriorPhrase N B false false (c.source s)
  /-- The condition on the rows that are read. -/
  filter : ∀ f ∈ c.filter, ∀ s, Optional N B (isInterior · = true) false (f s)
  /-- The condition on groups. -/
  having : ∀ f ∈ c.having, ∀ s, Optional N B (isInterior · = true) false (f s)

/-- The condition on the rows that are read, in a setting. -/
theorem Clauses.Phrases.filterDraft {c : Clauses} (hc : c.Phrases N B) (s : Setting) :
    ∀ d ∈ c.filter.map (· s), Optional N B (isInterior · = true) false d := by
  intro d hd
  obtain ⟨f, hf, rfl⟩ := Option.map_eq_some_iff.mp hd
  exact hc.filter f hf s

/-- The identifiers in the clauses of a query that hold expressions alone. -/
structure Query.ClauseNames (N : String → Prop) (q : Query) : Prop where
  /-- The projection. -/
  selection : ∀ p ∈ q.selection, ∀ n ∈ p.names, N n
  /-- The order of the rows. -/
  orders : ∀ o ∈ q.orders, ∀ n ∈ o.names, N n
  /-- The aggregate. -/
  aggregation : ∀ a ∈ q.aggregation, ∀ n ∈ a.names, N n
  /-- The groups. -/
  groupBy : ∀ e ∈ q.groupBy, ∀ n ∈ e.names, N n

/-- The identifiers of the clauses of a query are among those of the query. -/
theorem Query.clauseNames_of_names {q : Query} (h : ∀ n ∈ q.names, N n) : q.ClauseNames N := by
  obtain ⟨source, criteria, selection, distinct, orders, skip, take, aggregation, groupBy,
    having⟩ := q
  simp only [names, List.forall_mem_append] at h
  obtain ⟨⟨⟨⟨⟨-, hselection⟩, horders⟩, haggregation⟩, hgroup⟩, -⟩ := h
  rw [List.forall_mem_flatMap] at hselection horders hgroup
  refine ⟨hselection, horders, ?_, hgroup⟩
  rintro a rfl
  exact haggregation

section Clauses

variable (hT : ∀ t, isInterior t = true → T t)
include hT

/-- A comma-separated list of items. -/
theorem Phrase.items {ds : List Draft} (hne : ds ≠ [])
    (h : ∀ d ∈ ds, InteriorPhrase N B false false d) : Phrase N B T false false (.list ds) :=
  (joinWith (keyword ", " rfl rfl) hne h).mono hT

/-- A WHERE clause with a condition, a limit, both or none. -/
theorem Phrase.phrase_whereDraft {filter limit : Option Draft}
    (hfilter : ∀ d ∈ filter, Optional N B (isInterior · = true) false d)
    (hlimit : ∀ d ∈ limit, Phrase N B T false false d) :
    Optional N B T true (whereDraft filter limit) := by
  have hwhere : Phrase N B T true true (.text " WHERE ") := (keyword " WHERE " rfl rfl).mono hT
  have hand : Phrase N B T true true (.text " AND ") := (keyword " AND " rfl rfl).mono hT
  unfold whereDraft
  split
  · next f l =>
    have hparens : Phrase N B T true true f.parens := parens_optional (hfilter f rfl)
    exact ((hwhere.followedBy hparens).separated hand (hlimit l rfl)).optional
  · next f =>
    exact .inr (hwhere.append_optional ((hfilter f rfl).mono hT) rfl)
  · next l => exact (hwhere.lead (hlimit l rfl)).optional
  · exact optional_empty

theorem Query.phrase_projectionDraft {q : Query} (hq : q.ClauseNames N) :
    Phrase N B T false false (q.projectionDraft s) := by
  unfold projectionDraft
  split
  · exact ((keyword "*" rfl rfl).mono hT).loose
  · next hne =>
    refine items hT (by simpa using hne) fun d hd => ?_
    obtain ⟨p, hp, rfl⟩ := List.mem_map.mp hd
    exact Projection.phrase_draft (hq.selection p hp)

/-- FROM and what comes behind it, but for orders and limits. -/
theorem Query.phrase_bodyDraft {q : Query} {c : Clauses} (hq : q.ClauseNames N) (hc : c.Phrases N B)
    {limit : Option Draft} (hlimit : ∀ d ∈ limit, Phrase N B T false false d) :
    Phrase N B T true false (q.bodyDraft c limit s) := by
  have hfrom : Phrase N B T true false (.text " FROM " ++ c.source s) :=
    (keyword " FROM " rfl rfl).mono hT |>.lead ((hc.source s).mono hT)
  have hwhere : Optional N B T true (whereDraft (c.filter.map (· s)) limit) :=
    phrase_whereDraft hT (hc.filterDraft s) hlimit
  have hgroup : Optional N B T true (if q.groupBy.isEmpty then .empty
      else .text " GROUP BY " ++ .list (q.groupBy.map (·.draft s))) := by
    split
    · exact optional_empty
    · next hne =>
      refine (((keyword " GROUP BY " rfl rfl).mono hT).lead
        (items hT (by simpa using hne) fun d hd => ?_)).optional
      obtain ⟨e, he, rfl⟩ := List.mem_map.mp hd
      exact Expression.phrase_draft e (hq.groupBy e he)
  unfold bodyDraft
  refine ((hfrom.append_optional hwhere rfl).append_optional hgroup rfl).append_optional ?_ rfl
  split
  · next having hmem =>
    exact .inr (((keyword " HAVING " rfl rfl).mono hT).append_optional
      ((hc.having having hmem s).mono hT) rfl)
  · exact optional_empty

/-- The start of a SELECT with its projection. -/
theorem Query.phrase_headDraft {q : Query} (hq : q.ClauseNames N) {top : Option UInt64}
    (htop : ∀ count ∈ top, T ("TOP " ++ natural count.toNat ++ " ")) :
    SelectPhrase N B T (q.headDraft top ++ q.projectionDraft s) := by
  have hprojection : Phrase N B T false false (q.projectionDraft s) := phrase_projectionDraft hT hq
  -- DISTINCT stands in front of the limit if there is one, or else of the projection.
  have hquantified : ∀ {d : Draft}, Phrase N B T false false d →
      Phrase N B T false false ((if q.distinct then .text "DISTINCT " else .empty) ++ d) := by
    intro d hd
    split
    · exact (((keyword "DISTINCT " rfl rfl).mono hT).lead hd).loose
    · exact hd
  unfold headDraft
  rw [Draft.append_assoc, Draft.append_assoc]
  refine .of_rest (hT "" rfl) ?_
  cases top with
  | none => exact hquantified hprojection
  | some count =>
    have hplain : isPlain ("TOP " ++ natural count.toNat ++ " ") = true := by
      rw [isPlain_append, isPlain_append, isPlain_natural]
      rfl
    have hcloses : closesApart ("TOP " ++ natural count.toNat ++ " ") = true :=
      closesApart_append rfl
    have hlimit : Phrase N B T false true (.text ("TOP " ++ natural count.toNat ++ " ")) :=
      spelled hplain (htop count rfl) (Bool.false_le _) fun _ => hcloses
    exact hquantified (hlimit.lead hprojection)

end Clauses

/-- An ORDER BY clause, unless there is nothing to order by. -/
theorem Phrase.phrase_orderDraft (hT : ∀ t, T t) {orders : List Order}
    (h : ∀ o ∈ orders, ∀ n ∈ o.names, N n) : Optional N B T true (orderDraft s orders) := by
  unfold orderDraft
  split
  · exact optional_empty
  · next hne =>
    refine ((Phrase.text rfl (hT " ORDER BY ")).lead
      (items (fun t _ => hT t) (by simpa using hne) fun d hd => ?_)).optional
    obtain ⟨o, ho, rfl⟩ := List.mem_map.mp hd
    exact Order.phrase_draft (h o ho)

namespace Query

/-! ## Limits -/

/-- A query without limits other than those that fit into its clauses. -/
theorem phrase_unpagedDraft (hT : ∀ t, isInterior t = true → T t) {q : Query} {c : Clauses}
    (hq : q.ClauseNames N) (hc : c.Phrases N B) {top : Option UInt64} {limit : Option Draft}
    (htop : ∀ count ∈ top, T ("TOP " ++ natural count.toNat ++ " "))
    (hlimit : ∀ d ∈ limit, Phrase N B T false false d)
    (horder : Optional N B T true (orderDraft s q.orders)) :
    SelectPhrase N B T (q.unpagedDraft c top limit s) :=
  ((phrase_headDraft hT hq htop).followedBy (phrase_bodyDraft hT hq hc hlimit)).append_optional
    horder

/-- A query with a limit that fits into its clauses, or none. -/
theorem any_unpagedDraft {q : Query} {c : Clauses} (hq : q.ClauseNames N) (hc : c.Phrases N B)
    {top : Option UInt64} {limit : Option Draft}
    (hlimit : ∀ d ∈ limit, AnyPhrase N B false false d) :
    AnyPhrase N B false false (q.unpagedDraft c top limit s) := by
  have horder : Optional N B (fun _ => True) true (orderDraft s q.orders) :=
    phrase_orderDraft (fun _ => trivial) hq.orders
  have hselect : SelectPhrase N B (fun _ => True) (q.unpagedDraft c top limit s) :=
    phrase_unpagedDraft (fun _ _ => trivial) hq hc (fun _ _ => trivial) hlimit horder
  exact hselect.phrase

/-- The name of a column of row numbers is one word. The depth that is added to it leaves its first
letter. -/
theorem exists_runs_rowNumberName {base : String}
    (hbase : base = "rownum" ∨ base = "paging_rownumber") (s : Setting) :
    ∃ w c, w.toList.head? = some c ∧ (c = 'R' ∨ c = 'P') ∧
      ∀ {α : Type} (word : String → α) (sign : Char → List α),
        runs word sign (rowNumberName base s) = [word w] := by
  have hname : base.toList.all Config.isNameChar = true ∧
      ∃ c, (base.toList.map Char.toUpper).head? = some c ∧ (c = 'R' ∨ c = 'P') := by
    rcases hbase with rfl | rfl
    · exact ⟨rfl, 'R', rfl, .inl rfl⟩
    · exact ⟨rfl, 'P', rfl, .inr rfl⟩
  obtain ⟨hchars, c, hhead, hletter⟩ := hname
  -- What may be added for the depth has only characters of names.
  have hsuffix : ∃ suffix, rowNumberName base s = base ++ suffix ∧
      suffix.toList.all Config.isNameChar = true := by
    unfold rowNumberName
    split
    · exact ⟨"", String.append_empty.symm, rfl⟩
    · refine ⟨"_" ++ natural s.depth, String.append_assoc, ?_⟩
      rw [String.toList_append, List.all_append, all_isNameChar_natural]
      rfl
  obtain ⟨suffix, hsuffix, hall⟩ := hsuffix
  have hfirst : ((base ++ suffix).toList.map Char.toUpper).head? = some c := by
    rw [String.toList_append, List.map_append, List.head?_append, hhead]
    rfl
  refine ⟨String.ofList ((base ++ suffix).toList.map Char.toUpper), c, ?_, hletter,
    fun word sign => ?_⟩
  · rw [String.toList_ofList]
    exact hfirst
  · rw [hsuffix]
    refine runs_of_all (fun hnil => ?_) ?_
    · rw [hnil] at hfirst
      cases hfirst
    · rw [String.toList_append, List.all_append, hchars, hall]
      rfl

theorem isPlain_rowNumberName {base : String} (h : isPlain base = true) (s : Setting) :
    isPlain (rowNumberName base s) = true := by
  unfold rowNumberName
  split
  · exact h
  · rw [isPlain_append, isPlain_append, h, isPlain_natural]
    rfl

theorem phrase_overDraft {orders : List Order} (h : ∀ o ∈ orders, ∀ n ∈ o.names, N n) :
    AnyPhrase N B false false (overDraft s orders) := by
  unfold overDraft
  split
  · exact (Phrase.parens (anyText "SELECT NULL" rfl)).loose
  · next hne =>
    refine items (fun _ _ => trivial) (by simpa using hne) fun d hd => ?_
    obtain ⟨o, ho, rfl⟩ := List.mem_map.mp hd
    exact Order.phrase_draft (h o ho)

theorem phrase_rowNumberDraft {column : String} (hcolumn : isPlain column = true)
    (hd : AnyPhrase N B opens closes d) : AnyPhrase N B true false (rowNumberDraft column d) := by
  have hnumber : AnyPhrase N B true true (.text ", ROW_NUMBER" ++ Draft.empty.parens) :=
    (anyText ", ROW_NUMBER" rfl).followedBy .noArguments
  have hover : AnyPhrase N B true true (.text "ORDER BY " ++ d : Draft).parens :=
    .parens ((anyText "ORDER BY " rfl).lead hd)
  have halias : AnyPhrase N B true false (.text (" AS " ++ column)) := by
    refine apartText ?_ (opensApart_append rfl)
    rw [isPlain_append, hcolumn]
    rfl
  exact (hnumber.separated (anyText " OVER " rfl) hover).followedBy halias

/-- The names of an order on the symbol of different rows are those of the query and that symbol. -/
theorem names_ontoDistinct (hN : AdmitsSymbols N) {q : Query} (hq : q.ClauseNames N) {o : Order}
    (ho : ∀ n ∈ o.names, N n) : ∀ n ∈ (o.ontoDistinct q.selection).names, N n := by
  unfold Order.ontoDistinct
  dsimp only
  split
  · next f hf =>
    obtain ⟨name, hname, hfield⟩ := Option.bind_eq_some_iff.mp hf
    obtain ⟨p, hp, houtput⟩ := Option.bind_eq_some_iff.mp hname
    -- The order is by an output column: its name is projected, its qualifier is the symbol.
    have hok : Field.qualified distinctSymbol name = .ok f := by
      cases hr : Field.qualified distinctSymbol name with
      | error e => simp [hr, Except.toOption] at hfield
      | ok g =>
        obtain rfl : g = f := by simpa [hr, Except.toOption] using hfield
        rfl
    have hmem : N name :=
      hq.selection p (List.mem_of_find?_eq_some hp) name
        (Projection.mem_names_of_outputName? houtput)
    rw [Order.names, Expression.ofField, Expression.names, Field.names_qualified hok]
    simpa using ⟨hmem, hN.distinct⟩
  · exact Expression.names_requalify_onto hN.distinct _ ho

theorem phrase_numberedDraft (hN : AdmitsSymbols N) {q : Query} {c : Clauses}
    (hq : q.ClauseNames N) (hc : c.Phrases N B) {column : String}
    (hcolumn : isPlain column = true) : AnyPhrase N B false false (q.numberedDraft c column s) := by
  have hhead : ∀ s, AnyPhrase N B false false (q.headDraft none ++ q.projectionDraft s) := fun s =>
    (phrase_headDraft (T := fun _ => True) (fun _ _ => trivial) hq (by simp)).phrase
  have hbody : ∀ s, AnyPhrase N B true false (q.bodyDraft c none s) := fun s =>
    phrase_bodyDraft (fun _ _ => trivial) hq hc (by simp)
  unfold numberedDraft
  split
  -- Equal rows are dropped in a subquery, and the orders move onto its symbol.
  · have hover : ∀ o ∈ q.orders.map (·.ontoDistinct q.selection), ∀ n ∈ o.names, N n := by
      intro o ho
      obtain ⟨p, hp, rfl⟩ := List.mem_map.mp ho
      exact names_ontoDistinct hN hq (hq.orders p hp)
    have hrows : AnyPhrase N B true true
        (q.headDraft none ++ q.projectionDraft s.nested ++ q.bodyDraft c none s.nested).parens :=
      .parens ((hhead s.nested).followedBy (hbody s.nested))
    have hnumbers : AnyPhrase N B true false (rowNumberDraft column
        (overDraft s (q.orders.map (·.ontoDistinct q.selection)))) :=
      phrase_rowNumberDraft hcolumn (phrase_overDraft hover)
    exact ((((anyText "SELECT *" rfl).lead hnumbers).separated (anyText " FROM " rfl)
      hrows).followedBy (anyText " distinct_t" rfl)).loose
  · have hnumbers : AnyPhrase N B true false (rowNumberDraft column (overDraft s q.orders)) :=
      phrase_rowNumberDraft hcolumn (phrase_overDraft hq.orders)
    exact (((hhead s).followedBy hnumbers).followedBy (hbody s)).loose

theorem phrase_numberingDraft (hN : AdmitsSymbols N) {q : Query} {c : Clauses}
    (hq : q.ClauseNames N) (hc : c.Phrases N B) :
    AnyPhrase N B false false (q.numberingDraft c s) := by
  unfold numberingDraft
  split
  · exact any_unpagedDraft hq hc (by simp)
  · next skip hskip =>
    have hcolumn : isPlain (rowNumberName "rownum" s) = true := isPlain_rowNumberName rfl s
    dsimp only
    generalize rowNumberName "rownum" s = column at hcolumn ⊢
    have hrows : AnyPhrase N B true true (q.numberedDraft c column s).parens :=
      .parens (phrase_numberedDraft hN hq hc hcolumn)
    have hskipped : AnyPhrase N B true false
        (.text (" " ++ pagingSymbol ++ " WHERE " ++ column ++ " > " ++ natural skip.toNat)) := by
      refine apartText ?_ ?_
      · simp only [isPlain_append, isPlain_natural, hcolumn]
        rfl
      · iterate 5 apply opensApart_append
        rfl
    -- The wrapper limits the rows, because it alone sees their numbers.
    have hlimited : ∀ top : Draft, Optional N B (fun _ => True) false top →
        AnyPhrase N B false false (.text "SELECT " ++ top ++ .text "* FROM ") := fun top htop =>
      (((anyText "SELECT " rfl).append_optional htop rfl).followedBy (anyText "* FROM " rfl)).loose
    have horder : Optional N B (fun _ => True) true
        (if 0 < s.depth && q.take.isNone then .empty else .text (" ORDER BY " ++ column)) := by
      split
      · exact optional_empty
      · refine (apartText ?_ (opensApart_append rfl)).optional
        simp only [isPlain_append, hcolumn]
        rfl
    refine (((hlimited _ ?_).followedBy hrows).followedBy hskipped).append_optional horder rfl
    split
    · refine (looseText _ ?_).optional
      simp only [isPlain_append, isPlain_natural]
      rfl
    · exact optional_empty

theorem phrase_rowNumCap (cap : Nat) : AnyPhrase N B false false (rowNumCap cap) := by
  refine looseText _ ?_
  simp only [isPlain_append, isPlain_natural]
  rfl

theorem phrase_pseudoColumnDraft {q : Query} {c : Clauses} (hq : q.ClauseNames N)
    (hc : c.Phrases N B) : AnyPhrase N B false false (q.pseudoColumnDraft c s) := by
  have hplain : AnyPhrase N B false false (q.unpagedDraft c none none s) :=
    any_unpagedDraft hq hc (by simp)
  unfold pseudoColumnDraft
  split
  · exact hplain
  · next skip hskip =>
    have hcolumn : isPlain (rowNumberName "paging_rownumber" s) = true :=
      isPlain_rowNumberName rfl s
    dsimp only
    generalize rowNumberName "paging_rownumber" s = column at hcolumn ⊢
    have hhead : AnyPhrase N B false false
        (.text ("SELECT " ++ pagingSymbol ++ ".*, ROWNUM " ++ column ++ " FROM ")) := by
      refine looseText _ ?_
      simp only [isPlain_append, hcolumn]
      rfl
    have hskipped : AnyPhrase N B true false
        (.text (" WHERE " ++ column ++ " > " ++ natural skip.toNat)) := by
      refine apartText ?_ ?_
      · simp only [isPlain_append, isPlain_natural, hcolumn]
        rfl
      · iterate 3 apply opensApart_append
        rfl
    have hnumbered : AnyPhrase N B false false
        (.text ("SELECT " ++ pagingSymbol ++ ".*, ROWNUM " ++ column ++ " FROM ") ++
          (q.unpagedDraft c none none s).parens ++ .text (" " ++ pagingSymbol)) :=
      ((hhead.followedBy (.parens hplain)).followedBy (anyText " paging_t" rfl)).loose
    -- The last row is cut off by the pseudo-column itself, in the inner wrapper.
    have hcapped : ∀ cap : Draft, Optional N B (fun _ => True) true cap →
        AnyPhrase N B true true (.text ("SELECT " ++ pagingSymbol ++ ".*, ROWNUM " ++ column ++
          " FROM ") ++ (q.unpagedDraft c none none s).parens ++ .text (" " ++ pagingSymbol) ++
          cap : Draft).parens := fun cap hcap => .parens (hnumbered.append_optional hcap rfl)
    refine (((anyText "SELECT * FROM " rfl).lead (hcapped _ ?_)).followedBy hskipped).loose
    split
    · exact ((anyText " WHERE " rfl).lead (phrase_rowNumCap _)).optional
    · exact optional_empty
  · split
    · exact (((anyText "SELECT * FROM " rfl).lead (.parens hplain)).separated
        (anyText " WHERE " rfl) (phrase_rowNumCap _)).loose
    · exact any_unpagedDraft hq hc (by
        rintro d ⟨⟩
        exact phrase_rowNumCap _)

theorem phrase_limitDraft (clause : LimitClause) :
    Optional N B (fun _ => True) true (limitDraft clause) := by
  cases clause with
  | absent => exact optional_empty
  | limit take =>
    refine (apartText ?_ (opensApart_append rfl)).optional
    simp only [isPlain_append, isPlain_natural]
    rfl
  | limitComma skip count =>
    refine (apartText ?_ ?_).optional
    · simp only [LimitClause.text, isPlain_append, isPlain_natural, isPlain_integer]
      rfl
    · iterate 3 apply opensApart_append
      rfl
  | limitOffset take skip =>
    refine (apartText ?_ ?_).optional
    · simp only [LimitClause.text, isPlain_append, isPlain_natural]
      rfl
    · iterate 3 apply opensApart_append
      rfl
  | offset skip =>
    refine (apartText ?_ (opensApart_append rfl)).optional
    simp only [isPlain_append, isPlain_natural]
    rfl

/-- A query with its limits. -/
theorem phrase_pagedDraft (hN : AdmitsSymbols N) {q : Query} {c : Clauses} (hq : q.ClauseNames N)
    (hc : c.Phrases N B) : AnyPhrase N B false false (q.pagedDraft c s) := by
  have hplain : AnyPhrase N B false false (q.unpagedDraft c none none s) :=
    any_unpagedDraft hq hc (by simp)
  unfold pagedDraft
  split
  · exact phrase_numberingDraft hN hq hc
  · exact phrase_pseudoColumnDraft hq hc
  · cases s.dialect.rowLimiting.limitClause? q.skip q.take with
    | none =>
      have hnothing : Optional N B (fun _ => True) true .empty := optional_empty
      exact hplain.append_optional hnothing rfl
    | some clause => exact hplain.append_optional (phrase_limitDraft clause) rfl

/-- A query without limits is the same in every dialect. -/
theorem pagedDraft_of_not_isPaged {q : Query} (c : Clauses) (s : Setting)
    (hskip : q.skip = none) (htake : q.take = none) :
    q.pagedDraft c s = q.unpagedDraft c none none s := by
  unfold pagedDraft numberingDraft pseudoColumnDraft
  rw [hskip, htake]
  cases s.dialect <;> simp [Dialect.rowLimiting, RowLimiting.limitClause?, limitDraft]

/-! ## Aggregates -/

/-- An aggregate is a SELECT without orders and limits, whatever its rows are. -/
theorem phrase_aggregateDraft (hN : AdmitsSymbols N) {q : Query} {c : Clauses}
    (hq : q.ClauseNames N) (hc : c.Phrases N B) {a : Aggregation} (ha : ∀ n ∈ a.names, N n) :
    SelectPhrase N B (isInterior · = true) (q.aggregateDraft c a s) := by
  have hnames : ∀ n ∈ a.toExpression.names, N n := by
    obtain ⟨function, argument⟩ := a
    cases argument with
    | none => simp [Aggregation.toExpression, Expression.apply, Expression.names,
        Expression.namesList, Expression.allColumns]
    | some e => simpa [Aggregation.toExpression, Expression.apply, Expression.names,
        Expression.namesList, Aggregation.names] using ha
  unfold aggregateDraft
  split
  -- Different or limited rows come from a subquery, so the aggregate moves onto its symbol.
  · have hcall : InteriorPhrase N B false false
        ((a.toExpression.relocate aggregateSymbol).draft s) :=
      Expression.phrase_draft _ (Expression.names_requalify_onto hN.aggregate _ hnames)
    have hrows : InteriorPhrase N B true true (q.pagedDraft c s.nested).parens :=
      .parens (phrase_pagedDraft hN hq hc)
    have hfrom := (hcall.separated (keyword " FROM " rfl rfl) hrows).followedBy
      (keyword " agg_t" rfl rfl)
    rw [Draft.append_assoc, Draft.append_assoc, Draft.append_assoc]
    rw [Draft.append_assoc, Draft.append_assoc] at hfrom
    exact .of_rest rfl hfrom.loose
  · have hcall : InteriorPhrase N B false false (a.toExpression.draft s) :=
      Expression.phrase_draft _ hnames
    have hfrom := hcall.separated (keyword " FROM " rfl rfl) (hc.source s)
    have hwhere : Optional N B (isInterior · = true) true
        (whereDraft (c.filter.map (· s)) none) :=
      phrase_whereDraft (fun _ => id) (hc.filterDraft s) (by simp)
    have hall := hfrom.append_optional hwhere rfl
    rw [Draft.append_assoc, Draft.append_assoc, Draft.append_assoc]
    rw [Draft.append_assoc, Draft.append_assoc] at hall
    exact .of_rest rfl hall

/-! ## Queries from their clauses -/

/-- A query from its clauses. -/
theorem phrase_clausesDraft (hN : AdmitsSymbols N) {q : Query} {c : Clauses} (hq : q.ClauseNames N)
    (hc : c.Phrases N B) : AnyPhrase N B false false (q.clausesDraft c s) := by
  unfold clausesDraft
  split
  · next a ha => exact (phrase_aggregateDraft hN hq hc (hq.aggregation a ha)).phrase
  · exact phrase_pagedDraft hN hq hc

/-- Without orders and limits, a query is a SELECT in front of an interior phrase. -/
theorem select_clausesDraft (hN : AdmitsSymbols N) {q : Query} {c : Clauses}
    (hq : q.ClauseNames N) (hc : c.Phrases N B) (horders : q.orders = []) (hskip : q.skip = none)
    (htake : q.take = none) : SelectPhrase N B (isInterior · = true) (q.clausesDraft c s) := by
  unfold clausesDraft
  split
  · next a ha => exact phrase_aggregateDraft hN hq hc (hq.aggregation a ha)
  · rw [pagedDraft_of_not_isPaged c s hskip htake]
    refine phrase_unpagedDraft (fun _ => id) hq hc (by simp) (by simp) ?_
    rw [horders]
    exact optional_empty

end Query

/-! ## Sources and set operations -/

/-- An operand in a subquery is a SELECT without orders and limits. -/
theorem Phrase.select_wrappedOperand (h : Phrase N B T opens closes d) :
    SelectPhrase N B (isInterior · = true) (wrappedOperand d) := by
  have hrows : InteriorPhrase N B true false (d.parens ++ .text (" " ++ operandSymbol)) :=
    (Phrase.parens h).followedBy (keyword " set_t" rfl rfl)
  exact ⟨"* FROM ", _, Draft.append_assoc _ _ _, rfl, rfl, rfl, hrows.loose⟩

theorem SetOperator.isPlain_keyword {operator : SetOperator} {dialect : Dialect} {keyword : String}
    (h : operator.keyword dialect = .ok keyword) : isPlain keyword = true := by
  cases operator <;> cases dialect <;> cases h <;> rfl

theorem QuerySet.phrase_operandsDraft {operator : SetOperator} {orders : List Order}
    (hleft : AnyPhrase N B false false a) (hright : AnyPhrase N B false false b)
    (horders : ∀ o ∈ orders, ∀ n ∈ o.names, N n) :
    AnyPhrase N B false false (operandsDraft s operator orders a b) := by
  unfold operandsDraft Draft.ofExcept
  split
  · next keyword hkeyword =>
    have hplain : isPlain (" " ++ keyword ++ " ") = true := by
      rw [isPlain_append, isPlain_append, operator.isPlain_keyword hkeyword]
      rfl
    have hopens : opensApart (" " ++ keyword ++ " ") = true :=
      opensApart_append (opensApart_append rfl)
    have hbetween : AnyPhrase N B true true (.text (" " ++ keyword ++ " ")) :=
      spelled hplain trivial (fun _ => hopens) fun _ => closesApart_append rfl
    exact (hleft.separated hbetween hright).append_optional
      (phrase_orderDraft (fun _ => trivial) horders) rfl
  · exact .fail _

/-- A table is an interior phrase. -/
theorem Table.phrase_draft {t : Table} (h : ∀ n ∈ t.names, N n) :
    InteriorPhrase N B false false t.draft := by
  simp only [names, List.forall_mem_append, List.forall_mem_cons] at h
  obtain ⟨⟨hname, halias⟩, -⟩ := h
  unfold draft
  split
  · next a ha =>
    exact ((Phrase.quoted hname).separated (keyword " " rfl rfl)
      (Phrase.quoted (halias a (by simp [ha])))).loose
  · exact (Phrase.quoted hname).loose

/-- A subquery as a source is an interior phrase. -/
theorem Phrase.phrase_derivedDraft (hd : Phrase N B T opens closes d) {symbol : String}
    (hsymbol : N symbol) : InteriorPhrase N B false false (derivedDraft d symbol) :=
  ((Phrase.parens hd).separated (keyword " " rfl rfl) (.quoted hsymbol)).loose

theorem Criteria.phrase_compoundDraft (op : Connective) {ds : List Draft}
    (h : ∀ d ∈ ds, Optional N B (isInterior · = true) false d) :
    Optional N B (isInterior · = true) false (compoundDraft op ds) := by
  have hparens : ∀ d ∈ ds.map Draft.parens, InteriorPhrase N B true true d := by
    intro d hd
    obtain ⟨e, he, rfl⟩ := List.mem_map.mp hd
    exact parens_optional (h e he)
  unfold compoundDraft
  dsimp only
  -- Without children a connective is written as nothing, or as NOT with nothing behind it.
  by_cases hne : ds.map Draft.parens = []
  · rw [hne]
    cases op with
    | not => exact (keyword "NOT " rfl rfl).optional.mono fun _ => id
    | and | or => exact optional_empty
  · cases op with
    | not =>
      have hjoined : InteriorPhrase N B true true (.joinWith "" (ds.map Draft.parens)) :=
        joinWith_of_apart (keyword "" rfl rfl) rfl rfl hne hparens
      exact .inr ((keyword "NOT " rfl rfl).lead hjoined).loose
    | and => exact .inr (joinWith (keyword " AND " rfl rfl) hne hparens).loose
    | or => exact .inr (joinWith (keyword " OR " rfl rfl) hne hparens).loose

theorem JoinKind.phrase_symbol (kind : JoinKind) :
    InteriorPhrase N B true true (.text (" " ++ kind.symbol ++ " ")) := by
  cases kind with
  | inner => exact keyword " INNER JOIN " rfl rfl
  | left => exact keyword " LEFT JOIN " rfl rfl
  | right => exact keyword " RIGHT JOIN " rfl rfl

/-! ## Statements -/

mutual

/-- A condition is an interior phrase, or nothing where a connective has no children. -/
theorem Criteria.phrase_draft (hN : AdmitsSymbols N) :
    ∀ (c : Criteria) (s : Setting), (∀ n ∈ c.names, N n) →
      Optional N B (isInterior · = true) false (c.draft s)
  | .expression e, s, h => (Expression.phrase_draft e h).optional
  | .compound op children, s, h =>
    Criteria.phrase_compoundDraft op (Criteria.phrase_draftList hN children s h)
  | .inSelect subject query op, s, h => by
    rw [Criteria.names, List.forall_mem_append] at h
    have hrows : InteriorPhrase N B true true (query.draft s.nested).parens :=
      .parens (Query.phrase_draft hN query s.nested h.2)
    have hin : InteriorPhrase N B false true
        (subject.draft s ++ .text (" " ++ op.symbol ++ " ") ++ (query.draft s.nested).parens) :=
      operation op.isOperator_symbol (Expression.phrase_draft subject h.1) hrows
    exact hin.optional

/-- The conditions of a list are interior phrases or nothing. -/
theorem Criteria.phrase_draftList (hN : AdmitsSymbols N) :
    ∀ (cs : List Criteria) (s : Setting), (∀ n ∈ Criteria.namesList cs, N n) →
      ∀ d ∈ Criteria.draftList cs s, Optional N B (isInterior · = true) false d
  | [], _, _ => by simp [Criteria.draftList]
  | c :: cs, s, h => by
    rw [Criteria.namesList, List.forall_mem_append] at h
    rw [Criteria.draftList, List.forall_mem_cons]
    exact ⟨Criteria.phrase_draft hN c s h.1, Criteria.phrase_draftList hN cs s h.2⟩

/-- An optional condition is an interior phrase or nothing in every setting. -/
theorem Criteria.phrase_draftOption (hN : AdmitsSymbols N) :
    ∀ c? : Option Criteria, (∀ n ∈ Criteria.namesOption c?, N n) →
      ∀ f ∈ Criteria.draftOption c?, ∀ s, Optional N B (isInterior · = true) false (f s)
  | none, _ => by simp [Criteria.draftOption]
  | some c, h => by
    rintro f ⟨⟩ s
    exact Criteria.phrase_draft hN c s h

/-- A relation is an interior phrase. -/
theorem Relation.phrase_draft (hN : AdmitsSymbols N) :
    ∀ (r : Relation) (s : Setting), (∀ n ∈ r.names, N n) →
      InteriorPhrase N B false false (r.draft s)
  | .table t, _, h => Table.phrase_draft h
  | .select query alias?, s, h => by
    rw [Relation.names, List.forall_mem_append] at h
    exact (Query.phrase_draft hN query s.nested h.1).phrase_derivedDraft (hN.alias h.2)
  | .set set alias?, s, h => by
    rw [Relation.names, List.forall_mem_append] at h
    exact (QuerySet.phrase_draft hN set s.nested h.1).phrase_derivedDraft (hN.alias h.2)

/-- A source is an interior phrase. -/
theorem Source.phrase_draft (hN : AdmitsSymbols N) :
    ∀ (r : Source) (s : Setting), (∀ n ∈ r.names, N n) → InteriorPhrase N B false false (r.draft s)
  | .single r, s, h => Relation.phrase_draft hN r s h
  | .joined kind left right on, s, h => by
    simp only [Source.names, List.forall_mem_append] at h
    obtain ⟨⟨hleft, hright⟩, hon⟩ := h
    have hl : InteriorPhrase N B false false (left.draft s) := Source.phrase_draft hN left s hleft
    have hr : InteriorPhrase N B false false (right.draft s) :=
      Source.phrase_draft hN right s hright
    -- Parentheses keep a join on the right together, and leave everything else as it is.
    have hoperand : InteriorPhrase N B false false
        (if right.isJoined then (right.draft s).parens else right.draft s) := by
      split
      · exact (Phrase.parens hr).loose
      · exact hr
    have hjoin := (hl.separated kind.phrase_symbol hoperand).followedBy (keyword " ON " rfl rfl)
    rw [Source.draft]
    exact (hjoin.append_optional (Criteria.phrase_draft hN on s hon) rfl).loose

/-- A query is a phrase. -/
theorem Query.phrase_draft (hN : AdmitsSymbols N) :
    ∀ (q : Query) (s : Setting), (∀ n ∈ q.names, N n) → AnyPhrase N B false false (q.draft s)
  | ⟨source, criteria, selection, distinct, orders, skip, take, aggregation, groupBy, having⟩, s,
    h => by
    have hnames := Query.clauseNames_of_names h
    simp only [Query.names, List.forall_mem_append] at h
    obtain ⟨⟨⟨⟨⟨⟨hsource, hcriteria⟩, -⟩, -⟩, -⟩, -⟩, hhaving⟩ := h
    have hclauses : Clauses.Phrases N B
        { source := fun s => source.draft s
          filter := Criteria.draftOption criteria
          having := Criteria.draftOption having } :=
      ⟨fun s => Source.phrase_draft hN source s hsource,
        Criteria.phrase_draftOption hN criteria hcriteria,
        Criteria.phrase_draftOption hN having hhaving⟩
    have hplain := Query.phrase_clausesDraft (s := s) hN hnames hclauses
    cases source with
    | joined kind left right on => simpa [Query.draft] using hplain
    | single r =>
      cases r with
      | table t => simpa [Query.draft] using hplain
      | select query alias? => simpa [Query.draft] using hplain
      | set set alias? =>
        -- A query that adds nothing to a set operation is written as that set operation.
        rw [Query.draft]
        split
        · rw [Source.names, Relation.names, List.forall_mem_append] at hsource
          exact QuerySet.phrase_draft hN set s hsource.1
        · exact hplain

/-- An operand of a set operation is a phrase. -/
theorem SetOperand.phrase_draft (hN : AdmitsSymbols N) :
    ∀ (o : SetOperand) (s : Setting), (∀ n ∈ o.names, N n) → AnyPhrase N B false false (o.draft s)
  | .query q, s, h => by
    rw [SetOperand.draft]
    split
    · exact Query.phrase_draft hN q s h
    · exact (Query.phrase_draft hN q s.nested h).select_wrappedOperand.phrase
  | .set set, s, h => (QuerySet.phrase_draft hN set s.nested h).select_wrappedOperand.phrase

/-- A set operation is a phrase. -/
theorem QuerySet.phrase_draft (hN : AdmitsSymbols N) :
    ∀ (q : QuerySet) (s : Setting), (∀ n ∈ q.names, N n) → AnyPhrase N B false false (q.draft s)
  | ⟨operator, left, right, orders⟩, s, h => by
    simp only [QuerySet.names, List.forall_mem_append] at h
    obtain ⟨⟨hleft, hright⟩, horders⟩ := h
    rw [List.forall_mem_flatMap] at horders
    exact QuerySet.phrase_operandsDraft (SetOperand.phrase_draft hN left s hleft)
      (SetOperand.phrase_draft hN right s hright) horders

end

end DialectSql
