import DialectSql.Proofs.RowBounds.Select

/-!
# Wrappers around numbered rows

Where a dialect has no clause that limits rows, these are numbered in a derived table, and a
condition behind it leaves out the first of them. The name of their column is no keyword, so that
the condition is read as one on the numbers.

## Main definitions

* `Part.Numbers` — rows with their numbers in a column
* `Part.IsPaging` — a derived table of rows in front of a condition

## Main results

* `Part.states_skip`, `Part.states_cap` — the bounds of a wrapper
* `Query.states_numberingDraft`, `Query.states_pseudoColumnDraft` — the bounds of a query whose rows
  are numbered
-/

namespace DialectSql

open Text

namespace Part

variable {column : String} {cap skip : Nat} {last top : Option Nat}
  {front opening counted ps rest rows tail : List (Part Token)}

/-! ## Rows -/

/-- Rows with their numbers in a column, of which there may be a last one. -/
def Numbers (column : String) (last : Option Nat) (ps : List (Part Token)) : Prop :=
  numbering? ps = some column ∧ lastNumber? ps = last

/-- The projected number of a row, counted by some orders. -/
def numberParts (counted : List (Part Token)) (column : String) : List (Part Token) :=
  [leaf (.sign ','), leaf (.word "ROW_NUMBER"), parens [], leaf (.word "OVER"), parens counted,
    leaf (.word "AS"), leaf (.word column)]

/-- Rows that are numbered behind their projection. -/
theorem numbers_numberParts (hfront : Lacks ["FROM"] front) (hcolumn : column ≠ "FROM")
    (htail : IsNamed tail) :
    Numbers column none (front ++ numberParts counted column ++ leaf (.word "FROM") :: tail) := by
  -- The numbers are the last item, so that their name stands right in front of the FROM.
  have hitems : Lacks ["FROM"] (front ++ numberParts counted column) := by
    refine lacks_append.mpr ⟨hfront, ?_⟩
    simpa [Lacks, numberParts, isWord] using hcolumn
  refine ⟨?_, ?_⟩
  · rw [numbering?, before_append hitems, List.reverse_append]
    rfl
  · have hbehind : IsNamed (after "FROM" (front ++ numberParts counted column ++
        leaf (.word "FROM") :: tail)) := by
      rwa [after_append hitems, after_cons_self]
    exact hbehind.read_eq.2.1

/-! ## Wrappers -/

/-- A derived table of rows, with the symbol for it or without, in front of a condition. -/
inductive IsPaging (rows rest : List (Part Token)) : List (Part Token) → Prop
  | named : IsPaging rows rest (parens rows :: leaf (.word "PAGING_T") :: rest)
  | unnamed {more : List (Part Token)} (h : rest = leaf (.word "WHERE") :: more) :
      IsPaging rows rest (parens rows :: rest)

/-- The derived table is found, and it is not that of an aggregate. -/
theorem IsPaging.read_eq (h : IsPaging rows rest (after "FROM" ps)) :
    derived? ps = some (rows, rest) ∧ aggregated ps = ps := by
  unfold derived? aggregated
  generalize after "FROM" ps = behind at h
  cases h with
  | named => exact ⟨rfl, rfl⟩
  | unnamed h =>
    subst h
    exact ⟨rfl, rfl⟩

theorem IsPaging.lacks (h : IsPaging rows rest tail) (hrest : Lacks limitWords rest) :
    Lacks limitWords tail := by
  cases h with
  | named => exact lacks_cons.mpr ⟨fun _ _ => rfl, lacks_cons.mpr ⟨by decide, hrest⟩⟩
  | unnamed => exact lacks_cons.mpr ⟨fun _ _ => rfl, hrest⟩

/-- What is read of a wrapper: no limit at its end, and one in front of its projection at most. -/
theorem IsPaging.read_append (h : IsPaging rows rest tail) (hopening : IsOpening top opening)
    (hrest : Lacks limitWords rest) :
    derived? (opening ++ tail) = some (rows, rest) ∧
      aggregated (opening ++ tail) = opening ++ tail ∧ top? (opening ++ tail) = top ∧
      limit (opening ++ tail) = (0, none) := by
  have hpaging : IsPaging rows rest (after "FROM" (opening ++ tail)) := by
    rwa [hopening.after_eq]
  have hlacks : Lacks limitWords (opening ++ tail) :=
    lacks_append.mpr ⟨hopening.lacks, h.lacks hrest⟩
  exact ⟨hpaging.read_eq.1, hpaging.read_eq.2, hopening.top?_eq tail, limit_of_lacks hlacks⟩

/-- A condition that leaves out the first rows. -/
def skipParts (column : String) (skip : Nat) : List (Part Token) :=
  [leaf (.word "WHERE"), leaf (.word column), leaf (.sign '>'), leaf (.word (natural skip))]

/-- A condition that leaves out the last rows. -/
def capParts (cap : Nat) : List (Part Token) :=
  [leaf (.word "WHERE"), leaf (.word "ROWNUM"), leaf (.sign '<'), leaf (.sign '='),
    leaf (.word (natural cap))]

theorem lacks_skipParts (hcolumn : column ∉ limitWords) (skip : Nat) :
    Lacks limitWords (skipParts column skip) :=
  .word (by decide) (.word hcolumn (.sign (.number skip .nil)))

theorem lacks_capParts (cap : Nat) : Lacks limitWords (capParts cap) :=
  .word (by decide) (.word (by decide) (.sign (.sign (.number cap .nil))))

/-- The rows that a wrapper leaves out by their numbers. Those behind the last one are left out
further in. -/
theorem states_skip (hopening : IsOpening top opening)
    (h : IsPaging rows (skipParts column skip ++ rest) tail) (hrows : Numbers column last rows)
    (hcolumn : column ∉ limitWords) (hrest : Lacks limitWords rest) :
    States ⟨skip, last, 0, top⟩ (opening ++ tail) := by
  obtain ⟨hderived, haggregated, htop, hlimit⟩ :=
    h.read_append hopening (lacks_append.mpr ⟨lacks_skipParts hcolumn skip, hrest⟩)
  have hskipped : skipped? (opening ++ tail) = some (rows, skip) := by
    rw [skipped?, hderived]
    simp [skipParts, hrows.1]
  refine ⟨?_, haggregated⟩
  rw [rowBounds, hskipped, hlimit, htop]
  simp [hrows.2]

/-- The last rows, which a wrapper leaves out. -/
theorem states_cap (hopening : IsOpening top opening) (h : IsPaging rows (capParts cap) tail) :
    States ⟨0, some cap, 0, top⟩ (opening ++ tail) := by
  obtain ⟨hderived, haggregated, htop, hlimit⟩ := h.read_append hopening (lacks_capParts cap)
  have hskipped : skipped? (opening ++ tail) = none := by
    rw [skipped?, hderived]
    rfl
  have hlast : lastNumber? (opening ++ tail) = some cap := by
    rw [lastNumber?, hderived]
    exact congrArg some (number_natural cap)
  refine ⟨?_, haggregated⟩
  rw [rowBounds, hskipped, hlast, hlimit, htop]
  simp

/-- What a query of all columns and of the pseudo-column begins with. -/
def pseudoColumnParts (column : String) : List (Part Token) :=
  [leaf (.word "SELECT"), leaf (.word "PAGING_T"), leaf (.sign '.'), leaf (.sign '*'),
    leaf (.sign ','), leaf (.word "ROWNUM"), leaf (.word column)]

/-- Rows that are numbered by the pseudo-column, which may also leave out the last of them. -/
theorem numbers_pseudoColumnParts (hcolumn : column ≠ "FROM") (rows : List (Part Token))
    (cap? : Option Nat) :
    Numbers column cap? (pseudoColumnParts column ++ leaf (.word "FROM") :: parens rows ::
      leaf (.word "PAGING_T") :: cap?.elim [] capParts) := by
  have hitems : Lacks ["FROM"] (pseudoColumnParts column) :=
    .word (by decide) (.word (by decide) (.sign (.sign (.sign (.word (by decide)
      (.word (by simpa using hcolumn) .nil))))))
  -- Nothing in front of the FROM is a FROM, so the derived table is behind the first one.
  have hpaging : IsPaging rows (cap?.elim [] capParts) (after "FROM" (pseudoColumnParts column ++
      leaf (.word "FROM") :: parens rows :: leaf (.word "PAGING_T") :: cap?.elim [] capParts)) := by
    rw [after_append hitems, after_cons_self]
    exact .named
  refine ⟨?_, ?_⟩
  · rw [numbering?, before_append hitems]
    rfl
  · rw [lastNumber?, hpaging.read_eq.1]
    cases cap? with
    | none => rfl
    | some cap => exact congrArg some (number_natural cap)

end Part

/-! ## Drafts -/

open Draft DialectSql.Part

variable {column w : String} {skip : Nat} {last top : Option Nat}

/-- A query of numbered rows that leaves out the first of them. -/
theorem Draft.has_wrapper {a b opening : Draft} (hopening : opening.Has (IsOpening top))
    (ha : a.Has (Numbers w last)) (hw : w ∉ limitWords)
    (hb : b.Has fun ps => ∃ rest, Lacks limitWords rest ∧
      ∀ rows, IsPaging rows (skipParts w skip ++ rest) (.parens rows :: ps)) :
    (opening ++ a.parens ++ b).Has (States ⟨skip, last, 0, top⟩) := by
  have htable : (a.parens ++ b).Has fun ps => ∃ rows rest, Numbers w last rows ∧
      Lacks limitWords rest ∧ IsPaging rows (skipParts w skip ++ rest) ps := by
    refine ha.parens.append hb ?_
    rintro _ ps ⟨rows, rfl, hrows⟩ ⟨rest, hrest, hpaging⟩
    exact ⟨rows, rest, hrows, hrest, hpaging rows⟩
  rw [Draft.append_assoc]
  refine hopening.append htable ?_
  rintro _ _ hopening ⟨rows, rest, hrows, hrest, hpaging⟩
  exact states_skip hopening hpaging hrows hw hrest

namespace Query

/-- The name of a column of row numbers is a word, and it is no keyword. -/
theorem exists_tokens_rowNumberName {base : String}
    (hbase : base = "rownum" ∨ base = "paging_rownumber") (s : Setting) :
    ∃ w, tokens (rowNumberName base s) = [.word w] ∧ w ∉ "FROM" :: limitWords := by
  obtain ⟨w, c, hfirst, hletter, hruns⟩ := exists_runs_rowNumberName hbase s
  have hkeywords : ∀ v ∈ "FROM" :: limitWords,
      v.toList.head? ≠ some 'R' ∧ v.toList.head? ≠ some 'P' := by decide
  refine ⟨w, hruns _ _, fun hmem => ?_⟩
  rcases hletter with rfl | rfl
  · exact (hkeywords w hmem).1 hfirst
  · exact (hkeywords w hmem).2 hfirst

/-- A condition on the numbers of rows, behind a text that ends apart. -/
theorem tokens_skip {t : String} (ht : closesApart t = true) (hw : tokens column = [.word w])
    (skip : Nat) :
    tokens (t ++ column ++ " > " ++ natural skip) =
      tokens t ++ [.word w, .sign '>', .word (natural skip)] := by
  have hsign : tokens " > " = [.sign '>'] := rfl
  rw [tokens_append_of_closesApart (closesApart_append rfl), tokens_append_of_opensApart rfl,
    tokens_append_of_closesApart ht, hw, tokens_natural, hsign]
  simp

/-! ### Numbers as a projected column -/

theorem has_rowNumberDraft (hw : tokens column = [.word w]) (s : Setting) (orders : List Order) :
    (rowNumberDraft column (overDraft s orders)).Has fun ps =>
      ∃ counted, ps = numberParts counted w := by
  have horders : AnyDraft s.dialect (.text "ORDER BY " ++ overDraft s orders) :=
    .lead trivial (.ite (.parens (.text trivial))
      (.items (fun o _ => (o.composed_draft s).any) trivial))
  have hnumber : (.text ", ROW_NUMBER" ++ Draft.empty.parens ++ .text " OVER " : Draft).Has
      (· = [.leaf (.sign ','), .leaf (.word "ROW_NUMBER"), .parens [], .leaf (.word "OVER")]) := by
    have hnothing : Draft.empty.parens.Has (· = [.parens []]) :=
      Has.empty.parens.mono fun _ ⟨_, hps, hrows⟩ => hrows ▸ hps
    exact ((Has.text_of [.sign ',', .word "ROW_NUMBER"] rfl).append_eq hnothing).append_eq
      (.text_of [.word "OVER"] rfl)
  have halias : (Draft.text (" AS " ++ column)).Has
      (· = [.leaf (.word "AS"), .leaf (.word w)]) := by
    refine .text_of [.word "AS", .word w] ?_
    rw [tokens_append_of_closesApart rfl, hw]
    rfl
  -- Of the orders nothing is needed but that parentheses are around them.
  have hover : (.text ", ROW_NUMBER" ++ Draft.empty.parens ++ .text " OVER " ++
      (.text "ORDER BY " ++ overDraft s orders : Draft).parens).Has fun ps => ∃ counted, ps =
        [.leaf (.sign ','), .leaf (.word "ROW_NUMBER"), .parens [], .leaf (.word "OVER"),
          .parens counted] := by
    refine hnumber.append horders.has_parts.parens ?_
    rintro _ _ rfl ⟨counted, rfl, -⟩
    exact ⟨counted, rfl⟩
  refine hover.append halias ?_
  rintro _ _ ⟨counted, rfl⟩ rfl
  exact ⟨counted, rfl⟩

/-- Rows that are numbered behind their projection. -/
theorem has_numbers {front rest : Draft} (hw : tokens column = [.word w]) (hfrom : w ≠ "FROM")
    (s : Setting) (orders : List Order) (hfront : front.Has (Lacks ["FROM"]))
    (hrest : rest.Has fun ps => ∃ tail, ps = .leaf (.word "FROM") :: tail ∧ IsNamed tail) :
    (front ++ rowNumberDraft column (overDraft s orders) ++ rest).Has (Numbers w none) := by
  have hitems : (front ++ rowNumberDraft column (overDraft s orders)).Has fun ps =>
      ∃ front counted, ps = front ++ numberParts counted w ∧ Lacks ["FROM"] front := by
    refine hfront.append (has_rowNumberDraft hw s orders) ?_
    rintro front _ hfront ⟨counted, rfl⟩
    exact ⟨front, counted, rfl, hfront⟩
  refine hitems.append hrest ?_
  rintro _ _ ⟨front, counted, rfl, hfront⟩ ⟨tail, rfl, htail⟩
  exact numbers_numberParts hfront hfrom htail

/-- The beginning of a query of all columns, with a limit or without. -/
theorem has_selectStar (take : Option UInt64) :
    (.text "SELECT " ++ (match take with
      | some take => .text ("TOP " ++ natural take.toNat ++ " ")
      | none => .empty) ++ .text "* FROM " : Draft).Has (IsOpening (take.map (·.toNat))) := by
  have hselect : (Draft.text "SELECT ").Has (· = [.leaf (.word "SELECT")]) := .text_of _ rfl
  have hstar : (Draft.text "* FROM ").Has (· = [.leaf (.sign '*'), .leaf (.word "FROM")]) :=
    .text_of _ rfl
  refine ((hselect.append_eq (has_topDraft take)).append_eq hstar).mono ?_
  rintro _ rfl
  refine ⟨[.leaf (.word "SELECT")] ++ topParts take ++ [.leaf (.sign '*')], by simp, ?_,
    top?_append take (by decide) (by decide)⟩
  exact lacks_append.mpr ⟨lacks_append.mpr ⟨by decide, lacks_topParts take⟩, by decide⟩

section Clauses

variable {q : Query} {c : Clauses} (hc : c.Unlimited)
include hc

theorem has_numberedDraft (hw : tokens column = [.word w]) (hfrom : w ≠ "FROM") (s : Setting) :
    (q.numberedDraft c column s).Has (Numbers w none) := by
  unfold numberedDraft
  split
  -- Equal rows are dropped in a derived table, and its symbol is not that of numbered rows.
  · have hrows : (q.headDraft none ++ q.projectionDraft s.nested ++ q.bodyDraft c none s.nested).Has
        fun _ => True :=
      (q.has_head none).append (has_bodyDraft hc s.nested) fun _ _ _ _ => trivial
    have htable : (.text " FROM " ++ ((q.headDraft none ++ q.projectionDraft s.nested ++
        q.bodyDraft c none s.nested).parens ++ .text (" " ++ distinctSymbol)) : Draft).Has
          fun ps => ∃ tail, ps = .leaf (.word "FROM") :: tail ∧ IsNamed tail := by
      refine has_from.append (has_derived (w := "DISTINCT_T") hrows rfl) ?_
      rintro _ _ rfl ⟨rows, rfl, -⟩
      exact ⟨_, rfl, .derived rows (by simp) []⟩
    have hstar : (Draft.text "SELECT *").Has (Lacks ["FROM"]) := has_lacks_text (by decide)
    have hnumbers := has_numbers hw hfrom s (q.orders.map (·.ontoDistinct q.selection)) hstar htable
    simpa only [Draft.append_assoc] using hnumbers
  · exact has_numbers hw hfrom s q.orders
      ((q.has_head none).mono fun _ hps => hps.1.mono (by simp))
      ((has_bodyDraft hc s).mono fun _ ⟨source, hps, hsource⟩ => ⟨source, hps, hsource.1⟩)

/-- The bounds of a query whose rows are skipped by a projected number. -/
theorem states_numberingDraft (s : Setting) : (q.numberingDraft c s).Has
    (States ⟨(q.skip.getD 0).toNat, none, 0, q.take.map (·.toNat)⟩) := by
  unfold numberingDraft
  cases q.skip with
  | none => exact (has_unpagedDraft hc q.take s).mono fun _ hps => hps.states
  | some skip =>
    obtain ⟨w, hw, hkeyword⟩ := exists_tokens_rowNumberName (.inl rfl) s
    rw [List.mem_cons, not_or] at hkeyword
    dsimp only
    generalize rowNumberName "rownum" s = column at hw ⊢
    have hskipped : (Draft.text (" " ++ pagingSymbol ++ " WHERE " ++ column ++ " > " ++
        natural skip.toNat)).Has (· = .leaf (.word "PAGING_T") :: skipParts w skip.toNat) := by
      refine .text_of [.word "PAGING_T", .word "WHERE", .word w, .sign '>',
        .word (natural skip.toNat)] ?_
      rw [tokens_skip (closesApart_append rfl) hw]
      rfl
    -- The order of the wrapper stands behind its condition and limits nothing.
    have horder : (if 0 < s.depth && q.take.isNone then .empty
        else .text (" ORDER BY " ++ column) : Draft).Has (Lacks limitWords) := by
      split
      · exact has_lacks_empty
      · refine (Has.text_of [.word "ORDER", .word "BY", .word w] ?_).mono ?_
        · rw [tokens_append_of_closesApart rfl, hw]
          rfl
        · rintro _ rfl
          exact .word (by decide) (.word (by decide) (.word hkeyword.2 .nil))
    rw [Draft.append_assoc]
    refine has_wrapper (has_selectStar q.take) (has_numberedDraft hc hw hkeyword.1 s) hkeyword.2
      (hskipped.append horder ?_)
    rintro _ rest rfl hrest
    exact ⟨rest, hrest, fun rows => .named⟩

/-- Rows that are numbered by the pseudo-column. -/
theorem has_pseudoColumn (hw : tokens column = [.word w]) (hfrom : w ≠ "FROM") (s : Setting)
    {cap : Draft} {cap? : Option Nat} (hcap : cap.Has (· = cap?.elim [] capParts)) :
    (.text ("SELECT " ++ pagingSymbol ++ ".*, ROWNUM " ++ column ++ " FROM ") ++
      (q.unpagedDraft c none none s).parens ++ .text (" " ++ pagingSymbol) ++ cap : Draft).Has
        (Numbers w cap?) := by
  have hhead : (Draft.text ("SELECT " ++ pagingSymbol ++ ".*, ROWNUM " ++ column ++ " FROM ")).Has
      (· = pseudoColumnParts w ++ [.leaf (.word "FROM")]) := by
    refine .text_of [.word "SELECT", .word "PAGING_T", .sign '.', .sign '*', .sign ',',
      .word "ROWNUM", .word w, .word "FROM"] ?_
    rw [tokens_append_of_opensApart rfl, tokens_append_of_closesApart (closesApart_append rfl), hw]
    rfl
  have htable : ((q.unpagedDraft c none none s).parens ++ .text (" " ++ pagingSymbol) ++ cap).Has
      fun ps => ∃ rows, ps = .parens rows :: .leaf (.word "PAGING_T") :: cap?.elim [] capParts := by
    refine (has_derived (w := "PAGING_T") (has_unpagedDraft hc none s) rfl).append hcap ?_
    rintro _ _ ⟨rows, rfl, -⟩ rfl
    exact ⟨rows, rfl⟩
  rw [Draft.append_assoc (.text _), Draft.append_assoc]
  refine hhead.append htable ?_
  rintro _ _ rfl ⟨rows, rfl⟩
  rw [List.append_assoc]
  exact numbers_pseudoColumnParts hfrom rows cap?

/-- The bounds of a query whose rows are limited by the pseudo-column, but for a limit between
literals that stands in the query itself. -/
theorem states_pseudoColumnDraft {s : Setting}
    (hmode : s.mode = .inline → q.take.isSome = true → q.skip.isSome = true) :
    (q.pseudoColumnDraft c s).Has
      (States ⟨(q.skip.getD 0).toNat, q.take.map (rowCap (q.skip.getD 0)), 0, none⟩) := by
  have hplain := has_unpagedDraft (q := q) hc none s
  have hcap : ∀ cap, (.text " WHERE " ++ rowNumCap cap : Draft).Has (· = capParts cap) := by
    intro cap
    refine (Has.text_of [.word "WHERE"] rfl).append_eq
      (.text_of [.word "ROWNUM", .sign '<', .sign '=', .word (natural cap)] ?_)
    rw [tokens_append_of_closesApart rfl, tokens_natural]
    rfl
  unfold pseudoColumnDraft
  cases hskip : q.skip with
  | none =>
    cases htake : q.take with
    | none => exact hplain.mono fun _ hps => hps.states
    | some take =>
      -- Between literals the limit would stand in the condition of the query itself.
      have hbound : s.mode = .bound := by
        cases hs : s.mode with
        | bound => rfl
        | inline => simpa [htake, hskip] using hmode hs
      have htable : ((q.unpagedDraft c none none s).parens ++
          (.text " WHERE " ++ rowNumCap take.toNat)).Has fun ps =>
            ∃ rows, IsPaging rows (capParts take.toNat) ps := by
        refine hplain.parens.append (hcap take.toNat) ?_
        rintro _ _ ⟨rows, rfl, -⟩ rfl
        exact ⟨rows, .unnamed rfl⟩
      have hzero : rowCap 0 take = take.toNat := by
        have htake := take.toNat_lt
        simp only [rowCap, UInt64.toNat_zero, UInt64.size]
        omega
      rw [hbound, Option.getD_none, Option.map_some, hzero]
      dsimp only
      rw [Draft.append_assoc, Draft.append_assoc]
      exact has_star.append htable fun _ _ hopening ⟨_, hpaging⟩ => states_cap hopening hpaging
  | some skip =>
    obtain ⟨w, hw, hkeyword⟩ := exists_tokens_rowNumberName (.inr rfl) s
    rw [List.mem_cons, not_or] at hkeyword
    dsimp only
    generalize rowNumberName "paging_rownumber" s = column at hw ⊢
    have hskipped : (Draft.text (" WHERE " ++ column ++ " > " ++ natural skip.toNat)).Has
        (· = skipParts w skip.toNat) := by
      refine .text_of [.word "WHERE", .word w, .sign '>', .word (natural skip.toNat)] ?_
      rw [tokens_skip rfl hw]
      rfl
    refine has_wrapper has_star (has_pseudoColumn hc hw hkeyword.1 s ?_) hkeyword.2
      (hskipped.mono ?_)
    · cases q.take with
      | none => exact .empty
      | some take => exact hcap _
    · rintro _ rfl
      exact ⟨[], .nil, fun rows => by
        rw [List.append_nil]
        exact .unnamed rfl⟩

end Clauses

end Query

end DialectSql
