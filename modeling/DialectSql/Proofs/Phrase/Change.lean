import DialectSql.Draft.Change
import DialectSql.Proofs.Phrase.Query

/-!
# Phrases of changes

The draft of an INSERT, an UPDATE or a DELETE is a phrase, and so is that of every statement.

## Main results

* `Assignment.phrase_valueDraft`, `Assignment.phrase_draft` — assignments
* `Change.phrase_draft`, `Statement.phrase_draft` — statements
-/

namespace DialectSql

open Text Phrase

variable {N : String → Prop} {s : Setting}

/-- An identifier at the head of a change is a phrase, with quotes or without. -/
theorem Setting.phrase_changeName (s : Setting) {name : String} (h : N name) :
    InteriorPhrase N N false false (s.changeName name) := by
  unfold changeName
  split
  · exact .bare h
  · exact (Phrase.quoted h).loose

namespace Assignment

variable {a : Assignment}

/-- What is assigned is an interior phrase. -/
theorem phrase_valueDraft (h : ∀ n ∈ a.names, N n) :
    InteriorPhrase N N false false (a.valueDraft s) := by
  rw [names, List.forall_mem_cons] at h
  obtain ⟨v, hvalue⟩ | ⟨e, he, hvalue⟩ := a.valueDraft_cases s
  · rw [hvalue]
    exact .constant v
  · rw [hvalue]
    rw [he] at h
    exact Expression.phrase_draft e h.2

theorem phrase_columnDraft (h : ∀ n ∈ a.names, N n) :
    InteriorPhrase N N false false (a.columnDraft s) :=
  s.phrase_changeName (h a.column.name (by simp [names]))

/-- An item of a SET list is an interior phrase. -/
theorem phrase_draft (h : ∀ n ∈ a.names, N n) : InteriorPhrase N N false false (a.draft s) := by
  have hcolumn := phrase_columnDraft (s := s) h
  have hvalue := phrase_valueDraft (s := s) h
  have hplus : isOperator "+" = true := rfl
  have hequal : isOperator "=" = true := rfl
  rw [draft_eq_ite]
  split
  · exact operation hequal hcolumn (operation hplus hcolumn hvalue)
  · exact operation hequal hcolumn hvalue

end Assignment

namespace Change

variable {c : Change}

section Names

variable (hN : AdmitsSymbols N) (h : ∀ n ∈ c.names, N n)
include h

theorem names_source : ∀ n ∈ c.source.names, N n := by
  simp only [names, List.forall_mem_append] at h
  exact h.1.1

theorem names_assignments : ∀ a ∈ c.assignments, ∀ n ∈ a.names, N n := by
  simp only [names, List.forall_mem_append] at h
  exact List.forall_mem_flatMap.mp h.2

include hN

/-- The changed table is an interior phrase. -/
theorem phrase_headDraft : InteriorPhrase N N false false (c.headDraft s) := by
  have hsource := names_source h
  unfold headDraft
  split
  · next t ht =>
    simp only [ht, Source.names, Relation.names, Table.names, List.forall_mem_append,
      List.forall_mem_cons] at hsource
    obtain ⟨⟨hname, halias⟩, -⟩ := hsource
    have hhead := s.phrase_changeName hname
    split
    · next a ha =>
      exact hhead.separated (keyword " " rfl rfl) (s.phrase_changeName (halias a (by simp [ha])))
    · exact hhead
  · exact Source.phrase_draft hN _ s hsource

/-- The condition of a change, if it has one, begins with a WHERE. -/
theorem phrase_filterDraft : Optional N N (isInterior · = true) true (c.filterDraft s) := by
  simp only [names, List.forall_mem_append] at h
  refine phrase_whereDraft (fun _ => id) (fun d hd => ?_) (by simp)
  obtain ⟨f, hf, rfl⟩ := Option.map_eq_some_iff.mp hd
  exact Criteria.phrase_draftOption hN c.criteria h.1.2 f hf s

/-- The symbol of the changed table is among the identifiers, or a symbol that writing adds. -/
theorem phrase_changedSymbol :
    InteriorPhrase N N false false (s.changeName c.source.leftmost.symbol) :=
  s.phrase_changeName (Relation.names_symbol hN (Source.names_leftmost c.source (names_source h)))

omit hN in
/-- An INSERT is an interior phrase. -/
theorem phrase_insertDraft {t : Table} (ht : N t.name) :
    InteriorPhrase N N false false (c.insertDraft s t) := by
  have hassigned := names_assignments h
  have hhead : InteriorPhrase N N false false (.text "INSERT INTO " ++ s.changeName t.name) :=
    ((keyword "INSERT INTO " rfl rfl).lead (s.phrase_changeName ht)).loose
  have hlist : ∀ ds : List Draft, (∀ d ∈ ds, InteriorPhrase N N false false d) →
      InteriorPhrase N N true true (Draft.list ds).parens :=
    fun _ => listParens (U := (isInterior · = true)) rfl
  unfold insertDraft
  refine (hhead.followedBy ?_ : InteriorPhrase N N false false _).loose
  -- Without assignments the dialect has a clause for it, or two empty lists.
  split
  · unfold insertNothing
    split
    · exact ((((keyword " " rfl rfl).lead .noArguments).separated (keyword " VALUES " rfl rfl)
        .noArguments)).looseEnd
    · exact keyword " DEFAULT VALUES" rfl rfl
  · dsimp only
    refine (((keyword " " rfl rfl).lead (hlist _ ?_)).separated (keyword " VALUES " rfl rfl)
      (hlist _ ?_)).looseEnd
    · intro d hd
      rw [List.map_map] at hd
      obtain ⟨a, ha, rfl⟩ := List.mem_map.mp hd
      exact Assignment.phrase_columnDraft (hassigned a ha)
    · intro d hd
      rw [List.map_map] at hd
      obtain ⟨a, ha, rfl⟩ := List.mem_map.mp hd
      exact Assignment.phrase_valueDraft (hassigned a ha)

/-- An UPDATE is an interior phrase. -/
theorem phrase_updateDraft : InteriorPhrase N N false false (c.updateDraft s) := by
  unfold updateDraft
  split
  · exact .fail _
  · next hne =>
    split
    · exact .fail _
    · have hassigned : InteriorPhrase N N false false
          (.list (c.assignments.map (·.draft s))) := by
        refine items (fun _ => id) (by simpa using hne) fun d hd => ?_
        obtain ⟨a, ha, rfl⟩ := List.mem_map.mp hd
        exact Assignment.phrase_draft (names_assignments h a ha)
      -- The symbol of a join is changed, or else a table.
      have hset : ∀ {d : Draft}, InteriorPhrase N N false false d →
          InteriorPhrase N N false false (.text "UPDATE " ++ d ++ .text " SET " ++
            .list (c.assignments.map (·.draft s))) := fun hd =>
        (((keyword "UPDATE " rfl rfl).lead hd).separated (keyword " SET " rfl rfl) hassigned).loose
      dsimp only
      split
      · exact ((hset (phrase_changedSymbol hN h)).separated (keyword " FROM " rfl rfl)
          (Source.phrase_draft hN _ s (names_source h))).append_optional
          (phrase_filterDraft hN h) rfl
      · exact (hset (phrase_headDraft hN h)).append_optional (phrase_filterDraft hN h) rfl

/-- A DELETE is an interior phrase. -/
theorem phrase_deleteDraft : InteriorPhrase N N false false (c.deleteDraft s) := by
  unfold deleteDraft
  split
  · exact .fail _
  · refine Phrase.append_optional (?_ : InteriorPhrase N N false false _)
      (phrase_filterDraft hN h) rfl
    split
    · exact (((keyword "DELETE " rfl rfl).lead (phrase_changedSymbol hN h)).separated
        (keyword " FROM " rfl rfl) (Source.phrase_draft hN _ s (names_source h))).loose
    · exact ((keyword "DELETE FROM " rfl rfl).lead (phrase_headDraft hN h)).loose

/-- A change is an interior phrase. -/
theorem phrase_draft (s : Setting) : InteriorPhrase N N false false (c.draft s) := by
  unfold draft Draft.ofExcept
  split
  · next t htarget =>
    -- The target of a change is the first table of its source.
    have ht : N t.name := by
      have hleftmost := Source.names_leftmost c.source (names_source h)
      unfold target at htarget
      split at htarget
      · next t' hrelation =>
        obtain rfl : t' = t := by simpa using htarget
        rw [hrelation] at hleftmost
        exact hleftmost _ (by simp [Relation.names, Table.names])
      · cases htarget
      · cases htarget
    split
    · exact phrase_insertDraft h ht
    · exact phrase_updateDraft hN h
    · exact phrase_deleteDraft hN h
  · exact .fail _

end Names

end Change

/-- A statement is a phrase. -/
theorem Statement.phrase_draft (hN : AdmitsSymbols N) {t : Statement} (h : ∀ n ∈ t.names, N n)
    (s : Setting) : AnyPhrase N N false false (t.draft s) := by
  cases t with
  | query q => exact Query.phrase_draft hN q s h
  | set q => exact QuerySet.phrase_draft hN q s h
  | change c => exact (Change.phrase_draft hN h s).any

end DialectSql
