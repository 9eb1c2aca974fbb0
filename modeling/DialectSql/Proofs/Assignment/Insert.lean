import Mathlib.Data.List.Induction
import DialectSql.Proofs.Assignment

/-!
# Columns of an INSERT

The assignments of a change are a map from columns to values that keeps the order in which the
columns were first assigned, and the last assignment to a column stays. An INSERT writes this map as
a list of columns and a list of values, in the same order, and its parameters are numbered in that
order too.

## Main definitions

* `Change.assignAll` — a change with some assignments, made one after the other
* `Context.behind` — where writing stands behind some assignments

## Main results

* `Change.columns_assignIn`, `Change.mem_assignIn` — one assignment more
* `Change.columns_assignAll`, `Change.nodup_columns_assignAll`, `Change.last_assignAll` — all
  assignments
* `Context.render_insert` — the two lists of an INSERT
* `Change.assignments_ordered` — both together
-/

namespace DialectSql

/-- The name of the column of an assignment. -/
def Assignment.columnName (a : Assignment) : String := a.column.name

namespace Change

/-- A change with some assignments, made one after the other. -/
def assignAll (c : Change) (calls : List Assignment) : Change := calls.foldl assign c

/-! ## One assignment -/

variable (a : Assignment) (as : List Assignment)

/-- An assignment adds its column at the end, unless the column is there. -/
theorem columns_assignIn : (assignIn a as).map (·.columnName) =
    if a.columnName ∈ as.map (·.columnName) then as.map (·.columnName)
    else as.map (·.columnName) ++ [a.columnName] := by
  induction as with
  | nil => rfl
  | cons b bs ih =>
    unfold assignIn
    by_cases hname : b.column.name = a.column.name
    · have hmem : a.columnName = b.columnName := hname.symm
      rw [if_pos hname, if_pos (by simp [hmem]), List.map_cons, List.map_cons, hmem]
    · have hne : a.columnName ≠ b.columnName := fun h => hname h.symm
      rw [if_neg hname, List.map_cons, ih, List.map_cons]
      by_cases hmem : a.columnName ∈ bs.map (·.columnName)
      · rw [if_pos hmem, if_pos (List.mem_cons_of_mem _ hmem)]
      · rw [if_neg hmem, if_neg (by simpa [hne] using hmem), List.cons_append]

/-- Behind an assignment there is the new one, and the others to other columns. -/
theorem mem_assignIn {b : Assignment} (hnodup : (as.map (·.columnName)).Nodup)
    (hb : b ∈ assignIn a as) : b = a ∨ b ∈ as ∧ b.columnName ≠ a.columnName := by
  induction as with
  | nil => exact .inl (List.mem_singleton.mp hb)
  | cons d ds ih =>
    rw [List.map_cons, List.nodup_cons] at hnodup
    unfold assignIn at hb
    by_cases hname : d.column.name = a.column.name
    · rw [if_pos hname] at hb
      rcases List.mem_cons.mp hb with rfl | hb
      · exact .inl rfl
      · -- The columns are distinct, so no other assignment is to the column that was replaced.
        refine .inr ⟨List.mem_cons_of_mem _ hb, fun heq => hnodup.1 ?_⟩
        exact List.mem_map.mpr ⟨b, hb, heq.trans hname.symm⟩
    · rw [if_neg hname] at hb
      rcases List.mem_cons.mp hb with rfl | hb
      · exact .inr ⟨List.mem_cons_self, hname⟩
      · rcases ih hnodup.2 hb with rfl | ⟨hmem, hne⟩
        · exact .inl rfl
        · exact .inr ⟨List.mem_cons_of_mem _ hmem, hne⟩

/-! ## All assignments -/

variable (kind : ChangeKind) (source : Source) (calls : List Assignment)

theorem assignAll_append_singleton (c : Change) : (c.assignAll (calls ++ [a])).assignments =
    assignIn a (c.assignAll calls).assignments := by
  rw [assignAll, List.foldl_append]
  rfl

@[simp] theorem kind_assignAll (c : Change) : (c.assignAll calls).kind = c.kind := by
  induction calls generalizing c with
  | nil => rfl
  | cons a calls ih => exact ih (c.assign a)

/-- The columns are those of the assignments in the order in which they came first. -/
theorem columns_assignAll :
    ((ofSource kind source).assignAll calls).assignments.map (·.columnName) =
      (calls.map (·.columnName)).eraseDups := by
  induction calls using List.reverseRecOn with
  | nil => rfl
  | append_singleton calls a ih =>
    rw [assignAll_append_singleton, columns_assignIn, ih, List.map_append, List.eraseDups_append,
      List.map_singleton]
    simp only [List.mem_eraseDups]
    by_cases hmem : a.columnName ∈ calls.map (·.columnName)
    · rw [if_pos hmem, List.removeAll, List.filter_cons_of_neg (by simpa using hmem)]
      simp
    · rw [if_neg hmem, List.removeAll, List.filter_cons_of_pos (by simpa using hmem),
        List.filter_nil, List.eraseDups_cons, List.filter_nil, List.eraseDups_nil]

/-- A first assignment is to some column. -/
theorem assignments_assignAll_ne_nil (h : calls ≠ []) :
    ((ofSource kind source).assignAll calls).assignments ≠ [] := by
  intro hnil
  obtain ⟨a, ha⟩ := List.exists_mem_of_ne_nil calls h
  have hcolumn : a.columnName ∈ (calls.map (·.columnName)).eraseDups :=
    List.mem_eraseDups.mpr (List.mem_map_of_mem ha)
  rw [← columns_assignAll kind source, hnil] at hcolumn
  cases hcolumn

/-- No column stands twice. -/
theorem nodup_columns_assignAll :
    (((ofSource kind source).assignAll calls).assignments.map (·.columnName)).Nodup := by
  induction calls using List.reverseRecOn with
  | nil => exact List.nodup_nil
  | append_singleton calls a ih =>
    rw [assignAll_append_singleton, columns_assignIn]
    split
    · exact ih
    · next hmem => exact ih.append (List.nodup_singleton _) (by simpa using hmem)

/-- The assignment to a column is the last one that was made. -/
theorem last_assignAll {b : Assignment}
    (hb : b ∈ ((ofSource kind source).assignAll calls).assignments) :
    (calls.filter (·.columnName = b.columnName)).getLast? = some b := by
  induction calls using List.reverseRecOn with
  | nil => cases hb
  | append_singleton calls a ih =>
    rw [assignAll_append_singleton] at hb
    rw [List.filter_append, List.getLast?_append]
    rcases mem_assignIn a _ (nodup_columns_assignAll kind source calls) hb with rfl | ⟨hmem, hne⟩
    · simp
    · simp [Ne.symm hne, ih hmem]

end Change

/-! ## Placing lists -/

namespace Draft

/-- A list fails exactly if one of its items does. -/
theorem failure_list_eq_none_iff {drafts : List Draft} :
    (list drafts).failure = none ↔ ∀ draft ∈ drafts, draft.failure = none := by
  induction drafts with
  | nil => simp [list, joinWith, empty]
  | cons first rest ih =>
    rw [List.forall_mem_cons, ← ih]
    cases rest with
    | nil => simp [list, joinWith, empty]
    | cons next rest =>
      have hlist : list (first :: next :: rest) = first ++ text ", " ++ list (next :: rest) := rfl
      simp [hlist, text, piece, Option.or_eq_none_iff]

end Draft

namespace Context

variable (c : Context) (as : List Assignment)

/-- A draft without parameters is placed in front of what stands behind it. -/
theorem place_append_of_place {front : Draft} {t : String} (hfront : front.failure = none)
    (h : c.place front = (t, c)) (draft : Draft) :
    c.place (front ++ draft) = (t ++ (c.place draft).1, (c.place draft).2) := by
  rw [c.place_append hfront, h]

/-- Parentheses are placed around what is between them. -/
theorem place_parens {draft : Draft} (h : draft.failure = none) :
    c.place draft.parens = ("(" ++ (c.place draft).1 ++ ")", (c.place draft).2) := by
  rw [Draft.parens, c.place_append (Draft.failure_opening_append h),
    c.place_append_of_place rfl (c.place_piece rfl)]
  dsimp only
  rw [place_piece _ rfl]
  rfl

/-- The first item of a list is placed in front of the others. -/
theorem place_list_cons_cons {draft : Draft} (h : draft.failure = none) (next : Draft)
    (rest : List Draft) : c.place (.list (draft :: next :: rest)) =
      let (front, behind) := c.place draft
      let (back, last) := behind.place (.list (next :: rest))
      (front ++ ", " ++ back, last) := by
  have hlist : Draft.list (draft :: next :: rest) =
      draft ++ .text ", " ++ .list (next :: rest) := rfl
  rw [hlist, c.place_append (Draft.failure_append_text h _), c.place_append h]
  simp only [place_text]

/-! ## The lists of an INSERT -/

/-- Where writing stands behind some assignments, each of which is written as a column and a
value. -/
def behind : Context := as.foldl (fun c a => (c.columnAndValue a).2) c

/-- The values of some assignments, each written behind those in front of it. -/
def values (c : Context) : List Assignment → List String
  | [] => []
  | a :: as => (c.place (a.valueDraft c.setting)).1 :: (c.columnAndValue a).2.values as

/-- An assignment leaves the setting as it is. -/
theorem setting_columnAndValue (a : Assignment) : (c.columnAndValue a).2.setting = c.setting :=
  (Call.columnAndValue c a).extends.setting

theorem setting_behind : (c.behind as).setting = c.setting := by
  induction as generalizing c with
  | nil => rfl
  | cons a as ih => exact (ih _).trans (c.setting_columnAndValue a)

/-- One assignment more is written behind those in front of it. -/
theorem behind_take_succ {i : Nat} {a : Assignment} (h : as[i]? = some a) :
    c.behind (as.take (i + 1)) = ((c.behind (as.take i)).columnAndValue a).2 := by
  rw [List.take_add_one, h, behind, List.foldl_append]
  rfl

theorem length_values : (c.values as).length = as.length := by
  induction as generalizing c with
  | nil => rfl
  | cons a as ih => rw [values, List.length_cons, ih, List.length_cons]

/-- A value stands where its assignment does, and is written behind the assignments in front. -/
theorem getElem?_values (i : Nat) : (c.values as)[i]? =
    as[i]?.map fun a => ((c.behind (as.take i)).place (a.valueDraft c.setting)).1 := by
  induction as generalizing c i with
  | nil => rfl
  | cons a as ih =>
    cases i with
    | zero => rfl
    | succ i =>
      rw [values, List.getElem?_cons_succ, ih, List.getElem?_cons_succ, setting_columnAndValue]
      rfl

/-- An assignment that can be written is written as its column and what its value is placed as. -/
theorem columnAndValue_eq_ok {a : Assignment} (h : (a.valueDraft c.setting).failure = none) :
    c.columnAndValue a = (.ok (c.changeIdentifier a.columnName,
      (c.place (a.valueDraft c.setting)).1), (c.place (a.valueDraft c.setting)).2) := by
  rw [columnAndValue_eq, write_eq_ok_iff.mpr ⟨h, rfl⟩]
  rfl

/-- An assignment that can be written has its value in its place, written behind the assignments in
front of it. -/
theorem columnAndValue_behind_take {i : Nat} {a : Assignment}
    (h : ∀ a ∈ as, (a.valueDraft c.setting).failure = none) (ha : as[i]? = some a) :
    ∃ value, (c.values as)[i]? = some value ∧
      (c.behind (as.take i)).columnAndValue a =
        (.ok (c.changeIdentifier a.columnName, value), c.behind (as.take (i + 1))) := by
  have hvalue : (a.valueDraft (c.behind (as.take i)).setting).failure = none := by
    rw [setting_behind]
    exact h a (List.mem_of_getElem? ha)
  have hidentifier : (c.behind (as.take i)).changeIdentifier a.columnName =
      c.changeIdentifier a.columnName := by
    rw [changeIdentifier, setting_behind, changeIdentifier]
  refine ⟨_, by rw [getElem?_values, ha]; rfl, ?_⟩
  rw [c.behind_take_succ _ ha, columnAndValue_eq_ok _ hvalue, hidentifier, setting_behind]

/-- The columns of an INSERT are identifiers. -/
theorem place_columns : c.place (.list (as.map (·.columnDraft c.setting))) =
    (", ".intercalate (as.map fun a => c.changeIdentifier a.columnName), c) := by
  induction as with
  | nil => exact c.place_text ""
  | cons a as ih =>
    cases as with
    | nil =>
      rw [List.map_singleton, List.map_singleton, String.intercalate_singleton]
      exact c.place_changeName _
    | cons b as =>
      rw [List.map_cons, List.map_cons] at ih ⊢
      rw [c.place_list_cons_cons rfl, Assignment.columnDraft, place_changeName]
      dsimp only
      rw [ih, List.map_cons, List.map_cons, String.intercalate_cons_cons]
      rfl

/-- The values of an INSERT are written one behind the other. -/
theorem place_values (h : ∀ a ∈ as, (a.valueDraft c.setting).failure = none) :
    c.place (.list (as.map (·.valueDraft c.setting))) =
      (", ".intercalate (c.values as), c.behind as) := by
  induction as generalizing c with
  | nil => exact c.place_text ""
  | cons a as ih =>
    rw [List.forall_mem_cons] at h
    have hpair := c.columnAndValue_eq_ok h.1
    have hsetting := c.setting_columnAndValue a
    have hrest := ih (c.columnAndValue a).2 (by rw [hsetting]; exact h.2)
    rw [hsetting, hpair] at hrest
    -- The other values are written from where the first one leaves the context.
    have hbehind : c.behind (a :: as) = (c.place (a.valueDraft c.setting)).2.behind as := by
      rw [behind, List.foldl_cons, hpair]
      rfl
    cases as with
    | nil =>
      rw [List.map_singleton, values, values, String.intercalate_singleton, hbehind]
      rfl
    | cons b as =>
      rw [List.map_cons] at hrest
      rw [List.map_cons, List.map_cons, c.place_list_cons_cons h.1, hbehind, values, hpair]
      dsimp only
      rw [hrest, values, String.intercalate_cons_cons]

end Context

namespace Change

/-- Implied orders leave a change its target. -/
theorem target_implyOrders (c : Change) : c.implyOrders.target = c.target := by
  unfold target implyOrders
  rw [leftmost_implyOrders]
  cases c.source.leftmost <;> rfl

/-- Whatever its source is, an INSERT writes the table and the assignments alone. -/
theorem drafted_insert {c : Change} (h : c.kind = .insert) (s : Setting) :
    Drafted.draft c s = .ofExcept c.target (c.insertDraft s) := by
  have hdraft : c.draft s = .ofExcept c.target (c.insertDraft s) := by rw [draft, h]
  have himplied : c.implyOrders.draft s = .ofExcept c.target (c.insertDraft s) := by
    have hkind : c.implyOrders.kind = .insert := h
    rw [draft, hkind, target_implyOrders]
    rfl
  change (if s.numbersRows then c.implyOrders else c).draft s = _
  split
  · exact himplied
  · exact hdraft

end Change

namespace Context

/-- An INSERT that is rendered has the columns of its assignments in one list and the values in
another, and leaves writing where it stands behind the assignments. -/
theorem render_insert {c after : Context} {change : Change} {sql : String}
    (hkind : change.kind = .insert) (hassigned : change.assignments ≠ [])
    (h : c.render change = (.ok sql, after)) :
    ∃ table, change.target = .ok table ∧
      (∀ a ∈ change.assignments, (a.valueDraft c.setting).failure = none) ∧
      sql = "INSERT INTO " ++ c.changeIdentifier table.name ++ " (" ++
        ", ".intercalate (change.assignments.map fun a => c.changeIdentifier a.columnName) ++
        ") VALUES (" ++ ", ".intercalate (c.values change.assignments) ++ ")" ∧
      after = c.behind change.assignments := by
  rw [render, Change.drafted_insert hkind] at h
  cases htarget : change.target with
  | error e => rw [htarget] at h; cases h
  | ok table =>
    have hempty : change.assignments.isEmpty = false := by simpa using hassigned
    rw [htarget, Draft.ofExcept, Change.insertDraft, hempty] at h
    simp only [Bool.false_eq_true, if_false, List.map_map, Function.comp_def,
      Assignment.pair] at h
    obtain ⟨hfailure, hplace⟩ := write_eq_ok_iff.mp h
    -- Names of columns never fail, so that what fails is a value.
    have hcolumns : (Draft.list (change.assignments.map (·.columnDraft c.setting))).failure =
        none := by
      rw [Draft.failure_list_eq_none_iff, List.forall_mem_map]
      exact fun _ _ => rfl
    have hlist := (Draft.failure_append_eq_none (Draft.failure_append_eq_none hfailure).2).2
    rw [Draft.failure_parens] at hlist
    have hvalues : ∀ a ∈ change.assignments, (a.valueDraft c.setting).failure = none :=
      List.forall_mem_map.mp (Draft.failure_list_eq_none_iff.mp hlist)
    refine ⟨table, rfl, hvalues, ?_⟩
    -- Each part is placed in the context that the part in front of it leaves.
    rw [Draft.append_assoc, c.place_append_of_place rfl (c.place_text "INSERT INTO "),
      c.place_append_of_place rfl (c.place_changeName table.name), Draft.append_assoc,
      Draft.append_assoc, c.place_append_of_place rfl (c.place_text " "),
      c.place_append_of_place (by rw [Draft.failure_parens, hcolumns])
        (by rw [c.place_parens hcolumns, c.place_columns]),
      c.place_append_of_place rfl (c.place_text " VALUES "), c.place_parens hlist,
      c.place_values _ hvalues] at hplace
    obtain ⟨rfl, rfl⟩ := Prod.mk.inj hplace
    have hopening : " (" = " " ++ "(" := rfl
    have hbetween : ") VALUES (" = ")" ++ (" VALUES " ++ "(") := rfl
    refine ⟨?_, rfl⟩
    rw [hopening, hbetween]
    simp only [String.append_assoc]

end Context

/-- The assignments of a change are a map from columns to values: no column stands twice, the
columns have the order in which they were first assigned, and each has the last of the assignments
that were made to it. An INSERT of at least one assignment that is rendered, in any context, writes
this map as two lists of one length. In each place stand the column and the value of the assignment
in that place, as they are written behind the assignments in front of it, so that the new parameters
have the next numbers, place by place. -/
theorem Change.assignments_ordered (kind : ChangeKind) (source : Source)
    (calls : List Assignment) :
    let change := (ofSource kind source).assignAll calls
    (change.assignments.map (·.columnName)).Nodup ∧
    change.assignments.map (·.columnName) = (calls.map (·.columnName)).eraseDups ∧
    (∀ a ∈ change.assignments,
      (calls.filter (·.columnName = a.columnName)).getLast? = some a) ∧
    (kind = .insert → calls ≠ [] → ∀ (c after : Context) (sql : String),
      c.render change = (.ok sql, after) →
      ∃ (table : Table) (columns values : List String), change.target = .ok table ∧
        sql = "INSERT INTO " ++ c.changeIdentifier table.name ++ " (" ++
          ", ".intercalate columns ++ ") VALUES (" ++ ", ".intercalate values ++ ")" ∧
        columns.length = change.assignments.length ∧ values.length = change.assignments.length ∧
        after = c.behind change.assignments ∧
        ∀ i a, change.assignments[i]? = some a → ∃ column value,
          columns[i]? = some column ∧ values[i]? = some value ∧
          (c.behind (change.assignments.take i)).columnAndValue a =
            (.ok (column, value), c.behind (change.assignments.take (i + 1))) ∧
          Context.Extends (c.behind (change.assignments.take i))
            (c.behind (change.assignments.take (i + 1)))) := by
  intro change
  refine ⟨nodup_columns_assignAll kind source calls, columns_assignAll kind source calls,
    fun a ha => last_assignAll kind source calls ha, ?_⟩
  rintro hkind hcalls c after sql h
  have hassigned : change.assignments ≠ [] :=
    assignments_assignAll_ne_nil kind source calls hcalls
  have hchange : change.kind = .insert := (kind_assignAll calls _).trans hkind
  obtain ⟨table, htarget, hvalues, hsql, hafter⟩ := Context.render_insert hchange hassigned h
  refine ⟨table, _, _, htarget, hsql, by simp, c.length_values _, hafter, fun i a ha => ?_⟩
  -- The value in a place is written behind the assignments in front of it.
  obtain ⟨value, hvalue, hpair⟩ := c.columnAndValue_behind_take _ hvalues ha
  refine ⟨_, value, by rw [List.getElem?_map, ha]; rfl, hvalue, hpair, ?_⟩
  rw [c.behind_take_succ _ ha]
  exact (Context.Call.columnAndValue _ a).extends

/-- Three assignments, of which two are to one column. -/
def Change.repeatedName : List Assignment :=
  [⟨⟨"Name", none⟩, .string "a"⟩, ⟨⟨"Age", none⟩, .numeric (.int 1)⟩,
    ⟨⟨"Name", none⟩, .string "b"⟩]

/-- A context in which one parameter is bound. -/
def Context.boundOnce : Context := ((Context.start .sqlServer .standard .bound).value (.text "x")).2

/-- The name keeps its place and has its last value. With one parameter bound before, the new ones
are numbered from there on. -/
theorem Change.assignments_ordered_repeatedName :
    Context.boundOnce.render ((ofSource .insert (.ofTable "Users")).assignAll repeatedName) =
      (.ok "INSERT INTO [Users] ([Name], [Age]) VALUES (@p1, @p2)",
        Context.boundOnce.behind
          ((ofSource .insert (.ofTable "Users")).assignAll repeatedName).assignments) ∧
    (((ofSource .insert (.ofTable "Users")).assignAll repeatedName).assignments.map
      (·.columnName)).Nodup := by
  obtain ⟨hnodup, -, -, hinsert⟩ := assignments_ordered .insert (.ofTable "Users") repeatedName
  have hrender :
      Context.boundOnce.render ((ofSource .insert (.ofTable "Users")).assignAll repeatedName) =
        (.ok "INSERT INTO [Users] ([Name], [Age]) VALUES (@p1, @p2)", (Context.boundOnce.render
          ((ofSource .insert (.ofTable "Users")).assignAll repeatedName)).2) := by rfl
  obtain ⟨table, columns, values, -, -, -, -, hafter, -⟩ :=
    hinsert rfl (List.cons_ne_nil _ _) _ _ _ hrender
  exact ⟨hrender.trans (by rw [← hafter]), hnodup⟩

end DialectSql
