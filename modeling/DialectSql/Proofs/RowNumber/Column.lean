import Mathlib.Data.List.Nodup
import DialectSql.Proofs.Outline
import DialectSql.Proofs.Word

/-!
# Columns of derived tables

Where rows are numbered, a derived table has a column more than those it selects, and a star further
out passes the column on. Which columns of row numbers a star can meet is read from the outline of
a text: those that a query names by a word, and those of all the derived tables in its FROM, also of
a query that selects no star itself.

A reader goes through a query from left to right and knows at each place which clause it is in.

## Main definitions

* `Place` — where in a query a reader stands
* `Part.namedIn` — the columns that a query names by a word
* `Part.derivedIn` — the derived tables in the FROM of a query
* `Part.exposedIn` — the columns of row numbers of a query and of the derived tables in its FROM
* `Part.Fresh` — queries whose own column is none of those in their FROM
* `Part.Unjoined` — queries with one derived table at most in each FROM on the way to their columns

## Main results

* `Part.exposedIn_eq` — the columns of a query are its own and those of its derived tables
* `Part.Fresh.nodup_iff` — the columns of a query are different if no two derived tables of its FROM
  share one
* `Part.Unjoined.nodup` — without joins of derived tables all columns are different
-/

namespace DialectSql

/-- What a reader of columns makes of a piece. -/
inductive Leaf
  /-- A keyword, a number or a name of the language itself. -/
  | word (text : String)
  /-- An identifier of the statement, or a constant. -/
  | other

/-- What a reader of columns makes of a piece: the words of a text, and something for what stands
between quotes. -/
def Piece.leaves : Piece → List Leaf
  | text t => (Text.words t).map .word
  | opening | closing => []
  | quoted _ | bare _ | value _ => [.other]

/-- Where in a query a reader stands. -/
inductive Place
  /-- In front of a query, or of a join between parentheses. -/
  | start
  /-- Behind the SELECT. -/
  | head
  /-- In front of the name of a projected column. -/
  | naming
  /-- Behind the FROM or a JOIN. -/
  | source
  /-- Behind the ON of a join. -/
  | condition
  /-- Behind the sources. -/
  | rest

namespace Place

/-- The words that end the sources of a query. -/
def closingWords : List String :=
  ["WHERE", "GROUP", "HAVING", "ORDER", "UNION", "INTERSECT", "EXCEPT", "MINUS"]

/-- The words that begin another member of a join. -/
def joinWords : List String := ["INNER", "LEFT", "RIGHT"]

/-- The place behind a word. -/
def behindWord : Place → String → Place
  | start, w => if w = "SELECT" then head else source
  | head, w => if w = "FROM" then source else if w = "AS" ∨ w = "ROWNUM" then naming else head
  | naming, _ => head
  | source, w =>
    if w = "ON" then condition else if closingWords.contains w then rest else source
  | condition, w =>
    if joinWords.contains w then source else if closingWords.contains w then rest else condition
  | rest, _ => rest

/-- The place behind a part. -/
def behind : Place → Part Leaf → Place
  | p, .leaf (.word w) => p.behindWord w
  | start, _ => source
  | naming, _ => head
  | p, _ => p

/-- The place behind some parts. -/
def after (p : Place) (parts : List (Part Leaf)) : Place := parts.foldl behind p

/-- Whether the FROM is reached. -/
def isTail : Place → Bool
  | start | head | naming => false
  | source | condition | rest => true

/-- Whether a derived table can stand at a place. -/
def isFrom : Place → Bool
  | start | source => true
  | head | naming | condition | rest => false

@[simp] theorem after_append (p : Place) (ps qs : List (Part Leaf)) :
    p.after (ps ++ qs) = (p.after ps).after qs := List.foldl_append

/-- Behind the FROM a reader stays behind it. -/
theorem isTail_behind {p : Place} (h : p.isTail = true) (part : Part Leaf) :
    (p.behind part).isTail = true := by
  have hword : ∀ w, (p.behindWord w).isTail = true := by
    intro w
    cases p with
    | start | head | naming => cases h
    | rest => rfl
    | source | condition =>
      simp only [behindWord]
      split
      · rfl
      · split <;> rfl
  -- Only words move a reader.
  cases p with
  | start | head | naming => cases h
  | rest | source | condition =>
    rcases part with (w | _) | _
    · exact hword w
    · rfl
    · rfl

theorem isTail_after {p : Place} (h : p.isTail = true) (parts : List (Part Leaf)) :
    (p.after parts).isTail = true := by
  induction parts generalizing p with
  | nil => exact h
  | cons part parts ih => exact ih (isTail_behind h part)

@[simp] theorem rest_behind (part : Part Leaf) : rest.behind part = rest := by
  rcases part with (_ | _) | _ <;> rfl

/-- Nothing is read behind the sources. -/
@[simp] theorem rest_after (parts : List (Part Leaf)) : rest.after parts = rest := by
  induction parts with
  | nil => rfl
  | cons part parts ih =>
    rw [after, List.foldl_cons, rest_behind]
    exact ih

end Place

namespace Part

/-- The column that a part names. -/
def named : Place → Part Leaf → List String
  | .naming, .leaf (.word w) => [w]
  | _, _ => []

/-- The columns that a query names by a word. -/
def namedIn : Place → List (Part Leaf) → List String
  | _, [] => []
  | p, part :: parts => part.named p ++ namedIn (p.behind part) parts

/-- The derived table that a part is: parentheses in a FROM, with a query or a join between them. -/
def derived : Place → Part Leaf → List (List (Part Leaf))
  | .start, .parens inner | .source, .parens inner => [inner]
  | _, _ => []

/-- The derived tables in the FROM of a query. -/
def derivedIn : Place → List (Part Leaf) → List (List (Part Leaf))
  | _, [] => []
  | p, part :: parts => part.derived p ++ derivedIn (p.behind part) parts

mutual

/-- The columns of row numbers of a part: those of a derived table, or the one that it names. -/
def exposed : Place → Part Leaf → List String
  | .start, .parens inner | .source, .parens inner => exposedIn .start inner
  | p, part => part.named p

/-- The columns of row numbers of a query: those that it names itself, and those of each derived
table in its FROM. The latter are passed on whether or not the projection of the query is a star, so
that a star on the query meets these columns at most. -/
def exposedIn : Place → List (Part Leaf) → List String
  | _, [] => []
  | p, part :: parts => part.exposed p ++ exposedIn (p.behind part) parts

end

/-- The columns of row numbers in the FROM of a query. -/
def fromIn (p : Place) (parts : List (Part Leaf)) : List String :=
  (derivedIn p parts).flatMap (exposedIn .start)

/-! ### Sequences -/

variable {group : List (Part Leaf)}

theorem namedIn_append (p : Place) (ps qs : List (Part Leaf)) :
    namedIn p (ps ++ qs) = namedIn p ps ++ namedIn (p.after ps) qs := by
  induction ps generalizing p with
  | nil => rfl
  | cons part ps ih =>
    rw [List.cons_append, namedIn, namedIn, ih, List.append_assoc]
    rfl

theorem derivedIn_append (p : Place) (ps qs : List (Part Leaf)) :
    derivedIn p (ps ++ qs) = derivedIn p ps ++ derivedIn (p.after ps) qs := by
  induction ps generalizing p with
  | nil => rfl
  | cons part ps ih =>
    rw [List.cons_append, derivedIn, derivedIn, ih, List.append_assoc]
    rfl

theorem fromIn_append (p : Place) (ps qs : List (Part Leaf)) :
    fromIn p (ps ++ qs) = fromIn p ps ++ fromIn (p.after ps) qs := by
  rw [fromIn, derivedIn_append, List.flatMap_append, fromIn, fromIn]

/-- Behind the FROM nothing is named. -/
theorem namedIn_of_isTail {p : Place} (h : p.isTail = true) (parts : List (Part Leaf)) :
    namedIn p parts = [] := by
  induction parts generalizing p with
  | nil => rfl
  | cons part parts ih =>
    rw [namedIn, ih (Place.isTail_behind h part), List.append_nil]
    cases p <;> first | rfl | cases h

/-- Only a FROM has derived tables. -/
theorem derived_of_isFrom {p : Place} (h : p.isFrom = false) (part : Part Leaf) :
    part.derived p = [] := by
  cases p <;> first | rfl | cases h

/-- Only parentheses are derived tables. -/
theorem derivedIn_map_leaf (p : Place) (leaves : List Leaf) :
    derivedIn p (leaves.map .leaf) = [] := by
  induction leaves generalizing p with
  | nil => rfl
  | cons l leaves ih =>
    rw [List.map_cons, derivedIn, ih, List.append_nil]
    cases p <;> rfl

theorem fromIn_map_leaf (p : Place) (leaves : List Leaf) : fromIn p (leaves.map .leaf) = [] := by
  rw [fromIn, derivedIn_map_leaf]
  rfl

/-- Behind the sources there are no derived tables of the FROM. -/
@[simp] theorem derivedIn_rest (parts : List (Part Leaf)) : derivedIn .rest parts = [] := by
  induction parts with
  | nil => rfl
  | cons part parts ih => rw [derivedIn, derived_of_isFrom rfl, Place.rest_behind, ih]; rfl

/-! ### Columns -/

/-- The columns of a part are its own and those of the derived table that it is. -/
theorem exposed_eq (p : Place) (part : Part Leaf) :
    part.exposed p = part.named p ++ (part.derived p).flatMap (exposedIn .start) := by
  cases p <;> rcases part with _ | _ <;> simp [exposed, named, derived]

/-- The columns of a query are its own and those of its derived tables. -/
theorem exposedIn_eq (p : Place) (parts : List (Part Leaf)) :
    exposedIn p parts = namedIn p parts ++ fromIn p parts := by
  induction parts generalizing p with
  | nil => rfl
  | cons part parts ih =>
    -- The columns that are named stand in front of all derived tables.
    have hlater : part.derived p = [] ∨ namedIn (p.behind part) parts = [] := by
      cases p with
      | source => exact .inr (namedIn_of_isTail (Place.isTail_behind rfl part) parts)
      | start =>
        cases part with
        | leaf l => exact .inl rfl
        | parens inner => exact .inr (namedIn_of_isTail rfl parts)
      | head | naming | condition | rest => exact .inl (derived_of_isFrom rfl part)
    rw [exposedIn, namedIn, fromIn, derivedIn, exposed_eq, ih, fromIn, List.flatMap_append]
    rcases hlater with hnone | hnone <;> simp [hnone]

/-! ### Different columns -/

/-- A query names at most one column of row numbers, and none of those in its FROM. -/
structure Fresh (group : List (Part Leaf)) : Prop where
  length_le : (namedIn .start group).length ≤ 1
  notMem : ∀ c ∈ namedIn .start group, c ∉ fromIn .start group

namespace Fresh

/-- A query that names no column. -/
theorem of_named_nil (h : namedIn .start group = []) : Fresh group := by
  constructor <;> simp [h]

/-- The columns of a query are different exactly if those in its FROM are. -/
theorem nodup_iff_from (h : Fresh group) :
    (exposedIn .start group).Nodup ↔ (fromIn .start group).Nodup := by
  rw [exposedIn_eq, List.nodup_append]
  constructor
  · intro hall
    exact hall.2.1
  · intro hfrom
    have hown : (namedIn .start group).Nodup := by
      have hlength := h.length_le
      match hnamed : namedIn .start group with
      | [] => exact List.nodup_nil
      | [c] => exact List.nodup_singleton c
      | _ :: _ :: _ => simp [hnamed] at hlength
    refine ⟨hown, hfrom, fun c hc c' hc' heq => h.notMem c hc ?_⟩
    rwa [heq]

/-- The columns of a query are different exactly if those of each derived table in its FROM are, and
no two of them share a column. -/
theorem nodup_iff (h : Fresh group) : (exposedIn .start group).Nodup ↔
    (∀ inner ∈ derivedIn .start group, (exposedIn .start inner).Nodup) ∧
      (derivedIn .start group).Pairwise fun inner inner' =>
        (exposedIn .start inner).Disjoint (exposedIn .start inner') := by
  rw [h.nodup_iff_from, fromIn, List.nodup_flatMap]

end Fresh

mutual

/-- The derived tables that a part has in a FROM, at the end of a way through one FROM after
another. -/
def reached : Place → Part Leaf → List (List (Part Leaf))
  | .start, .parens inner | .source, .parens inner => inner :: reachedIn .start inner
  | _, _ => []

/-- The derived tables in the FROM of a query, in the FROM of each of them, and so on. -/
def reachedIn : Place → List (Part Leaf) → List (List (Part Leaf))
  | _, [] => []
  | p, part :: parts => part.reached p ++ reachedIn (p.behind part) parts

end

/-- Queries that are read without joins of derived tables: on the way through one FROM after another
there is one derived table at most in each. -/
def Unjoined (group : List (Part Leaf)) : Prop :=
  ∀ g ∈ group :: reachedIn .start group, (derivedIn .start g).length ≤ 1

instance : Decidable (Unjoined group) :=
  inferInstanceAs (Decidable (∀ g ∈ group :: reachedIn .start group, _))

/-- The columns of a query with one derived table at most are different if those of that are. -/
theorem Fresh.nodup_of_single (h : Fresh group) (hsingle : (derivedIn .start group).length ≤ 1)
    (hinner : ∀ inner ∈ derivedIn .start group, (exposedIn .start inner).Nodup) :
    (exposedIn .start group).Nodup := by
  refine h.nodup_iff.mpr ⟨hinner, ?_⟩
  match hderived : derivedIn .start group with
  | [] => exact .nil
  | [inner] => exact List.pairwise_singleton _ _
  | _ :: _ :: _ => simp [hderived] at hsingle

mutual

/-- The columns of a derived table are different if there are no joins on the way to its columns. -/
theorem nodup_derived : ∀ (p : Place) (part : Part Leaf), (∀ g ∈ part.groups, Fresh g) →
    (∀ g ∈ part.reached p, (derivedIn .start g).length ≤ 1) →
      ∀ inner ∈ part.derived p, (exposedIn .start inner).Nodup
  | p, .leaf l, _, _ => by cases p <;> simp [derived]
  | p, .parens inner, hfresh, hsingle => by
    rw [groups, List.forall_mem_cons] at hfresh
    cases p with
    | start | source =>
      rw [reached, List.forall_mem_cons] at hsingle
      rw [derived, List.forall_mem_singleton]
      exact hfresh.1.nodup_of_single hsingle.1
        (nodup_derivedIn .start inner hfresh.2 hsingle.2)
    | head | naming | condition | rest => simp [derived]

/-- The columns of the derived tables of a FROM are different if there are no joins on the way to
them. -/
theorem nodup_derivedIn : ∀ (p : Place) (parts : List (Part Leaf)),
    (∀ g ∈ groupsIn parts, Fresh g) →
    (∀ g ∈ reachedIn p parts, (derivedIn .start g).length ≤ 1) →
      ∀ inner ∈ derivedIn p parts, (exposedIn .start inner).Nodup
  | _, [], _, _ => by simp [derivedIn]
  | p, part :: parts, hfresh, hsingle => by
    rw [groupsIn, List.forall_mem_append] at hfresh
    rw [reachedIn, List.forall_mem_append] at hsingle
    rw [derivedIn, List.forall_mem_append]
    exact ⟨nodup_derived p part hfresh.1 hsingle.1,
      nodup_derivedIn (p.behind part) parts hfresh.2 hsingle.2⟩

end

/-- Without joins of derived tables all columns of a query are different. -/
theorem Unjoined.nodup (h : Unjoined group) (hfresh : ∀ g ∈ group :: groupsIn group, Fresh g) :
    (exposedIn .start group).Nodup := by
  rw [Unjoined, List.forall_mem_cons] at h
  rw [List.forall_mem_cons] at hfresh
  exact hfresh.1.nodup_of_single h.1 (nodup_derivedIn .start group hfresh.2 h.2)

end Part

end DialectSql
