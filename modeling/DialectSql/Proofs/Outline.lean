import DialectSql.Proofs.Written

/-!
# Outlines

The outline of a draft is what stands in it with its parentheses as a tree. Both texts of a draft
are written piece by piece from left to right, so that the parentheses of its pieces are those of
the texts, and a subquery is what stands between two of them.

## Main definitions

* `Part` — a leaf, or parentheses with what is between them
* `Part.leaves`, `Part.groupsIn` — what stands outside of all parentheses, and in which of them
* `Draft.outline` — the parts of a draft
* `Draft.Reads` — drafts that are read as some parts, whatever stands around them

## Main results

* `Draft.Reads.append`, `Draft.Reads.parens` — drafts are read part by part
* `Part.groupsIn_subset_of_mem` — what stands further in between parentheses is among the groups
-/

namespace DialectSql

/-! ## Parts -/

/-- What stands in a text: a leaf, or parentheses with what is between them. -/
inductive Part (α : Type)
  | leaf (a : α)
  | parens (inner : List (Part α))

namespace Part

variable {α : Type}

/-- The leaf that a part is. -/
def leaf? : Part α → Option α
  | leaf a => some a
  | parens _ => none

/-- What stands outside of parentheses. -/
def leaves (parts : List (Part α)) : List α := parts.filterMap leaf?

mutual

/-- What stands between the parentheses of a part, the outermost first. -/
def groups : Part α → List (List (Part α))
  | leaf _ => []
  | parens inner => inner :: groupsIn inner

/-- What stands between the parentheses of some parts. -/
def groupsIn : List (Part α) → List (List (Part α))
  | [] => []
  | p :: ps => p.groups ++ groupsIn ps

end

@[simp] theorem leaves_append (ps qs : List (Part α)) :
    leaves (ps ++ qs) = leaves ps ++ leaves qs := List.filterMap_append

@[simp] theorem leaves_map_leaf (as : List α) : leaves (as.map leaf) = as := by
  rw [leaves, List.filterMap_map]
  exact List.filterMap_some

@[simp] theorem groupsIn_append (ps qs : List (Part α)) :
    groupsIn (ps ++ qs) = groupsIn ps ++ groupsIn qs := by
  induction ps with
  | nil => rfl
  | cons p ps ih => rw [List.cons_append, groupsIn, ih, groupsIn, List.append_assoc]

@[simp] theorem groupsIn_map_leaf (as : List α) : groupsIn (as.map leaf) = [] := by
  induction as with
  | nil => rfl
  | cons a as ih => rw [List.map_cons, groupsIn, ih, groups, List.append_nil]

@[simp] theorem groupsIn_parens (inner : List (Part α)) :
    groupsIn [parens inner] = inner :: groupsIn inner := by
  rw [groupsIn, groups, groupsIn, List.append_nil]

mutual

/-- What stands further in between the parentheses of a part stands between its parentheses. -/
theorem groups_subset {inner : List (Part α)} :
    ∀ p : Part α, inner ∈ p.groups → groupsIn inner ⊆ p.groups
  | leaf _, h => by cases h
  | parens group, h => by
    rcases List.mem_cons.mp h with rfl | h
    · exact List.subset_cons_self _ _
    · exact List.Subset.trans (groupsIn_subset group h) (List.subset_cons_self _ _)

/-- What stands further in between parentheses stands between parentheses. -/
theorem groupsIn_subset {inner : List (Part α)} :
    ∀ ps : List (Part α), inner ∈ groupsIn ps → groupsIn inner ⊆ groupsIn ps
  | [], h => by cases h
  | p :: ps, h => by
    rcases List.mem_append.mp h with h | h
    · exact List.Subset.trans (groups_subset p h) (List.subset_append_left _ _)
    · exact List.Subset.trans (groupsIn_subset ps h) (List.subset_append_right _ _)

end

/-- The same is true of all that stands in some parts, and of the parts themselves. -/
theorem groupsIn_subset_of_mem {ps inner : List (Part α)} (h : inner ∈ ps :: groupsIn ps) :
    inner :: groupsIn inner ⊆ ps :: groupsIn ps := by
  rcases List.mem_cons.mp h with rfl | hgroup
  · exact List.Subset.refl _
  · exact List.cons_subset.mpr
      ⟨h, List.Subset.trans (groupsIn_subset ps hgroup) (List.subset_cons_self _ _)⟩

end Part

/-! ## Pieces -/

section Reading

variable {α : Type} (read : Piece → List α)

/-- The parts of some pieces behind what was read `here`, inside of `outer` parentheses that are
still open, the innermost first. -/
def partsOf : (outer : List (List (Part α))) → (here : List (Part α)) → List Piece → List (Part α)
  | outer, here, [] => outer.foldl (fun inner front => front ++ [.parens inner]) here
  | outer, here, .opening :: pieces => partsOf (here :: outer) [] pieces
  | front :: outer, here, .closing :: pieces => partsOf outer (front ++ [.parens here]) pieces
  | [], here, .closing :: pieces => partsOf [] here pieces
  | outer, here, p :: pieces => partsOf outer (here ++ (read p).map .leaf) pieces

namespace Draft

/-- The parts of a draft. -/
def outline (a : Draft) : List (Part α) := partsOf read [] [] a.pieces

/-- Drafts that are read as some parts, whatever stands around them, unless they fail. -/
def Reads (a : Draft) (parts : List (Part α)) : Prop :=
  a.failure = none → ∀ outer here rest,
    partsOf read outer here (a.pieces ++ rest) = partsOf read outer (here ++ parts) rest

namespace Reads

variable {read} {a b : Draft} {ps qs : List (Part α)}

/-- What a draft is read as is its outline. -/
theorem outline_eq (h : Reads read a ps) (hfailure : a.failure = none) : a.outline read = ps := by
  have hwhole := h hfailure [] [] []
  rwa [List.append_nil, List.nil_append, partsOf, List.foldl_nil] at hwhole

theorem empty : Reads read .empty [] := fun _ outer here rest => by
  rw [List.append_nil]
  rfl

/-- A draft of a piece that is no parenthesis. -/
theorem piece {p : Piece} (hp : ∀ outer here rest, partsOf read outer here (p :: rest) =
    partsOf read outer (here ++ (read p).map .leaf) rest) :
    Reads read (.piece p) ((read p).map .leaf) := fun _ outer here rest => hp outer here rest

theorem text (t : String) : Reads read (.text t) ((read (.text t)).map .leaf) :=
  piece fun outer here rest => by rw [partsOf] <;> simp

theorem quoted (name : String) : Reads read (.quoted name) ((read (.quoted name)).map .leaf) :=
  piece fun outer here rest => by rw [partsOf] <;> simp

theorem bare (name : String) : Reads read (.piece (.bare name)) ((read (.bare name)).map .leaf) :=
  piece fun outer here rest => by rw [partsOf] <;> simp

theorem value (v : Value) : Reads read (.piece (.value v)) ((read (.value v)).map .leaf) :=
  piece fun outer here rest => by rw [partsOf] <;> simp

/-- What fails is not read. -/
theorem fail (e : Error) (ps : List (Part α)) : Reads read (.fail e) ps := fun h => by cases h

/-- One draft behind another. -/
theorem append (ha : Reads read a ps) (hb : Reads read b qs) : Reads read (a ++ b) (ps ++ qs) := by
  intro hfailure outer here rest
  obtain ⟨hfirst, hsecond⟩ := failure_append_eq_none hfailure
  rw [append_of_success hfirst, List.append_assoc, ha hfirst, hb hsecond, List.append_assoc]

/-- A draft between parentheses. -/
theorem parens (ha : Reads read a ps) : Reads read a.parens [.parens ps] := by
  intro hfailure outer here rest
  rw [failure_parens] at hfailure
  rw [pieces_parens hfailure]
  simp only [List.append_assoc, List.cons_append, List.nil_append]
  -- What is open around the parentheses waits until they are closed.
  rw [partsOf, ha hfailure, List.nil_append, partsOf]

end Reads

end Draft

end Reading

end DialectSql
