import DialectSql.Document.Json

/-!
# Depth of documents

Arrays and objects stand inside each other. A reader that allows for a number of levels makes
nothing of what stands deeper: it sees a document that is cut there.

## Main definitions

* `Json.depth` — how many arrays and objects stand inside each other
* `Json.cut` — a document of which only some levels can be used

## Main results

* `Json.cut_eq_self_iff` — nothing is cut off exactly if there are no more levels than that
-/

namespace DialectSql.Json

/-! ## Levels -/

mutual

/-- How many arrays and objects stand inside each other. -/
def depth : Json → Nat
  | array items => depthItems items + 1
  | object members => depthMembers members + 1
  | _ => 0

/-- The greatest depth of an element. -/
def depthItems : List Json → Nat
  | [] => 0
  | item :: items => max item.depth (depthItems items)

/-- The greatest depth of a member. -/
def depthMembers : List (String × Json) → Nat
  | [] => 0
  | (_, value) :: members => max value.depth (depthMembers members)

end

mutual

/-- A document of which `n` levels can be used. -/
def cut : Json → Nat → Json
  | array _, 0 | object _, 0 => unusable
  | array items, n + 1 => array (cutItems items n)
  | object members, n + 1 => object (cutMembers members n)
  | j, _ => j

/-- The elements of an array, each of them cut. -/
def cutItems : List Json → Nat → List Json
  | [], _ => []
  | item :: items, n => item.cut n :: cutItems items n

/-- The members of an object, each of them cut. -/
def cutMembers : List (String × Json) → Nat → List (String × Json)
  | [], _ => []
  | (key, value) :: members, n => (key, value.cut n) :: cutMembers members n

end

theorem depthItems_le {n : Nat} : ∀ {items : List Json},
    depthItems items ≤ n ↔ ∀ item ∈ items, item.depth ≤ n
  | [] => by simp [depthItems]
  | item :: items => by
    rw [depthItems, Nat.max_le, depthItems_le, List.forall_mem_cons]

theorem depthMembers_le {n : Nat} : ∀ {members : List (String × Json)},
    depthMembers members ≤ n ↔ ∀ m ∈ members, m.2.depth ≤ n
  | [] => by simp [depthMembers]
  | (_, value) :: members => by
    rw [depthMembers, Nat.max_le, depthMembers_le, List.forall_mem_cons]

theorem cutItems_eq_map (n : Nat) (items : List Json) : cutItems items n = items.map (cut · n) := by
  induction items with
  | nil => rfl
  | cons item items ih => exact congrArg (item.cut n :: ·) ih

theorem cutMembers_eq_map (n : Nat) (members : List (String × Json)) :
    cutMembers members n = members.map fun (key, value) => (key, value.cut n) := by
  induction members with
  | nil => rfl
  | cons m members ih => exact congrArg ((m.1, m.2.cut n) :: ·) ih

theorem cut_array (items : List Json) (n : Nat) :
    (array items).cut (n + 1) = array (items.map (cut · n)) := by
  rw [cut, cutItems_eq_map]

theorem cut_object (members : List (String × Json)) (n : Nat) :
    (object members).cut (n + 1) =
      object (members.map fun (key, value) => (key, value.cut n)) := by
  rw [cut, cutMembers_eq_map]

theorem cut_eq_null_iff {j : Json} {n : Nat} : j.cut n = null ↔ j = null := by
  cases j <;> cases n <;> simp [cut]

/-! ### Scalars -/

@[simp] theorem depth_null : null.depth = 0 := by rfl

@[simp] theorem depth_bool (b : Bool) : (bool b).depth = 0 := by rfl

@[simp] theorem depth_int (n : Int) : (int n).depth = 0 := by rfl

@[simp] theorem depth_float (x : Float) : (float x).depth = 0 := by rfl

@[simp] theorem depth_string (s : String) : (string s).depth = 0 := by rfl

/-! ### Arrays and objects -/

@[simp] theorem depth_array_le {items : List Json} {n : Nat} :
    (array items).depth ≤ n + 1 ↔ ∀ item ∈ items, item.depth ≤ n := by
  rw [depth, Nat.add_le_add_iff_right, depthItems_le]

@[simp] theorem depth_object_le {members : List (String × Json)} {n : Nat} :
    (object members).depth ≤ n + 1 ↔ ∀ m ∈ members, m.2.depth ≤ n := by
  rw [depth, Nat.add_le_add_iff_right, depthMembers_le]

mutual

theorem cut_eq_self_iff : ∀ {j : Json} {n : Nat}, j.cut n = j ↔ j.depth ≤ n
  | array items, 0 => by simp [cut, depth]
  | object members, 0 => by simp [cut, depth]
  | array items, n + 1 => by
    rw [cut, array.injEq, cutItems_eq_self_iff, depth, Nat.add_le_add_iff_right]
  | object members, n + 1 => by
    rw [cut, object.injEq, cutMembers_eq_self_iff, depth, Nat.add_le_add_iff_right]
  | null, _ | bool _, _ | int _, _ | float _, _ | string _, _ | unusable, _ => by simp [cut, depth]

theorem cutItems_eq_self_iff : ∀ {items : List Json} {n : Nat},
    cutItems items n = items ↔ depthItems items ≤ n
  | [], _ => by simp [cutItems, depthItems]
  | item :: items, n => by
    rw [cutItems, List.cons.injEq, cut_eq_self_iff, cutItems_eq_self_iff, depthItems, Nat.max_le]

theorem cutMembers_eq_self_iff : ∀ {members : List (String × Json)} {n : Nat},
    cutMembers members n = members ↔ depthMembers members ≤ n
  | [], _ => by simp [cutMembers, depthMembers]
  | (key, value) :: members, n => by
    rw [cutMembers, List.cons.injEq, Prod.mk.injEq, eq_self_iff_true, true_and, cut_eq_self_iff,
      cutMembers_eq_self_iff, depthMembers, Nat.max_le]

end

/-- Nothing can be cut off a scalar. -/
@[simp] theorem cut_of_depth_eq_zero {j : Json} (h : j.depth = 0) (n : Nat) : j.cut n = j :=
  cut_eq_self_iff.mpr (h ▸ n.zero_le)

end DialectSql.Json
