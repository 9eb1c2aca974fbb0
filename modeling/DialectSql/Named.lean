/-!
# Named alternatives

Operators, directions, kinds of statement and the like are finite families, and each member is known
to documents and messages by one fixed name. `Named` ties a family to its names, so that writing and
reading a member are defined once for all families.

## Main definitions

* `Named` — a family with the list of its members and a different name for each
* `Named.ofName?` — the member of a given name

## Main results

* `Named.ofName?_eq_some_iff` — a member is found by its own name and by no other text
-/

namespace DialectSql

/-- A finite family whose members are each known by one name. -/
class Named (α : Type) where
  /-- Every member, in the order in which tables list them. -/
  all : List α
  /-- The name of a member. -/
  name : α → String
  /-- The list leaves no member out. -/
  mem_all : ∀ a : α, a ∈ all := by intro a; cases a <;> simp
  /-- No two members share a name. -/
  nodup_names : (all.map name).Nodup := by decide

namespace Named

variable {α : Type} [Named α]

/-- The member called `text`, if there is one; case matters. -/
def ofName? (text : String) : Option α :=
  (all : List α).find? fun member => name member == text

/-- In a list of members with different names, a member is the first one that has its name. -/
theorem find?_name_eq {a : α} :
    ∀ {members : List α}, (members.map name).Nodup → a ∈ members →
      members.find? (fun member => name member == name a) = some a
  | b :: members, distinct, mem => by
    rw [List.map_cons, List.nodup_cons] at distinct
    rcases List.mem_cons.1 mem with rfl | mem
    · simp
    · have hne : name b ≠ name a := fun h => distinct.1 (h ▸ List.mem_map_of_mem mem)
      simp [hne, find?_name_eq distinct.2 mem]

/-- A member is found by its name. -/
@[simp] theorem ofName?_name (a : α) : ofName? (name a) = some a :=
  find?_name_eq nodup_names (mem_all a)

/-- A member is found by its name and by no other text. -/
theorem ofName?_eq_some_iff {text : String} {a : α} : ofName? text = some a ↔ name a = text := by
  constructor
  · intro h
    simpa using List.find?_some h
  · rintro rfl
    exact ofName?_name a

end Named

end DialectSql
