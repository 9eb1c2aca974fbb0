import DialectSql.Decimal.Rounding
import DialectSql.Document.Json
import DialectSql.Error
import DialectSql.Named

/-!
# Documents of data

How data are laid out in documents. A record is an object with one member per field; members that
nobody knows are ignored. An alternative is an object whose only member has the name of the
alternative as its key, or that name alone if the alternative carries nothing.

## Main definitions

* `DocumentError`, `Reading` — why a document holds no such data, and the outcome of reading
* `Json.record`, `Json.tagged` — the layout of records and of alternatives
* `Json.require`, `Json.optional?`, `Json.present?` — the members of a record
* `Json.variant` — the alternative of a document
-/

namespace DialectSql

/-- Why a document does not hold the data that it should. -/
inductive DocumentError
  /-- It is laid out differently. -/
  | unreadable
  /-- The data in it are against a rule of statements. -/
  | rejected (cause : Error)

/-- The outcome of reading data from a document. -/
abbrev Reading (α : Type) : Type := Except DocumentError α

/-- Data that are checked while they are read. -/
def Reading.checked {α : Type} (r : Except Error α) : Reading α :=
  match r with
  | .ok a => .ok a
  | .error e => .error (.rejected e)

/-- Data that may be missing from what was read. -/
def Reading.ofOption {α : Type} (o : Option α) : Reading α :=
  match o with
  | some a => .ok a
  | none => .error .unreadable

namespace Json

/-! ## Writing -/

/-- A member of a record, unless it is left out. -/
abbrev Member : Type := Option (String × Json)

namespace Member

/-- A member that is always written. -/
def of (key : String) (value : Json) : Member := some (key, value)

/-- A member that is written if there is a value. -/
def ifSome {α : Type} (key : String) (encode : α → Json) (value : Option α) : Member :=
  value.map fun a => (key, encode a)

/-- A member that is written if there are elements. -/
def unlessEmpty (key : String) (items : List Json) : Member :=
  if items.isEmpty then none else some (key, array items)

end Member

/-- A record from its members. -/
def record (members : List Member) : Json :=
  object (members.filterMap id)

/-- An alternative that carries `body`. -/
def tagged (tag : String) (body : Json) : Json := object [(tag, body)]

/-- A member of a finite family. -/
def named {α : Type} [Named α] (a : α) : Json := string (Named.name a)

/-! ## Reading records -/

/-- The member of a record under a key. -/
def require (j : Json) (key : String) : Reading j.Part :=
  .ofOption (j.member? key)

/-- The member of a record under a key; null counts as missing. -/
def optional? (j : Json) (key : String) : Reading (Option j.Part) :=
  if j.isObject then
    match j.member? key with
    | some ⟨null, _⟩ => .ok none
    | found => .ok found
  else .error .unreadable

/-- The member of a record under a key; null counts as a value. -/
def present? (j : Json) (key : String) : Reading (Option j.Part) :=
  if j.isObject then .ok (j.member? key) else .error .unreadable

/-- A part of a part as a part of the whole. -/
def Part.deeper {j : Json} (p : j.Part) (q : p.val.Part) : j.Part :=
  ⟨q.val, Nat.lt_trans q.property p.property⟩

/-- The elements of an array under a key. -/
def requireList (j : Json) (key : String) : Reading (List j.Part) := do
  let p ← j.require key
  let items ← Reading.ofOption p.val.items?
  return items.map p.deeper

/-- The elements of an array under a key, none if the key is missing. -/
def presentList (j : Json) (key : String) : Reading (List j.Part) := do
  match ← j.present? key with
  | none => return []
  | some p =>
    let items ← Reading.ofOption p.val.items?
    return items.map p.deeper

/-! ## Reading alternatives -/

/-- The alternative of a document: its name, and what it carries. -/
structure Variant (j : Json) where
  /-- The name. -/
  tag : String
  /-- What the alternative carries, unless it is a name alone. -/
  body : Option j.Part

/-- The alternative of a document. -/
def variant : (j : Json) → Reading j.Variant
  | string tag => .ok ⟨tag, none⟩
  | object [(tag, body)] =>
    .ok ⟨tag, some ⟨body, by
      simp only [object.sizeOf_spec, List.cons.sizeOf_spec, Prod.mk.sizeOf_spec]; omega⟩⟩
  | _ => .error .unreadable

/-- What an alternative carries. -/
def Variant.content {j : Json} (v : j.Variant) : Reading j.Part :=
  .ofOption v.body

/-- An alternative that carries nothing. -/
def Variant.nothing {j : Json} (v : j.Variant) : Reading Unit :=
  match v.body with
  | none => .ok ()
  | some ⟨null, _⟩ => .ok ()
  | some _ => .error .unreadable

/-! ## Reading scalars -/

/-- A truth value. -/
def toBool : Json → Reading Bool
  | bool b => .ok b
  | _ => .error .unreadable

/-- A text. -/
def toText : Json → Reading String
  | string s => .ok s
  | _ => .error .unreadable

/-- A truth value under a key, false if the key is missing. -/
def flag (j : Json) (key : String) : Reading Bool := do
  match ← j.present? key with
  | some p => p.val.toBool
  | none => return false

/-- A signed integer of 64 bits. -/
def toInt64 : Json → Reading Int64
  | int n =>
    if Int64.minValue.toInt ≤ n ∧ n ≤ Int64.maxValue.toInt then .ok (Int64.ofInt n)
    else .error .unreadable
  | _ => .error .unreadable

/-- An unsigned integer of 64 bits. -/
def toUInt64 : Json → Reading UInt64
  | int n => if 0 ≤ n ∧ n < UInt64.size then .ok (UInt64.ofNat n.toNat) else .error .unreadable
  | _ => .error .unreadable

/-- An unsigned integer of 8 bits. -/
def toUInt8 : Json → Reading UInt8
  | int n => if 0 ≤ n ∧ n < UInt8.size then .ok (UInt8.ofNat n.toNat) else .error .unreadable
  | _ => .error .unreadable

/-- A float that is finite. -/
def finite (x : Float) : Reading Float :=
  if x.isFinite then .ok x else .error .unreadable

/-- A finite float; an integer is rounded to the nearest one. -/
def toFloat : Json → Reading Float
  | float x => finite x
  | int n => finite (Decimal.toFloat (n < 0) n.natAbs 0)
  | _ => .error .unreadable

/-- A member of a finite family. -/
def toNamed {α : Type} [Named α] (j : Json) : Reading α := do
  let v ← j.variant
  v.nothing
  Reading.ofOption (Named.ofName? v.tag)

/-- A float as a number; a float that is not finite has none. -/
def ofFloat (x : Float) : Json := if x.isFinite then float x else null

end Json

end DialectSql
