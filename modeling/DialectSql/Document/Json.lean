/-!
# JSON values

Documents as values. The members of an object keep their order, and an integer is kept apart from a
number with a fraction or an exponent. A document may hold, where nobody looks, what is written by
the rules of the grammar and still has no meaning.

## Main definitions

* `Json` — a document
* `Json.Part` — a document inside another one
* `Json.member?`, `Json.items?` — what stands directly inside a document
-/

namespace DialectSql

/-- A document. -/
inductive Json
  | null
  | bool (b : Bool)
  /-- A number without fraction and exponent. -/
  | int (n : Int)
  /-- Any other number. -/
  | float (x : Float)
  | string (s : String)
  | array (items : List Json)
  | object (members : List (String × Json))
  /-- A value without a meaning: a number beyond all floats, a text with half of a character in it,
  or an array or object too deep inside others. -/
  | unusable

namespace Json

instance : Inhabited Json := ⟨null⟩

/-- A document inside the document `j`. -/
abbrev Part (j : Json) : Type := { part : Json // sizeOf part < sizeOf j }

/-- The first member of a list under a key. -/
def lookup? (key : String) : (members : List (String × Json)) →
    Option { value : Json // sizeOf value < sizeOf members }
  | [] => none
  | (k, value) :: members =>
    if k = key then
      some ⟨value, by simp only [List.cons.sizeOf_spec, Prod.mk.sizeOf_spec]; omega⟩
    else
      match lookup? key members with
      | some ⟨found, h⟩ => some ⟨found, by simp only [List.cons.sizeOf_spec]; omega⟩
      | none => none

/-- The member of an object under a key. -/
def member? (key : String) : (j : Json) → Option j.Part
  | object members =>
    match lookup? key members with
    | some ⟨found, h⟩ => some ⟨found, by simp only [object.sizeOf_spec]; omega⟩
    | none => none
  | _ => none

/-- The elements of a list, each with the bound on its size. -/
def sized : (items : List Json) → List { item : Json // sizeOf item < sizeOf items }
  | [] => []
  | item :: items =>
    ⟨item, by simp only [List.cons.sizeOf_spec]; omega⟩ ::
      (sized items).map fun ⟨i, h⟩ => ⟨i, by simp only [List.cons.sizeOf_spec]; omega⟩

/-- The elements of an array. -/
def items? : (j : Json) → Option (List j.Part)
  | array items =>
    some ((sized items).map fun ⟨i, h⟩ => ⟨i, by simp only [array.sizeOf_spec]; omega⟩)
  | _ => none

/-- Whether a document is an object. -/
def isObject : Json → Bool
  | object _ => true
  | _ => false

end Json

end DialectSql
