import DialectSql.Document.Token

/-!
# Reading documents

A document from its tokens, by a machine that keeps the arrays and objects that are open. Values
that are nested too deep are unusable, so that a document cannot exhaust what looks at it.

## Main definitions

* `Json.Machine` — the open arrays and objects, and what may come next
* `Json.Machine.step` — the next token
* `Json.ofText?` — the document that a text consists of
-/

namespace DialectSql.Json

/-- An array or object that is open; what was read is kept last first. -/
inductive Frame
  | array (items : List Json)
  /-- The key is that of the member whose value comes next; there is none for a text with half of a
  character in it. -/
  | object (members : List (Option String × Json)) (key? : Option String)

/-- What may come next. -/
inductive Expected
  | value
  | itemOrClose
  | key
  | keyOrClose
  | colon
  | commaOrClose
  | nothing
  deriving DecidableEq

/-- The state of reading. -/
structure Machine where
  /-- The open arrays and objects, the innermost first. -/
  frames : List Frame
  /-- What may come next. -/
  expected : Expected
  /-- The document, once it is complete. -/
  result : Option Json

/-- The greatest number of usable arrays and objects inside each other. -/
def maxDepth : Nat := 127

/-- A complete array or object with `outer` around it, unless it is too deep. -/
def within (outer : List Frame) (j : Json) : Json :=
  if (outer.drop (maxDepth - 1)).isEmpty then j else unusable

/-- An object of members that are given last first, unless a key is missing. -/
def objectOf (members : List (Option String × Json)) : Json :=
  match members.mapM fun (key?, value) => key?.map (·, value) with
  | some members => object members.reverse
  | none => unusable

namespace Machine

/-- The state before the first token. -/
def start : Machine := ⟨[], .value, none⟩

/-- A complete value put where it belongs. -/
def supply (frames : List Frame) (j : Json) : Machine :=
  match frames with
  | [] => ⟨[], .nothing, some j⟩
  | .array items :: frames => ⟨.array (j :: items) :: frames, .commaOrClose, none⟩
  | .object members key? :: frames =>
    ⟨.object ((key?, j) :: members) key? :: frames, .commaOrClose, none⟩

/-- A token where a value may stand. -/
def valueToken (frames : List Frame) : Token → Option Machine
  | .scalar j => some (supply frames j)
  -- Half of a character makes a text unusable, but it does not end the reading.
  | .text s? => some (supply frames (s?.elim unusable string))
  | .openArray => some ⟨.array [] :: frames, .itemOrClose, none⟩
  | .openObject => some ⟨.object [] none :: frames, .keyOrClose, none⟩
  | _ => none

/-- A token where a key has to stand. -/
def keyToken (frames : List Frame) (token : Token) : Option Machine :=
  match frames, token with
  | .object members _ :: frames, .text key? => some ⟨.object members key? :: frames, .colon, none⟩
  | _, _ => none

/-- A token that closes the innermost array or object. -/
def closeToken (frames : List Frame) (token : Token) : Option Machine :=
  match frames, token with
  | .array items :: frames, .closeArray =>
    some (supply frames (within frames (array items.reverse)))
  | .object members _ :: frames, .closeObject =>
    some (supply frames (within frames (objectOf members)))
  | _, _ => none

/-- The next token. -/
def step (m : Machine) (token : Token) : Option Machine :=
  match m.expected, token with
  | .value, token => valueToken m.frames token
  | .itemOrClose, .closeArray => closeToken m.frames .closeArray
  | .itemOrClose, token => valueToken m.frames token
  | .key, token => keyToken m.frames token
  | .keyOrClose, .closeObject => closeToken m.frames .closeObject
  | .keyOrClose, token => keyToken m.frames token
  | .colon, .colon => some { m with expected := .value }
  | .colon, _ => none
  | .commaOrClose, .comma =>
    match m.frames with
    -- Nothing can be closed behind a comma.
    | .array _ :: _ => some { m with expected := .value }
    | .object _ _ :: _ => some { m with expected := .key }
    | [] => none
  | .commaOrClose, token => closeToken m.frames token
  | .nothing, _ => none

end Machine

/-- The document that a text consists of, with nothing but blanks around it. -/
def ofText? (text : String) : Option Json := do
  let tokens ← tokens? text.toList
  let m ← tokens.foldlM Machine.step Machine.start
  m.result

end DialectSql.Json
