import DialectSql.Document.Number

/-!
# Tokens of documents

The words and marks of a JSON text, read character by character.

## Main definitions

* `Json.Token` — a mark, a text, or any other scalar
* `Json.characters?` — the characters of a text, some of which are given by number in two halves
* `Json.Scan`, `Json.Scan.step` — what the last characters are part of, and the next character
* `Json.Scan.advance` — the next character, with the tokens that were read
* `Json.tokens?` — the tokens of a text
-/

namespace DialectSql.Json

/-- A scalar that is not a text. -/
def word? (chars : List Char) : Option Json :=
  match String.ofList chars with
  | "null" => some null
  | "true" => some (bool true)
  | "false" => some (bool false)
  | _ => number? chars

/-! ## Tokens -/

/-- A token of a document. -/
inductive Token
  | openArray | closeArray | openObject | closeObject | comma | colon
  /-- A text, unless it holds half of a character. -/
  | text (s? : Option String)
  | scalar (j : Json)

/-- What the last characters are part of. Characters that were read are kept last first; inside a
text they are kept as numbers, each that of a character or of a half of one. -/
inductive Scan
  /-- Nothing. -/
  | between
  /-- A scalar that is not a text. -/
  | word (read : List Char)
  /-- A text. -/
  | text (read : List Nat)
  /-- A text, behind a backslash. -/
  | escape (read : List Nat)
  /-- A text, in the digits of a numbered character. -/
  | numbered (read : List Nat) (digits : List Char)

/-- The token of a mark. -/
def mark? : Char → Option Token
  | '[' => some .openArray
  | ']' => some .closeArray
  | '\x7b' => some .openObject
  | '\x7d' => some .closeObject
  | ',' => some .comma
  | ':' => some .colon
  | _ => none

/-- Whether a character separates tokens. -/
def isBlank (c : Char) : Bool :=
  c == ' ' || c == '\n' || c == '\r' || c == '\t'

/-- The character that stands for itself or is named by a letter behind a backslash. -/
def escapedBy? : Char → Option Char
  | '"' => some '"'
  | '\\' => some '\\'
  | '/' => some '/'
  | 'b' => some '\x08'
  | 'f' => some '\x0c'
  | 'n' => some '\n'
  | 'r' => some '\r'
  | 't' => some '\t'
  | _ => none

/-! ### Halves of characters -/

/-- Whether a number is that of the first half of a character. -/
def isFirstHalf (unit : Nat) : Bool := 0xD800 ≤ unit && unit < 0xDC00

/-- Whether a number is that of the second half of a character. -/
def isSecondHalf (unit : Nat) : Bool := 0xDC00 ≤ unit && unit < 0xE000

/-- The character of two halves. -/
def joinHalves (first second : Nat) : Char :=
  Char.ofNat (0x10000 + (first - 0xD800) * 0x400 + (second - 0xDC00))

/-- The characters of numbers, which are given last first, in front of other characters; nothing if
one of the numbers is a half without its other half. -/
def charactersOnto : (read : List Nat) → (chars : List Char) → Option (List Char)
  | [], chars => some chars
  | unit :: read, chars =>
    -- Numbers come last first, so a character begins with its second half.
    if isSecondHalf unit then
      match read with
      | first :: read =>
        if isFirstHalf first then charactersOnto read (joinHalves first unit :: chars) else none
      | [] => none
    else if isFirstHalf unit then none
    else charactersOnto read (Char.ofNat unit :: chars)

/-- The characters of numbers, which are given last first. -/
def characters? (read : List Nat) : Option (List Char) := charactersOnto read []

/-! ### Scanning -/

/-- The next character outside of texts and words. -/
def Scan.startWith (c : Char) : Option (Scan × List Token) :=
  if isBlank c then some (.between, [])
  else if c = '"' then some (.text [], [])
  else
    match mark? c with
    | some token => some (.between, [token])
    | none => some (.word [c], [])

/-- The next character: where the scan stands after it, and the tokens that it ends. -/
def Scan.step (s : Scan) (c : Char) : Option (Scan × List Token) :=
  match s with
  | between => startWith c
  | word read =>
    -- What ends a word may be a token itself.
    if isBlank c || c == '"' || (mark? c).isSome then do
      let scalar ← word? read.reverse
      let (s, tokens) ← startWith c
      return (s, .scalar scalar :: tokens)
    else some (word (c :: read), [])
  | text read =>
    if c = '"' then some (between, [.text ((characters? read).map String.ofList)])
    else if c = '\\' then some (escape read, [])
    else if c.toNat < 0x20 then none
    else some (text (c.toNat :: read), [])
  | escape read =>
    if c = 'u' then some (numbered read [], [])
    else (escapedBy? c).map fun c => (text (c.toNat :: read), [])
  | numbered read digits => do
    -- Every digit is checked as it comes, not only the whole number.
    let _ ← Text.hexDigitValue? c
    if digits.length < 3 then return (numbered read (c :: digits), [])
    else
      let unit ← Text.hexValue? (c :: digits).reverse
      return (text (unit :: read), [])

/-- The tokens that the end of the text ends. -/
def Scan.finish : Scan → Option (List Token)
  | between => some []
  | word read => (word? read.reverse).map ([.scalar ·])
  | _ => none

/-- The next character, with the tokens that were read kept last first. -/
def Scan.advance (reached : Scan × List Token) (c : Char) : Option (Scan × List Token) := do
  let (scan, tokens) ← reached.1.step c
  return (scan, tokens.reverse ++ reached.2)

/-- The tokens of a text, if it consists of tokens. -/
def tokens? (chars : List Char) : Option (List Token) := do
  let (scan, read) ← chars.foldlM Scan.advance (.between, [])
  let last ← scan.finish
  return (last.reverse ++ read).reverse

end DialectSql.Json
