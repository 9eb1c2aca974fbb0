import DialectSql.Decimal.Style
import DialectSql.Document.Json
import DialectSql.Text.Digits

/-!
# Writing documents

JSON texts of documents, in one line or indented by two spaces.

## Main definitions

* `Json.quoted` — a text with the escapes of JSON
* `Json.compact` — a document in one line without blanks
* `Json.indented` — a document with one member or element to a line
-/

namespace DialectSql.Json

/-- A character inside a text: quotes, backslashes and controls are escaped. -/
def quotedChar (c : Char) : String :=
  match c with
  | '"' => "\\\""
  | '\\' => "\\\\"
  | '\n' => "\\n"
  | '\r' => "\\r"
  | '\t' => "\\t"
  | '\x08' => "\\b"
  | '\x0c' => "\\f"
  | c =>
    if c.toNat < 0x20 then "\\u" ++ String.ofList (Text.hexDigits 4 c.toNat)
    else String.singleton c

/-- A text between quotes. -/
def quoted (s : String) : String :=
  "\"" ++ String.join (s.toList.map quotedChar) ++ "\""

/-- A number with a fraction; JSON has none for a float that is not finite, which becomes null. -/
def floatText (x : Float) : String :=
  if x.isFinite then Decimal.document.render x else "null"

/-- Texts one behind the other, with commas between them. -/
def commaSeparated (texts : List String) : String := String.intercalate "," texts

mutual

/-- A document in one line without blanks. What has no meaning becomes null. -/
def compact : Json → String
  | null | unusable => "null"
  | bool b => if b then "true" else "false"
  | int n => Text.integer n
  | float x => floatText x
  | string s => quoted s
  | array items => "[" ++ commaSeparated (compactItems items) ++ "]"
  | object members => "\x7b" ++ commaSeparated (compactMembers members) ++ "\x7d"

/-- The elements of an array in one line each. -/
def compactItems : List Json → List String
  | [] => []
  | item :: items => item.compact :: compactItems items

/-- The members of an object in one line each. -/
def compactMembers : List (String × Json) → List String
  | [] => []
  | (key, value) :: members => (quoted key ++ ":" ++ value.compact) :: compactMembers members

end

/-- A new line at a depth of indentation. -/
def newline (depth : Nat) : String :=
  "\n" ++ String.ofList (List.replicate (2 * depth) ' ')

/-- Lines between an opening and a closing mark, one step further in; nothing between the marks if
there are no lines. -/
def block (opening closing : String) (depth : Nat) (lines : List String) : String :=
  if lines.isEmpty then opening ++ closing
  else
    opening ++ newline (depth + 1) ++
      String.intercalate ("," ++ newline (depth + 1)) lines ++ newline depth ++ closing

mutual

/-- A document with one member or element to a line, from a depth of indentation on. -/
def indentedAt (depth : Nat) : Json → String
  | null | unusable => "null"
  | bool b => if b then "true" else "false"
  | int n => Text.integer n
  | float x => floatText x
  | string s => quoted s
  | array items => block "[" "]" depth (indentedItems (depth + 1) items)
  | object members => block "\x7b" "\x7d" depth (indentedMembers (depth + 1) members)

/-- The elements of an array. -/
def indentedItems (depth : Nat) : List Json → List String
  | [] => []
  | item :: items => item.indentedAt depth :: indentedItems depth items

/-- The members of an object. -/
def indentedMembers (depth : Nat) : List (String × Json) → List String
  | [] => []
  | (key, value) :: members =>
    (quoted key ++ ": " ++ value.indentedAt depth) :: indentedMembers depth members

end

/-- A document with one member or element to a line. -/
def indented (j : Json) : String := j.indentedAt 0

end DialectSql.Json
