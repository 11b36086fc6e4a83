import Playtest.Json.Value
import Playtest.Text.Quoted

/-!
# Values as text

* `Value.render` is the compact JSON text of a value: no blanks, fields in the order of the object,
  strings escaped so that the text has no line break and no control character.
* `Value.describe` is the form that messages use: each value under the name of its kind.
-/

namespace Playtest.Json

open Playtest.Number Playtest.Text

/-- A hexadecimal digit. -/
def hexDigit (n : Nat) : Char := if n < 10 then Char.ofNat (48 + n) else Char.ofNat (87 + n)

/-- How one character is written inside a JSON string: quotes, backslashes and control characters
are escaped, everything else stands for itself. -/
def escapeChar (c : Char) : List Char :=
  if c = '\x22' then ['\\', '\x22']
  else if c = '\\' then ['\\', '\\']
  else if c = '\x08' then ['\\', 'b']
  else if c = '\x0c' then ['\\', 'f']
  else if c = '\n' then ['\\', 'n']
  else if c = '\r' then ['\\', 'r']
  else if c = '\t' then ['\\', 't']
  else if c.toNat < 0x20 then
    ['\\', 'u', '0', '0', hexDigit (c.toNat / 16), hexDigit (c.toNat % 16)]
  else [c]

/-- The characters of a string literal. -/
def stringChars (s : String) : List Char := '\x22' :: s.toList.flatMap escapeChar ++ ['\x22']

/-- The characters of an integer. -/
def intChars (n : Int) : List Char :=
  (if n < 0 then ['-'] else []) ++ Nat.toDigits 10 n.natAbs

/-- The text of a finite float in a document. -/
def realText (x : Real) : String := Layout.json.render .double (unpack x.val)

mutual

/-- The characters of a value's compact text. -/
def Value.chars : Value → List Char
  | .null => ['n', 'u', 'l', 'l']
  | .bool true => ['t', 'r', 'u', 'e']
  | .bool false => ['f', 'a', 'l', 's', 'e']
  | .int n => intChars n.val
  | .real x => (realText x).toList
  | .str s => stringChars s
  | .arr items => '[' :: Value.itemChars items
  | .obj fields => '\x7b' :: Value.fieldChars fields

/-- The items of an array, up to and with its end. -/
def Value.itemChars : List Value → List Char
  | [] => [']']
  | [v] => v.chars ++ [']']
  | v :: vs => v.chars ++ ',' :: Value.itemChars vs

/-- The fields of an object, up to and with its end. -/
def Value.fieldChars : List (String × Value) → List Char
  | [] => ['\x7d']
  | [(k, v)] => stringChars k ++ ':' :: v.chars ++ ['\x7d']
  | (k, v) :: vs => stringChars k ++ ':' :: v.chars ++ ',' :: Value.fieldChars vs

end

/-- The **compact text** of a value. -/
def Value.render (v : Value) : String := String.ofList v.chars

mutual

/-- A value as messages show it. -/
def Value.describe : Value → String
  | .null => "Null"
  | .bool b => s!"Bool({b})"
  | .int n => s!"Number({n.val})"
  | .real x => s!"Number({realText x})"
  | .str s => s!"String({quoted s})"
  | .arr items => "Array [" ++ Value.describeItems items ++ "]"
  | .obj fields => "Object \x7b" ++ Value.describeFields fields ++ "\x7d"

/-- The items of a shown array. -/
def Value.describeItems : List Value → String
  | [] => ""
  | [v] => v.describe
  | v :: vs => v.describe ++ ", " ++ Value.describeItems vs

/-- The fields of a shown object. -/
def Value.describeFields : List (String × Value) → String
  | [] => ""
  | [(k, v)] => quoted k ++ ": " ++ v.describe
  | (k, v) :: vs => quoted k ++ ": " ++ v.describe ++ ", " ++ Value.describeFields vs

end

end Playtest.Json
