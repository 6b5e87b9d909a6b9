import WireAgent.Json.Value
import WireAgent.Number.Shortest
import WireAgent.Text.Quoted

/-!
# Writing JSON

The text of a value, without white space and in ASCII alone: a quote and a backslash are written
after a backslash, five controls by their letters, and every other character outside the printable
part of ASCII by the four hexadecimal digits of its UTF-16 units.
-/

namespace WireAgent.Json

/-- A UTF-16 unit after `\u`. -/
def unitEscape (unit : Nat) : List Char := '\\' :: 'u' :: Text.hexDigits 4 unit

/-- One character of a string. -/
def encodeChar (c : Char) : List Char :=
  if c = '"' then ['\\', '"']
  else if c = '\\' then ['\\', '\\']
  else if c = '\n' then ['\\', 'n']
  else if c = '\r' then ['\\', 'r']
  else if c = '\t' then ['\\', 't']
  else if c = '\x08' then ['\\', 'b']
  else if c = '\x0c' then ['\\', 'f']
  else if ' ' ≤ c && c ≤ '~' then [c]
  else if c.toNat < 0x10000 then unitEscape c.toNat
  else
    let offset := c.toNat - 0x10000
    unitEscape (0xD800 + offset / 0x400) ++ unitEscape (0xDC00 + offset % 0x400)

/-- The text of a string. -/
def encodeString (s : String) : List Char := '"' :: s.toList.flatMap encodeChar ++ ['"']

mutual

/-- The text of a value. -/
def encode : Json → List Char
  | .null => ['n', 'u', 'l', 'l']
  | .bool true => ['t', 'r', 'u', 'e']
  | .bool false => ['f', 'a', 'l', 's', 'e']
  | .integer n => (Number.ofInt n).toList
  | .real x => x.text.toList
  | .string s => encodeString s
  | .array [] => ['[', ']']
  | .array (item :: items) => '[' :: encode item ++ encodeItems items ++ [']']
  | .object [] => ['\x7b', '\x7d']
  | .object ((name, value) :: members) =>
    '\x7b' :: encodeString name ++ ':' :: encode value ++ encodeMembers members ++ ['\x7d']

/-- The texts of the items of an array after the first. -/
def encodeItems : List Json → List Char
  | [] => []
  | item :: items => ',' :: encode item ++ encodeItems items

/-- The texts of the members of an object after the first. -/
def encodeMembers : List (String × Json) → List Char
  | [] => []
  | (name, value) :: members =>
    ',' :: encodeString name ++ ':' :: encode value ++ encodeMembers members

end

/-- The text of a value as a string. -/
def render (v : Json) : String := String.ofList (encode v)

end WireAgent.Json
