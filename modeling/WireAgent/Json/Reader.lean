import WireAgent.Json.Value
import WireAgent.Number.Reader

/-!
# Reading JSON

`parse?` reads a text that holds one value with white space around it. Each reading function takes
the text from where it begins and returns what is left. The functions of the mutual block consume a
character between any two calls, so the length of the text bounds their number.
-/

namespace WireAgent.Json

/-- White space between the parts of a text. -/
def isSpace (c : Char) : Bool := c = ' ' || c = '\n' || c = '\r' || c = '\t'

/-- The text after its leading white space. -/
def skipSpace (cs : List Char) : List Char := cs.dropWhile isSpace

/-- The UTF-16 unit of four hexadecimal digits. -/
def unit? (a b c d : Char) : Option Nat := do
  let a ← Text.hexDigit? a
  let b ← Text.hexDigit? b
  let c ← Text.hexDigit? c
  let d ← Text.hexDigit? d
  return ((a * 16 + b) * 16 + c) * 16 + d

/-- The character that follows a backslash. -/
def escaped? : Char → Option Char
  | '"' => some '"'
  | '\\' => some '\\'
  | '/' => some '/'
  | 'b' => some '\x08'
  | 'f' => some '\x0c'
  | 'n' => some '\n'
  | 'r' => some '\r'
  | 't' => some '\t'
  | _ => none

/-- A string after its opening quote. A pair of surrogates stands for one character. -/
def stringBody? : List Char → Option (List Char × List Char)
  | [] => none
  | '"' :: rest => some ([], rest)
  | '\\' :: 'u' :: a :: b :: c :: d :: rest =>
    match unit? a b c d with
    | none => none
    | some unit =>
      if 0xD800 ≤ unit && unit < 0xDC00 then
        match rest with
        | '\\' :: 'u' :: a :: b :: c :: d :: rest =>
          match unit? a b c d with
          | none => none
          | some low =>
            if 0xDC00 ≤ low && low < 0xE000 then
              (stringBody? rest).map fun (body, left) =>
                (Char.ofNat (0x10000 + (unit - 0xD800) * 0x400 + (low - 0xDC00)) :: body, left)
            else none
        | _ => none
      else if 0xDC00 ≤ unit && unit < 0xE000 then none
      else (stringBody? rest).map fun (body, left) => (Char.ofNat unit :: body, left)
  | '\\' :: c :: rest =>
    match escaped? c with
    | none => none
    | some c => (stringBody? rest).map fun (body, left) => (c :: body, left)
  | c :: rest =>
    if c < ' ' || c = '\\' then none
    else (stringBody? rest).map fun (body, left) => (c :: body, left)

/-- The digits after a point; at least one. -/
def fraction? : List Char → Option (List Char × List Char)
  | '.' :: rest =>
    let (digits, left) := Number.spanDigits rest
    if digits.isEmpty then none else some (digits, left)
  | cs => some ([], cs)

/-- The exponent of a number, if one is written. -/
def exponent? : List Char → Option (Option Int × List Char)
  | c :: rest =>
    if c = 'e' || c = 'E' then
      let (negative, body) := Number.signOf rest
      let (digits, left) := Number.spanDigits body
      if digits.isEmpty then none
      else some (some (Number.Binary64.signed negative (Number.asciiValue digits)), left)
    else some (none, c :: rest)
  | [] => some (none, [])

/-- A number. -/
def number? (cs : List Char) : Option (Json × List Char) := do
  let (negative, body) := match cs with
    | '-' :: rest => (true, rest)
    | cs => (false, cs)
  let (whole, rest) := Number.spanDigits body
  if whole.isEmpty || (whole.head? == some '0' && 1 < whole.length) then none
  else
    let (places, rest) ← fraction? rest
    let (exponent, rest) ← exponent? rest
    let digits := Number.asciiValue (whole ++ places)
    if places.isEmpty && exponent.isNone then
      return (.integer (Number.Binary64.signed negative digits), rest)
    else
      let scale := exponent.getD 0 - places.length
      return (.real (Number.Binary64.ofDecimal negative digits scale), rest)

mutual

/-- A value. -/
def value? : Nat → List Char → Option (Json × List Char)
  | 0, _ => none
  | fuel + 1, cs =>
    match cs with
    | 'n' :: 'u' :: 'l' :: 'l' :: rest => some (.null, rest)
    | 't' :: 'r' :: 'u' :: 'e' :: rest => some (.bool true, rest)
    | 'f' :: 'a' :: 'l' :: 's' :: 'e' :: rest => some (.bool false, rest)
    | '"' :: rest => (stringBody? rest).map fun (body, left) => (.string (String.ofList body), left)
    | '[' :: rest =>
      match skipSpace rest with
      | ']' :: rest => some (.array [], rest)
      | rest => (items? fuel rest).map fun (items, left) => (.array items, left)
    | '\x7b' :: rest =>
      match skipSpace rest with
      | '\x7d' :: rest => some (.object [], rest)
      | rest => (members? fuel rest).map fun (members, left) => (.object members, left)
    | cs => number? cs

/-- The items of an array up to its closing bracket. -/
def items? : Nat → List Char → Option (List Json × List Char)
  | 0, _ => none
  | fuel + 1, cs =>
    match value? fuel cs with
    | none => none
    | some (item, rest) =>
      match skipSpace rest with
      | ',' :: rest => (items? fuel (skipSpace rest)).map fun (items, left) => (item :: items, left)
      | ']' :: rest => some ([item], rest)
      | _ => none

/-- The members of an object up to its closing brace. -/
def members? : Nat → List Char → Option (List (String × Json) × List Char)
  | 0, _ => none
  | fuel + 1, cs =>
    match cs with
    | '"' :: rest =>
      match stringBody? rest with
      | none => none
      | some (name, rest) =>
        match skipSpace rest with
        | ':' :: rest =>
          match value? fuel (skipSpace rest) with
          | none => none
          | some (value, rest) =>
            let member := (String.ofList name, value)
            match skipSpace rest with
            | ',' :: rest =>
              (members? fuel (skipSpace rest)).map fun (members, left) => (member :: members, left)
            | '\x7d' :: rest => some ([member], rest)
            | _ => none
        | _ => none
    | _ => none

end

/-- The value that a text holds. -/
def parse? (text : String) : Option Json :=
  let cs := text.toList
  match value? (cs.length + 1) (skipSpace cs) with
  | some (value, rest) => if (skipSpace rest).isEmpty then some value else none
  | none => none

end WireAgent.Json
