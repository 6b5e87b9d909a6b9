/-!
# Encodings

A text is handed to the reader of documents as its bytes in UTF-8, but the reader goes by the bytes
that come first. If one of the first two is zero, which is so in no document in UTF-8, the bytes are
taken for UTF-16 with the high byte or with the low byte first.
-/

namespace WireAgent.Xml

/-- How the bytes of a document are read. -/
inductive Encoding where
  | utf8
  | utf16 (bigEndian : Bool)
  deriving DecidableEq, Repr

namespace Encoding

/-- The encoding that the bytes of a text are taken for. -/
def ofText : List Char → Encoding
  | '\x00' :: _ => .utf16 true
  | c :: '\x00' :: _ => if c.toNat < 128 then .utf16 false else .utf8
  | _ => .utf8

/-- The bytes that a character takes up. -/
def width : Encoding → Char → Nat
  | .utf8, c => c.utf8Size
  | .utf16 _, c => if c.toNat < 0x10000 then 2 else 4

/-- Bytes taken two by two. -/
def units? (bigEndian : Bool) : List UInt8 → Option (List Nat)
  | [] => some []
  | [_] => none
  | first :: second :: rest => do
    let (high, low) := if bigEndian then (first, second) else (second, first)
    return (256 * high.toNat + low.toNat) :: (← units? bigEndian rest)

/-- The characters of units of 16 bits. A high surrogate makes a pair with any unit. -/
def chars? : List Nat → Option (List Char)
  | [] => some []
  | unit :: rest =>
    if unit < 0xD800 ∨ 0xDFFF < unit then do return Char.ofNat unit :: (← chars? rest)
    else match rest with
      | low :: rest =>
        if unit < 0xDC00 then do
          let code := 0x10000 + 0x400 * (unit - 0xD800) + low % 0x400
          return Char.ofNat code :: (← chars? rest)
        else none
      | [] => none

/-- The text that a document is read as, given the text whose bytes it is. -/
def decode? : Encoding → List Char → Option (List Char)
  | .utf8, text => some text
  | .utf16 bigEndian, text => (units? bigEndian (text.flatMap String.utf8EncodeChar)).bind chars?

end Encoding

end WireAgent.Xml
