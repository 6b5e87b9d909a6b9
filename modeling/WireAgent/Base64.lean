/-!
# Base64

`encode` writes bytes as base64 text: three bytes as four digits of six bits, and a last group of
one or two bytes padded with equals signs. `decode?` reads such text back and accepts canonical text
only, in which the bits that padding leaves over are zero.
-/

namespace WireAgent.Base64

/-- The digit of worth `n`, below 64. -/
def digit (n : Nat) : Char :=
  if n < 26 then Char.ofNat (65 + n)
  else if n < 52 then Char.ofNat (97 + (n - 26))
  else if n < 62 then Char.ofNat (48 + (n - 52))
  else if n = 62 then '+' else '/'

/-- The worth of a digit. -/
def worth? (c : Char) : Option Nat :=
  if 'A' ≤ c && c ≤ 'Z' then some (c.toNat - 65)
  else if 'a' ≤ c && c ≤ 'z' then some (c.toNat - 97 + 26)
  else if '0' ≤ c && c ≤ '9' then some (c.toNat - 48 + 52)
  else if c = '+' then some 62
  else if c = '/' then some 63
  else none

/-- The text of bytes. -/
def encode : List UInt8 → List Char
  | [] => []
  | [a] => [digit (a.toNat / 4), digit (a.toNat % 4 * 16), '=', '=']
  | [a, b] =>
    [digit (a.toNat / 4), digit (a.toNat % 4 * 16 + b.toNat / 16), digit (b.toNat % 16 * 4), '=']
  | a :: b :: c :: rest =>
    digit (a.toNat / 4) :: digit (a.toNat % 4 * 16 + b.toNat / 16)
      :: digit (b.toNat % 16 * 4 + c.toNat / 64) :: digit (c.toNat % 64) :: encode rest

/-- The bytes of a canonical text. -/
def decode? : List Char → Option (List UInt8)
  | [] => some []
  | [a, b, '=', '='] => do
    let p ← worth? a
    let q ← worth? b
    if q % 16 = 0 then return [UInt8.ofNat (p * 4 + q / 16)] else none
  | [a, b, c, '='] => do
    let p ← worth? a
    let q ← worth? b
    let r ← worth? c
    if r % 4 = 0 then
      return [UInt8.ofNat (p * 4 + q / 16), UInt8.ofNat (q % 16 * 16 + r / 4)]
    else none
  | a :: b :: c :: d :: rest => do
    let p ← worth? a
    let q ← worth? b
    let r ← worth? c
    let s ← worth? d
    let more ← decode? rest
    return UInt8.ofNat (p * 4 + q / 16) :: UInt8.ofNat (q % 16 * 16 + r / 4)
      :: UInt8.ofNat (r % 4 * 64 + s) :: more
  | _ => none

end WireAgent.Base64
