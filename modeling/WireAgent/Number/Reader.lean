import WireAgent.Number.Binary64
import WireAgent.Number.Digits

/-!
# Reading floating-point numbers

A floating-point numeral is an optional sign and either digits with an optional point and an
optional exponent, or one of the words for infinity and for what is not a number, in any case.
Single underscores may stand between two digits. The double is the one nearest to the exact value.
-/

namespace WireAgent.Number

/-- The text without its underscores, each of which must stand between two digits. -/
def dropUnderscores? (after : Bool) : List Char → Option (List Char)
  | [] => some []
  | '_' :: rest =>
    match rest with
    | next :: _ => if after && Text.isAsciiDigit next then dropUnderscores? false rest else none
    | [] => none
  | c :: rest => (dropUnderscores? (Text.isAsciiDigit c) rest).map (c :: ·)

/-- The ASCII digits at the head of a text, and what follows them. -/
def spanDigits (cs : List Char) : List Char × List Char := cs.span Text.isAsciiDigit

/-- The number that ASCII digits denote. -/
def asciiValue (digits : List Char) : Nat := valueOf (digits.filterMap Text.asciiDigit?)

/-- The exponent at the end of a numeral: zero if there is none. -/
def exponent? : List Char → Option Int
  | [] => some 0
  | c :: rest =>
    if c = 'e' || c = 'E' then
      let (negative, body) := signOf rest
      let (digits, left) := spanDigits body
      if digits.isEmpty || !left.isEmpty then none
      else some (Binary64.signed negative (asciiValue digits))
    else none

/-- The double that digits with an optional point and exponent denote. -/
def finite? (negative : Bool) (cs : List Char) : Option Binary64 :=
  let (whole, rest) := spanDigits cs
  let (places, rest) := match rest with
    | '.' :: rest => spanDigits rest
    | rest => ([], rest)
  if whole.isEmpty && places.isEmpty then none
  else (exponent? rest).map fun exponent =>
    Binary64.ofDecimal negative (asciiValue (whole ++ places)) (exponent - places.length)

/-- The double that a numeral of ASCII characters denotes. -/
def real? (cs : List Char) : Option Binary64 := do
  let (negative, body) := signOf (← dropUnderscores? false cs)
  match String.ofList (body.map Char.toLower) with
  | "inf" | "infinity" => some (.infinite negative)
  | "nan" => some .nan
  | _ => finite? negative body

/-- The text with the digits of every script written as ASCII digits. -/
def toAsciiDigits (cs : List Char) : List Char :=
  cs.map fun c => match Text.digit? c with
    | some worth => Char.ofNat ('0'.toNat + worth)
    | none => c

end WireAgent.Number
