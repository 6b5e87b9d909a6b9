import WireAgent.Text.Digit

/-!
# Numerals

`decimal` writes a number in base ten. `valueOf` is the number that a row of digits denotes. A
numeral of more than `maxDigits` digits, leading zeros counted, is refused before it is converted,
and so is a number that would be written with more.
-/

namespace WireAgent.Number

/-- The length of the longest numeral that is read or written. -/
def maxDigits : Nat := 4300

/-- The greatest number of 32 bits. -/
def greatest32 : Nat := 4294967295

/-- The greatest number of 16 bits. -/
def greatest16 : Nat := 65535

/-- The decimal digits of a number, without leading zeros. -/
def decimal (n : Nat) : List Char := Nat.toDigits 10 n

/-- The text of an integer. -/
def ofInt : Int → String
  | .ofNat n => String.ofList (decimal n)
  | .negSucc n => String.ofList ('-' :: decimal (n + 1))

/-- The text of a number; none if it has too many digits. -/
def write? (n : Nat) : Option String :=
  if (decimal n).length ≤ maxDigits then some (ofInt n) else none

/-- The text that refuses a number of too many digits. -/
def tooLargeMessage : String :=
  "Exceeds the limit (" ++ ofInt maxDigits ++ " digits) for integer string conversion; "
    ++ "use sys.set_int_max_str_digits() to increase the limit"

/-- The decimal digits of a number, with zeros in front up to `width`. -/
def padded (width n : Nat) : List Char :=
  let digits := decimal n
  List.replicate (width - digits.length) '0' ++ digits

/-- The number that digits of the given worths denote. -/
def valueOf (digits : List Nat) : Nat := digits.foldl (fun value digit => 10 * value + digit) 0

/-- The worths of a row of ASCII digits; none if another character is among them. -/
def asciiWorths? (cs : List Char) : Option (List Nat) := cs.mapM Text.asciiDigit?

/-- Why a numeral is not a number. -/
inductive NumeralError
  /-- The text is no numeral. -/
  | malformed
  /-- The numeral has more digits than are converted; the count of them. -/
  | tooLong (digits : Nat)
  deriving DecidableEq, Repr

/-- The text that refuses a numeral of that many digits. -/
def tooLongMessage (digits : Nat) : String :=
  "Exceeds the limit (" ++ ofInt maxDigits ++ " digits) for integer string conversion: value has "
    ++ ofInt digits ++ " digits; use sys.set_int_max_str_digits() to increase the limit"

/-- The number that a row of digits denotes, unless it is too long. -/
def convert (digits : List Nat) : Except NumeralError Nat :=
  if maxDigits < digits.length then .error (.tooLong digits.length) else .ok (valueOf digits)

/-- A row of digits of any script at the head of a text, single underscores between two digits
allowed; `after` says whether a digit stands right before. The result is the worths and the rest,
or nothing if an underscore is not followed by a digit. -/
def digitRun (after : Bool) : List Char → Option (List Nat × List Char)
  | [] => some ([], [])
  | c :: rest =>
    match Text.digit? c with
    | some worth => (digitRun true rest).map fun (worths, left) => (worth :: worths, left)
    | none =>
      if c = '_' && after then
        match rest with
        | [] => none
        | next :: left =>
          match Text.digit? next with
          | some worth => (digitRun true left).map fun (worths, left) => (worth :: worths, left)
          | none => none
      else some ([], c :: rest)

/-- A sign at the head of a text: is it a minus, and what follows it. -/
def signOf : List Char → Bool × List Char
  | '-' :: rest => (true, rest)
  | '+' :: rest => (false, rest)
  | cs => (false, cs)

/-- The integer that a word denotes: an optional sign and a row of digits of any script, with
single underscores between digits. A row that is too long is refused even if more follows it. -/
def integer? (cs : List Char) : Except NumeralError Int :=
  let (negative, body) := signOf cs
  match digitRun false body with
  | none => .error .malformed
  | some (worths, rest) =>
    if maxDigits < worths.length then .error (.tooLong worths.length)
    else if worths.isEmpty || !rest.isEmpty then .error .malformed
    else .ok (if negative then -(valueOf worths : Int) else valueOf worths)

end WireAgent.Number
