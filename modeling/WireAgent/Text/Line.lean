import WireAgent.Text.Ranges

/-!
# Lines

A line ends at a line break: line feed, carriage return, the two as a pair, the vertical tab, the
form feed, the three upper information separators, the next-line control, and the line and
paragraph separators. `splitLines` cuts a text into its lines; a break at the end of the text opens
no further line. `unifyBreaks` writes every carriage return, and every pair of carriage return and
line feed, as one line feed.
-/

namespace WireAgent.Text

/-- The code points that end a line. -/
def lineBreakRanges : Ranges :=
  [(0x0A, 0x0D), (0x1C, 0x1E), (0x85, 0x85), (0x2028, 0x2029)]

/-- A character that ends a line. -/
def isLineBreak (c : Char) : Bool := lineBreakRanges.holds c

/-- The lines of a text, without their breaks. -/
def splitLines : List Char → List (List Char)
  | [] => []
  | '\r' :: '\n' :: rest => [] :: splitLines rest
  | c :: rest =>
    if isLineBreak c then [] :: splitLines rest
    else match splitLines rest with
      | [] => [[c]]
      | line :: more => (c :: line) :: more

/-- The text with each carriage return, alone or before a line feed, written as a line feed. -/
def unifyBreaks : List Char → List Char
  | [] => []
  | '\r' :: '\n' :: rest => '\n' :: unifyBreaks rest
  | '\r' :: rest => '\n' :: unifyBreaks rest
  | c :: rest => c :: unifyBreaks rest

/-- The lines of a string. -/
def lines (s : String) : List String := (splitLines s.toList).map String.ofList

/-- The parts joined by a separator. -/
def join (separator : String) (parts : List String) : String := separator.intercalate parts

end WireAgent.Text
