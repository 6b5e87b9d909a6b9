import WireAgent.Text.Ranges

/-!
# Blanks

A blank is a character that separates words: the white space of Unicode together with the four
information separators U+001C to U+001F. Trimming removes blanks from the two ends of a text, and
`words` is what blanks leave over.
-/

namespace WireAgent.Text

/-- The code points of the blanks. -/
def blankRanges : Ranges :=
  [(0x09, 0x0D), (0x1C, 0x20), (0x85, 0x85), (0xA0, 0xA0), (0x1680, 0x1680), (0x2000, 0x200A),
   (0x2028, 0x2029), (0x202F, 0x202F), (0x205F, 0x205F), (0x3000, 0x3000)]

/-- A blank separates words. -/
def isBlank (c : Char) : Bool := blankRanges.holds c

/-- The text after its leading blanks. -/
def trimStart (cs : List Char) : List Char := cs.dropWhile isBlank

/-- The text before its trailing blanks. -/
def trimEnd (cs : List Char) : List Char := (cs.reverse.dropWhile isBlank).reverse

/-- The text between its leading and its trailing blanks. -/
def trim (cs : List Char) : List Char := trimEnd (trimStart cs)

/-- The fields that single blanks separate; two blanks in a row have an empty field between them. -/
def fields : List Char → List (List Char)
  | [] => [[]]
  | c :: rest =>
    if isBlank c then [] :: fields rest
    else match fields rest with
      | [] => [[c]]
      | field :: more => (c :: field) :: more

/-- The words of a text: its fields that are not empty. -/
def words (cs : List Char) : List (List Char) := (fields cs).filter fun field => !field.isEmpty

/-- A string without the blanks at its ends. -/
def trimmed (s : String) : String := String.ofList (trim s.toList)

end WireAgent.Text
