import WireAgent.Xml.Name

/-!
# Lexemes of a declaration

Inside a document type declaration a text is cut into names, rows of name characters, quoted
literals, keywords and marks. A name and a literal must be followed by white space or by one of the
marks that may end them.
-/

namespace WireAgent.Xml

/-- A part of a declaration. -/
inductive Lexeme where
  /-- A name, with or without a colon. -/
  | name (text : List Char) (qualified : Bool)
  /-- A row of name characters that is no name. -/
  | nameToken (text : List Char)
  /-- A name with a mark of repetition. -/
  | repeated (text : List Char)
  /-- A text between quotes. -/
  | literal (text : List Char)
  /-- A name after a number sign. -/
  | keyword (text : List Char)
  | percent
  | openParen
  /-- A closing parenthesis; is there a mark of repetition, and is it the asterisk? -/
  | closeParen (repetition : Bool) (asterisk : Bool)
  | comma
  | bar
  deriving DecidableEq, Repr

/-- A mark of repetition. -/
def isRepetition (c : Char) : Bool := c = '?' || c = '*' || c = '+'

/-- Is the next character white space or one of these? -/
def endsBefore (marks : List Char) : List Char → Bool
  | [] => false
  | c :: _ => isSpace c || marks.contains c

/-- A row of name characters and colons, and what follows it. -/
def nameRow (cs : List Char) : List Char × List Char :=
  cs.span fun c => isNameChar c || c = ':'

/-- Is a row of name characters a name with at most one colon, which a name character follows? -/
def isNameRow (row : List Char) : Bool :=
  match row with
  | [] => false
  | c :: rest =>
    isNameStart c && match rest.span (· ≠ ':') with
      | (_, []) => true
      | (_, [_]) => false
      | (_, _ :: more) => !more.contains ':'

/-- The lexeme that begins with a name character. -/
def nameLexeme? (cs : List Char) : Option (Lexeme × List Char) :=
  let (row, rest) := nameRow cs
  let isName := isNameRow row
  match rest with
  | c :: left =>
    if isRepetition c then if isName then some (.repeated row, left) else none
    else if endsBefore ['>', ')', ',', '|', '[', '%'] rest then
      some (if isName then .name row (row.contains ':') else .nameToken row, rest)
    else none
  | [] => none

/-- One lexeme. -/
def lexeme? : List Char → Option (Lexeme × List Char)
  | [] => none
  | '%' :: rest => if endsBefore [] rest then some (.percent, rest) else none
  | ',' :: rest => some (.comma, rest)
  | '|' :: rest => some (.bar, rest)
  | '(' :: rest => some (.openParen, rest)
  | ')' :: c :: rest =>
    if isRepetition c then some (.closeParen true (c = '*'), rest)
    else if isSpace c || [',', '|', ')', '>'].contains c then
      some (.closeParen false false, c :: rest)
    else none
  | '#' :: rest => do
    let (name, rest) ← name? rest
    if endsBefore [')', '>', '%', '|'] rest then return (.keyword name, rest) else none
  | c :: rest =>
    if c = '"' || c = '\'' then do
      let (text, left) ← until? [c] rest
      if endsBefore ['>', '%', '['] left then return (.literal text, left) else none
    else if isNameChar c || c = ':' then nameLexeme? (c :: rest)
    else none

/-- The lexemes of a declaration, the character that ends them, and what follows it. -/
def lexemes? : Nat → List Char → Option (List Lexeme × Char × List Char)
  | 0, _ => none
  | fuel + 1, cs =>
    match skipSpace cs with
    | '>' :: rest => some ([], '>', rest)
    | '[' :: rest => some ([], '[', rest)
    | cs => do
      let (lexeme, rest) ← lexeme? cs
      let (more, mark, rest) ← lexemes? fuel rest
      return (lexeme :: more, mark, rest)

end WireAgent.Xml
