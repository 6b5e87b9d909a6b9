import WireAgent.Xml.Lexeme
import WireAgent.Xml.Value

/-!
# Document type declarations

`doctype?` reads a document type declaration into `Declarations`. Each declaration inside it is cut
into lexemes and its form is read off them. Declarations of elements and notations are checked for
their form and dropped. Nothing outside the document is read: after a reference to a parameter
entity, declarations are dropped too unless the document stands alone.
-/

namespace WireAgent.Xml

/-! ## Forms of declarations -/

/-- A character that a public identifier may hold. -/
def isPublicChar (c : Char) : Bool :=
  c.isAlphanum || [' ', '\n', '-', '\'', '(', ')', '+', ',', '.', '/', ':', '=', '?', ';', '!', '*',
    '#', '@', '$', '_', '%'].contains c

/-- Where something outside the document is found: a system identifier, alone or after a public one.
The rest is what follows it. -/
def outside? : List Lexeme → Option (List Lexeme)
  | .name place _ :: .literal text :: rest =>
    if place = "SYSTEM".toList then some rest
    else if place = "PUBLIC".toList && text.all isPublicChar then
      match rest with
      | .literal _ :: rest => some rest
      | _ => none
    else none
  | _ => none

/-- The replacement of an entity: references to characters are replaced at once, references to
entities are kept. A percent sign may not stand in it. -/
def replacement? : Nat → List Char → Option (List Char)
  | 0, _ => none
  | _ + 1, [] => some []
  | fuel + 1, '&' :: rest => do
    match ← reference? rest with
    | (.character c, rest) => return c :: (← replacement? fuel rest)
    | (.entity name, rest) => return '&' :: name ++ ';' :: (← replacement? fuel rest)
  | fuel + 1, c :: rest => if c = '%' then none else return c :: (← replacement? fuel rest)

/-- The text that an entity's literal gives. -/
def entityText? (literal : List Char) : Option (List Char) :=
  replacement? (literal.length + 1) literal

/-- Takes an entity declaration. -/
def entityDeclaration? (d : Declarations) (skipped : Bool) :
    List Lexeme → Option Declarations
  | .percent :: .name _ false :: form =>
    match form with
    | [.literal text] => if d.listens skipped then (entityText? text).map fun _ => d else some d
    | form => match outside? form with
      | some [] => some d
      | _ => none
  | .name name false :: form =>
    match form with
    | [.literal text] =>
      if d.listens skipped then (entityText? text).map fun text => d.addEntity name (.internal text)
      else some d
    | form => match outside? form with
      | some [] => some (if d.listens skipped then d.addEntity name .external else d)
      | some [.name mark _, .name _ false] =>
        if mark = "NDATA".toList then
          some (if d.listens skipped then d.addEntity name .external else d)
        else none
      | _ => none
  | _ => none

/-- Has a notation declaration the right form? -/
def isNotation : List Lexeme → Bool
  | .name _ false :: form =>
    (match form with
     | [.name place _, .literal text] => place = "PUBLIC".toList && text.all isPublicChar
     | _ => false) || outside? form == some []
  | _ => false

/-- Are these the items of a mixed content model after its first bar or its keyword? -/
def isMixed : List Lexeme → Bool
  | [.closeParen true asterisk] => asterisk
  | .bar :: .name _ _ :: rest => isMixed rest
  | _ => false

/-- What joins the items of a group: nothing yet, commas or bars. -/
inductive Joint where
  | fresh
  | sequence
  | choice
  deriving DecidableEq, Repr

/-- Are these the items of nested groups of elements? `item` says that an item must follow, and the
groups are listed from the innermost. -/
def isGroup : Bool → List Joint → List Lexeme → Bool
  | _, [], rest => rest.isEmpty
  | true, groups, .openParen :: rest => isGroup true (.fresh :: groups) rest
  | true, groups, .name _ _ :: rest => isGroup false groups rest
  | true, groups, .repeated _ :: rest => isGroup false groups rest
  | false, _ :: groups, .closeParen _ _ :: rest => isGroup false groups rest
  | false, joint :: groups, .comma :: rest =>
    joint ≠ .choice && isGroup true (.sequence :: groups) rest
  | false, joint :: groups, .bar :: rest =>
    joint ≠ .sequence && isGroup true (.choice :: groups) rest
  | _, _, _ => false

/-- Has an element declaration the right form? -/
def isElement : List Lexeme → Bool
  | [.name _ _, .name model _] => model = "EMPTY".toList || model = "ANY".toList
  | .name _ _ :: .openParen :: .keyword word :: rest =>
    word = "PCDATA".toList && (rest == [.closeParen false false] || isMixed rest)
  | .name _ _ :: .openParen :: rest => isGroup true [.fresh] rest
  | _ => false

/-- The types of attributes that one word names. -/
def typeWords : List String :=
  ["CDATA", "ID", "IDREF", "IDREFS", "ENTITY", "ENTITIES", "NMTOKEN", "NMTOKENS"]

/-- The lexemes after a list of values in parentheses; `plain` says that the values must be names
without colon. -/
def afterChoice? (plain : Bool) : List Lexeme → Option (List Lexeme)
  | value :: mark :: rest =>
    let fits := match value with
      | .name _ qualified => !plain || !qualified
      | .nameToken _ => !plain
      | _ => false
    if !fits then none
    else match mark with
      | .closeParen false _ => some rest
      | .bar => afterChoice? plain rest
      | _ => none
  | _ => none

/-- The type of an attribute: is it character data, and what follows the type. -/
def attributeType? : List Lexeme → Option (Bool × List Lexeme)
  | .openParen :: rest => (afterChoice? false rest).map fun rest => (false, rest)
  | .name word false :: rest =>
    if word = "NOTATION".toList then
      match rest with
      | .openParen :: rest => (afterChoice? true rest).map fun rest => (false, rest)
      | _ => none
    else if typeWords.contains (String.ofList word) then some (word = "CDATA".toList, rest)
    else none
  | _ => none

/-- The default of an attribute, and what follows it. -/
def attributeDefault? : List Lexeme → Option (Option (List Char) × List Lexeme)
  | .literal text :: rest => some (some text, rest)
  | .keyword word :: rest =>
    if word = "IMPLIED".toList || word = "REQUIRED".toList then some (none, rest)
    else if word = "FIXED".toList then
      match rest with
      | .literal text :: rest => some (some text, rest)
      | _ => none
    else none
  | _ => none

/-- The attributes that an attribute list declares for an element, in order. -/
def attributeRules? (elementName : List Char) : Nat → List Lexeme → Option (List AttributeRule)
  | _, [] => some []
  | 0, _ => none
  | fuel + 1, .name attributeName _ :: rest => do
    let (isCharacterData, rest) ← attributeType? rest
    let (value, rest) ← attributeDefault? rest
    let more ← attributeRules? elementName fuel rest
    return ⟨elementName, attributeName, isCharacterData, value⟩ :: more
  | _ + 1, _ => none

/-! ## Reading -/

/-- The rule with its default as a value. -/
def AttributeRule.expand? (d : Declarations) (rule : AttributeRule) : Option AttributeRule :=
  match rule.value with
  | none => some rule
  | some literal => do
    return { rule with value := some (← attributeValue? d rule.isCharacterData literal) }

/-- Takes an attribute list declaration. -/
def attributeDeclaration? (d : Declarations) (skipped : Bool) :
    List Lexeme → Option Declarations
  | .name elementName _ :: form => do
    let rules ← attributeRules? elementName form.length form
    if d.listens skipped then return (← rules.mapM (·.expand? d)).foldl Declarations.addRule d
    else return d
  | _ => none

/-- Takes a declaration of the kind that a word names. -/
def declaration? (d : Declarations) (skipped : Bool) (word : List Char) (form : List Lexeme) :
    Option Declarations :=
  if word = "ENTITY".toList then entityDeclaration? d skipped form
  else if word = "ATTLIST".toList then attributeDeclaration? d skipped form
  else if word = "ELEMENT".toList then if isElement form then some d else none
  else if word = "NOTATION".toList then if isNotation form then some d else none
  else none

/-- The declarations up to the closing bracket, and what follows it; `skipped` says that a
reference to a parameter entity has been passed over. -/
def subset? : Nat → Declarations → Bool → List Char → Option (Declarations × List Char)
  | 0, _, _, _ => none
  | fuel + 1, d, skipped, cs =>
    match skipSpace cs with
    | ']' :: rest => some (d, rest)
    | '%' :: rest => do
      let (_, rest) ← name? rest
      subset? fuel { d with hidden := true } true (← after? [';'] rest)
    | '<' :: '?' :: rest => do subset? fuel d skipped (← skipInstruction? rest)
    | '<' :: '!' :: '-' :: '-' :: rest => do subset? fuel d skipped (← skipComment? rest)
    | '<' :: '!' :: rest => do
      let (word, rest) := rest.span fun c => c.isAlpha || c = '_'
      if !endsBefore [] rest then none
      else match ← lexemes? (rest.length + 1) rest with
        | (form, '>', rest) => subset? fuel (← declaration? d skipped word form) skipped rest
        | _ => none
    | _ => none

/-- A document type declaration after its opening: what it declares, and what follows it. -/
def doctype? (d : Declarations) (cs : List Char) : Option (Declarations × List Char) := do
  if !endsBefore [] cs then none
  else match ← lexemes? (cs.length + 1) cs with
    | (.name _ _ :: form, mark, rest) =>
      let d ← match form with
        | [] => some d
        | form => match outside? form with
          | some [] => some { d with hidden := true }
          | _ => none
      if mark = '>' then return (d, rest)
      else
        let (d, rest) ← subset? (rest.length + 1) d false rest
        return (d, ← after? ['>'] (skipSpace rest))
    | _ => none

end WireAgent.Xml
