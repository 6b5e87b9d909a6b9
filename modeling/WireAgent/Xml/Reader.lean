import WireAgent.Text.Line
import WireAgent.Xml.Doctype
import WireAgent.Xml.Namespace

/-!
# Reading documents

`read?` reads a text as an XML document with namespaces and gives the tree of its root element, or
nothing if the text is not well formed. Comments and processing instructions are dropped and the
text around them is joined; the encoding that the text declares is not looked at. Entities that the
document declares are replaced; those that stand outside it are never read.

The content of the root is read by a machine that keeps the elements that are open, innermost first,
and the entities whose replacement is being read. Each step takes a character at least or ends a
replacement, so the lengths of the document and of the replacements bound the steps.
-/

namespace WireAgent.Xml

/-! ## Tags -/

/-- The start of an element: its qualified name, the literals of its attributes, and whether it
ends at once. -/
structure StartTag where
  name : List Char
  attributes : List (List Char × List Char)
  isEmpty : Bool
  deriving DecidableEq, Repr

/-- The attributes of a tag up to its end, whether the tag ends its element, and what follows it. -/
def tagAttributes? : Nat → List Char → Option (List (List Char × List Char) × Bool × List Char)
  | 0, _ => none
  | _ + 1, '>' :: rest => some ([], false, rest)
  | _ + 1, '/' :: rest => (after? ['>'] rest).map fun rest => ([], true, rest)
  | fuel + 1, c :: rest =>
    if !isSpace c then none
    else match skipSpace rest with
      | '>' :: rest => some ([], false, rest)
      | '/' :: rest => (after? ['>'] rest).map fun rest => ([], true, rest)
      | rest => do
        let (name, rest) ← qualifiedName? rest
        let rest ← after? ['='] (skipSpace rest)
        let (literal, rest) ← quoted? (skipSpace rest)
        let (more, isEmpty, rest) ← tagAttributes? fuel rest
        return ((name, literal) :: more, isEmpty, rest)
  | _ + 1, [] => none

/-- The start tag after its opening angle bracket, and what follows it. -/
def startTag? (cs : List Char) : Option (StartTag × List Char) := do
  let (name, rest) ← qualifiedName? cs
  let (attributes, isEmpty, rest) ← tagAttributes? (rest.length + 1) rest
  return (⟨name, attributes, isEmpty⟩, rest)

/-- The text after the end tag of an element, whose opening has been read. -/
def skipEndTag? (name cs : List Char) : Option (List Char) := do
  after? ['>'] (skipSpace (← after? name cs))

/-! ## Elements -/

/-- An element whose end has not been read. `children` are listed from the last, and `run` is the
text after them, last character first. -/
structure OpenElement where
  tagName : List Char
  scope : Scope
  name : Name
  attributes : List (Name × List Char)
  children : List Node
  run : List Char

namespace OpenElement

/-- All children, the pending text included. -/
def allChildren (e : OpenElement) : List Node :=
  if e.run.isEmpty then e.children else .text e.run.reverse :: e.children

/-- The element as a node. -/
def toNode (e : OpenElement) : Node := .element e.name e.attributes e.allChildren.reverse

/-- Adds a character of text. -/
def addChar (e : OpenElement) (c : Char) : OpenElement := { e with run := c :: e.run }

/-- Adds several characters of text. -/
def addText (e : OpenElement) (cs : List Char) : OpenElement :=
  { e with run := cs.reverse ++ e.run }

/-- Adds a child. -/
def addChild (e : OpenElement) (node : Node) : OpenElement :=
  { e with children := node :: e.allChildren, run := [] }

end OpenElement

/-- The values of the attributes that a tag writes, with the defaults that are declared for it. -/
def withDefaults? (d : Declarations) (tag : StartTag) : Option (List (List Char × List Char)) := do
  let own ← tag.attributes.mapM fun (name, literal) => do
    let isCharacterData := match d.rule? tag.name name with
      | some rule => rule.isCharacterData
      | none => true
    return (name, ← attributeValue? d isCharacterData literal)
  let missing := d.rules.filterMap fun rule =>
    if rule.elementName == tag.name && !(own.any fun entry => entry.1 == rule.attributeName)
        && d.rule? tag.name rule.attributeName == some rule then
      rule.value.map fun value => (rule.attributeName, value)
    else none
  return own ++ missing

/-- Is no item in the list twice? -/
def allDistinct [BEq α] : List α → Bool
  | [] => true
  | item :: rest => !rest.contains item && allDistinct rest

/-- The element that a tag opens where `outer` is bound. No two attributes may have one name. -/
def openElement? (d : Declarations) (outer : Scope) (tag : StartTag) : Option OpenElement := do
  if !allDistinct (tag.attributes.map Prod.fst) then none
  else
    let attributes ← withDefaults? d tag
    let scope ← outer.enter? attributes
    let name ← scope.elementName? tag.name
    let attributes ← scope.attributes? attributes
    if allDistinct (attributes.map Prod.fst) then
      return ⟨tag.name, scope, name, attributes, [], []⟩
    else none

/-! ## Content -/

/-- An entity whose replacement is being read in content: its name, the text that follows the
reference, and the number of elements that were open before it. -/
structure Replaced where
  name : List Char
  rest : List Char
  depth : Nat
  deriving DecidableEq, Repr

/-- The reader of the content of the root: the elements that are open inside `element`, from the
innermost, the entities being replaced, and the text to come. -/
structure ContentState where
  element : OpenElement
  outer : List OpenElement
  replaced : List Replaced
  text : List Char

/-- What a step leads to: more content, or the end of the root element. -/
inductive ContentStep where
  | more (state : ContentState)
  | done (root : Node) (rest : List Char)

namespace ContentState

/-- Adds a character of text and goes on at `rest`. -/
def takeChar (s : ContentState) (c : Char) (rest : List Char) : ContentState :=
  { s with element := s.element.addChar c, text := rest }

/-- Was the innermost element opened before the innermost entity being replaced? Then it must not be
closed inside it. -/
def isAtFloor (s : ContentState) : Bool :=
  match s.replaced with
  | [] => false
  | entry :: _ => entry.depth == s.outer.length

/-- Closes the innermost element and goes on at `rest`. -/
def close? (s : ContentState) (rest : List Char) : Option ContentStep :=
  if s.isAtFloor then none
  else match s.outer with
    | [] => some (.done s.element.toNode rest)
    | parent :: outer =>
      some (.more
        { s with element := parent.addChild s.element.toNode, outer := outer, text := rest })

/-- Opens the element of a tag, or adds it if it ends at once. -/
def open? (d : Declarations) (s : ContentState) (tag : StartTag) (rest : List Char) :
    Option ContentStep := do
  let element ← openElement? d s.element.scope tag
  if tag.isEmpty then
    return .more { s with element := s.element.addChild element.toNode, text := rest }
  else return .more { s with element := element, outer := s.element :: s.outer, text := rest }

/-- Reads a reference. -/
def refer? (d : Declarations) (s : ContentState) (rest : List Char) : Option ContentStep := do
  match ← reference? rest with
  | (.character c, rest) => return .more (s.takeChar c rest)
  | (.entity name, rest) =>
    match knownEntity? name, d.entity? name with
    | some c, _ => return .more (s.takeChar c rest)
    | none, some (.internal replacement) =>
      if s.replaced.any (·.name == name) then none
      else
        let entry := ⟨name, rest, s.outer.length⟩
        return .more { s with replaced := entry :: s.replaced, text := replacement }
    | none, _ => none

/-- One step. -/
def step? (d : Declarations) (s : ContentState) : Option ContentStep :=
  match s.text with
  | [] =>
    match s.replaced with
    | [] => none
    | entry :: replaced =>
      if entry.depth = s.outer.length then
        some (.more { s with replaced := replaced, text := entry.rest })
      else none
  | '<' :: '/' :: rest => do s.close? (← skipEndTag? s.element.tagName rest)
  | '<' :: '?' :: rest => (skipInstruction? rest).map fun rest => .more { s with text := rest }
  | '<' :: '!' :: '-' :: '-' :: rest =>
    (skipComment? rest).map fun rest => .more { s with text := rest }
  | '<' :: '!' :: rest => do
    let (text, rest) ← until? [']', ']', '>'] (← after? "[CDATA[".toList rest)
    return .more { s with element := s.element.addText text, text := rest }
  | '<' :: rest => do
    let (tag, rest) ← startTag? rest
    s.open? d tag rest
  | '&' :: rest => s.refer? d rest
  | ']' :: ']' :: '>' :: _ => none
  | c :: rest => some (.more (s.takeChar c rest))

end ContentState

/-- Reads content up to the end of the root element: the root, and what follows it. -/
def content? (d : Declarations) : Nat → ContentState → Option (Node × List Char)
  | 0, _ => none
  | fuel + 1, s =>
    match s.step? d with
    | none => none
    | some (.done root rest) => some (root, rest)
    | some (.more s) => content? d fuel s

/-- The root element after its opening angle bracket, and what follows it. -/
def root? (d : Declarations) (cs : List Char) : Option (Node × List Char) := do
  let (tag, rest) ← startTag? cs
  let element ← openElement? d Scope.initial tag
  if tag.isEmpty then return (element.toNode, rest)
  else content? d (d.reach rest) ⟨element, [], [], rest⟩

/-! ## Around the root -/

/-- A character of the values in an XML declaration. -/
def isDeclaredChar (c : Char) : Bool := c.isAlphanum || c = '.' || c = '-' || c = '_'

/-- The next item of an XML declaration, which white space must set off: its name and value, and
what follows it. Nothing but white space may be left where there is none. -/
def declaredItem? (cs : List Char) : Option (Option (List Char × List Char) × List Char) :=
  match cs with
  | [] => some (none, [])
  | c :: rest =>
    if !isSpace c then none
    else match skipSpace rest with
      | [] => some (none, [])
      | rest => do
        let (name, rest) := rest.span fun c => !isSpace c && c ≠ '='
        let rest ← after? ['='] (skipSpace rest)
        let (value, rest) ← quoted? (skipSpace rest)
        if name.isEmpty || !value.all isDeclaredChar then none
        else return (some (name, value), rest)

/-- Does an XML declaration say that the document stands alone? The items are a version, an
encoding and that statement, of which the last two may be missing. -/
def standsAlone? (cs : List Char) : Option Bool := do
  let (version, rest) ← declaredItem? cs
  if version.map Prod.fst ≠ some "version".toList then none
  else
    let (item, rest) ← declaredItem? rest
    let (item, rest) ← match item with
      | some (name, value) =>
        if name = "encoding".toList then
          if (value.head?.map Char.isAlpha).getD false then declaredItem? rest else none
        else some (item, rest)
      | none => some (none, rest)
    match item with
    | none => return false
    | some (name, value) =>
      if name ≠ "standalone".toList || !rest.all isSpace then none
      else if value = "yes".toList then return true
      else if value = "no".toList then return false
      else none

/-- The declarations that an XML declaration at the head of a document makes, and what follows. -/
def opening? (cs : List Char) : Option (Declarations × List Char) :=
  match after? "<?xml".toList cs with
  | some (c :: rest) =>
    if isNameChar c || c = ':' then some (({} : Declarations), cs)
    else do
      let (items, rest) ← until? ['?', '>'] (c :: rest)
      let alone ← standsAlone? items
      return ({ standalone := alone }, rest)
  | _ => some (({} : Declarations), cs)

/-- What stands before the root element: the declarations, and the text from the name of the root. A
document type declaration may stand there once. -/
def prolog? : Nat → Bool → Declarations → List Char → Option (Declarations × List Char)
  | 0, _, _, _ => none
  | fuel + 1, typed, d, cs =>
    match skipSpace cs with
    | '<' :: '?' :: rest => do prolog? fuel typed d (← skipInstruction? rest)
    | '<' :: '!' :: '-' :: '-' :: rest => do prolog? fuel typed d (← skipComment? rest)
    | '<' :: '!' :: rest => do
      if typed then none
      else
        let (d, rest) ← doctype? d (← after? "DOCTYPE".toList rest)
        prolog? fuel true d rest
    | '<' :: rest => some (d, rest)
    | _ => none

/-- Does nothing but white space, comments and processing instructions follow the root? -/
def isEpilog : Nat → List Char → Bool
  | 0, _ => false
  | fuel + 1, cs =>
    match skipSpace cs with
    | [] => true
    | '<' :: '?' :: rest => match skipInstruction? rest with
      | some rest => isEpilog fuel rest
      | none => false
    | '<' :: '!' :: '-' :: '-' :: rest => match skipComment? rest with
      | some rest => isEpilog fuel rest
      | none => false
    | _ => false

/-- The text after a byte order mark, if one stands first. -/
def skipMark : List Char → List Char
  | '\ufeff' :: rest => rest
  | cs => cs

/-- The root of the document that a text holds. -/
def read? (text : List Char) : Option Node := do
  let cs := Text.unifyBreaks (skipMark text)
  if !cs.all isLegal then none
  else
    let (d, rest) ← opening? cs
    let (d, rest) ← prolog? (rest.length + 1) false d rest
    let (root, rest) ← root? d rest
    if isEpilog (rest.length + 1) rest then return root else none

end WireAgent.Xml
