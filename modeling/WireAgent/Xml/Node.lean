/-!
# Documents as trees

A document is a tree of elements, each with a name, attributes and children, and text between them.
A name is a local part in a namespace, the empty one if it stands in none. `matching` lists the
elements that a path of local names without namespace leads to, in document order.
-/

namespace WireAgent.Xml

/-- A name in a namespace. -/
structure Name where
  space : List Char
  localPart : List Char
  deriving DecidableEq, Repr

/-- A name in no namespace. -/
def Name.plain (localPart : String) : Name := ⟨[], localPart.toList⟩

/-- An element or a text. -/
inductive Node where
  | text (content : List Char)
  | element (name : Name) (attributes : List (Name × List Char)) (children : List Node)
  deriving Repr, Inhabited

namespace Node

/-- The children of an element. -/
def children : Node → List Node
  | .text _ => []
  | .element _ _ children => children

/-- Is it an element of this name? -/
def isNamed (name : Name) : Node → Bool
  | .text _ => false
  | .element own _ _ => own == name

/-- The value of an attribute of an element. -/
def attribute? (name : Name) : Node → Option (List Char)
  | .text _ => none
  | .element _ attributes _ => (attributes.find? fun entry => entry.1 == name).map Prod.snd

/-- The elements that a path leads to, in document order. -/
def matching : List String → Node → List Node
  | [], node => [node]
  | step :: path, node =>
    (node.children.filter (isNamed (.plain step))).flatMap (matching path)

/-- The text of a list of nodes up to the first element. -/
def textBefore : List Node → List Char
  | .text content :: rest => content ++ textBefore rest
  | _ => []

/-- The text of an element before its first child element. -/
def leadingText (node : Node) : List Char := textBefore node.children

/-- The leading text of the first element that a path leads to. -/
def textAt? (path : List String) (node : Node) : Option (List Char) :=
  (node.matching path).head?.map leadingText

end Node

end WireAgent.Xml
