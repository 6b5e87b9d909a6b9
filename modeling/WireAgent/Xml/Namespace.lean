import WireAgent.Xml.Node

/-!
# Namespaces

Attributes named `xmlns`, or with the prefix `xmlns`, bind the default namespace, or a prefix, in
their element and all it holds. A `Scope` is what is bound at a place. Two namespaces are reserved:
the one of the prefix `xml`, which no other prefix may have, and the one of `xmlns`, which nothing
may be bound to.
-/

namespace WireAgent.Xml

/-- The namespaces that prefixes are bound to, innermost first; the empty prefix is for names
without one. -/
abbrev Scope := List (List Char × List Char)

/-- The namespace of the prefix `xml`. -/
def xmlSpace : List Char := "http://www.w3.org/XML/1998/namespace".toList

/-- The namespace of the prefix `xmlns`. -/
def xmlnsSpace : List Char := "http://www.w3.org/2000/xmlns/".toList

/-- What is bound in every document. -/
def Scope.initial : Scope := [("xml".toList, xmlSpace)]

/-- The namespace of a prefix. -/
def Scope.space? (scope : Scope) (pre : List Char) : Option (List Char) :=
  (scope.find? fun binding => binding.1 == pre).map Prod.snd

/-- The prefix and the local part of a qualified name; the prefix is empty if there is none. -/
def splitName (qualified : List Char) : List Char × List Char :=
  match qualified.span (· ≠ ':') with
  | (pre, _ :: localPart) => (pre, localPart)
  | (localPart, []) => ([], localPart)

/-- The prefix that an attribute binds, if it is one that binds. -/
def boundPrefix? (qualified : List Char) : Option (List Char) :=
  if qualified = "xmlns".toList then some []
  else match splitName qualified with
    | (pre, localPart) => if pre = "xmlns".toList then some localPart else none

/-- Binds a prefix. Only the default namespace may be bound to the empty one, which unbinds it. -/
def Scope.bind? (scope : Scope) (pre space : List Char) : Option Scope :=
  if space.isEmpty && !pre.isEmpty then none
  else if pre = "xmlns".toList || space = xmlnsSpace then none
  else if decide (pre = "xml".toList) != decide (space = xmlSpace) then none
  else if space.contains '\x7d' then none
  else some ((pre, space) :: scope)

/-- The scope inside an element with these attributes. -/
def Scope.enter? (scope : Scope) : List (List Char × List Char) → Option Scope
  | [] => some scope
  | (name, value) :: attributes => do
    match boundPrefix? name with
    | some pre => (← scope.bind? pre value).enter? attributes
    | none => scope.enter? attributes

/-- The name that an element's qualified name stands for. -/
def Scope.elementName? (scope : Scope) (qualified : List Char) : Option Name :=
  match splitName qualified with
  | ([], localPart) => some ⟨(scope.space? []).getD [], localPart⟩
  | (pre, localPart) => (scope.space? pre).map fun space => ⟨space, localPart⟩

/-- The name that an attribute's qualified name stands for: without prefix, in no namespace. -/
def Scope.attributeName? (scope : Scope) (qualified : List Char) : Option Name :=
  match splitName qualified with
  | ([], localPart) => some ⟨[], localPart⟩
  | (pre, localPart) => (scope.space? pre).map fun space => ⟨space, localPart⟩

/-- The attributes of an element but those that bind, with the names they stand for. -/
def Scope.attributes? (scope : Scope) (attributes : List (List Char × List Char)) :
    Option (List (Name × List Char)) :=
  (attributes.filter fun entry => (boundPrefix? entry.1).isNone).mapM fun entry =>
    (scope.attributeName? entry.1).map fun name => (name, entry.2)

end WireAgent.Xml
