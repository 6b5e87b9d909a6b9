import WireAgent.Xml.Node

/-!
# Writing documents

The text of a tree whose names stand in no namespace. In text, `&`, `<` and `>` are written as
entities; in attribute values the double quote is too, and carriage return, line feed and tab are
written by their code points. An element without content is closed in its own tag.
-/

namespace WireAgent.Xml

/-- One character of text. -/
def encodeTextChar (c : Char) : List Char :=
  if c = '&' then ['&', 'a', 'm', 'p', ';']
  else if c = '<' then ['&', 'l', 't', ';']
  else if c = '>' then ['&', 'g', 't', ';']
  else [c]

/-- One character of an attribute value. -/
def encodeValueChar (c : Char) : List Char :=
  if c = '"' then ['&', 'q', 'u', 'o', 't', ';']
  else if c = '\r' then ['&', '#', '1', '3', ';']
  else if c = '\n' then ['&', '#', '1', '0', ';']
  else if c = '\t' then ['&', '#', '0', '9', ';']
  else encodeTextChar c

/-- A text. -/
def encodeText (cs : List Char) : List Char := cs.flatMap encodeTextChar

/-- An attribute value. -/
def encodeValue (cs : List Char) : List Char := cs.flatMap encodeValueChar

/-- An attribute, with the space in front of it. -/
def writeAttribute (name : Name) (value : List Char) : List Char :=
  ' ' :: name.localPart ++ '=' :: '"' :: encodeValue value ++ ['"']

/-- An element with its attributes and its written content. -/
def writeElement (name : Name) (attributes : List (Name × List Char)) (content : List Char) :
    List Char :=
  '<' :: name.localPart ++ attributes.flatMap (fun (name, value) => writeAttribute name value) ++
    if content.isEmpty then [' ', '/', '>']
    else '>' :: content ++ '<' :: '/' :: name.localPart ++ ['>']

mutual

/-- The text of a node. -/
def Node.write : Node → List Char
  | .text content => encodeText content
  | .element name attributes children => writeElement name attributes (writeAll children)

/-- The texts of nodes in order. -/
def writeAll : List Node → List Char
  | [] => []
  | node :: rest => node.write ++ writeAll rest

end

end WireAgent.Xml
