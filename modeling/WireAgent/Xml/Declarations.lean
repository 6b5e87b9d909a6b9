import WireAgent.Xml.Reference

/-!
# Declarations

What a document keeps of its document type declaration: for each name the first entity declared,
and for each attribute of an element the first rule declared. An attribute rule says whether white
space in the value is kept as it stands, and may give a default.
-/

namespace WireAgent.Xml

/-- What a declared entity stands for. -/
inductive Entity where
  /-- A text of the document itself. -/
  | internal (replacement : List Char)
  /-- Something outside the document, which is never read. -/
  | external
  deriving DecidableEq, Repr

/-- The text that an entity is replaced with. -/
def Entity.replacement : Entity → List Char
  | .internal replacement => replacement
  | .external => []

/-- A declared attribute of an element; without `value` it has no default. -/
structure AttributeRule where
  elementName : List Char
  attributeName : List Char
  isCharacterData : Bool
  value : Option (List Char)
  deriving DecidableEq, Repr

/-- What the declarations of a document say. -/
structure Declarations where
  entities : List (List Char × Entity) := []
  rules : List AttributeRule := []
  /-- May declarations stand outside the document? -/
  hidden : Bool := false
  /-- Does the document say that nothing outside it matters? -/
  standalone : Bool := false
  deriving DecidableEq, Repr

namespace Declarations

/-- The entity of a name. -/
def entity? (d : Declarations) (name : List Char) : Option Entity :=
  (d.entities.find? fun entry => entry.1 == name).map Prod.snd

/-- The rule of an attribute of an element. -/
def rule? (d : Declarations) (elementName attributeName : List Char) : Option AttributeRule :=
  d.rules.find? fun rule => rule.elementName == elementName && rule.attributeName == attributeName

/-- Must every entity that is referred to be declared? -/
def complete (d : Declarations) : Bool := !d.hidden || d.standalone

/-- Are declarations still taken, although an earlier one stands outside the document? -/
def listens (d : Declarations) (skipped : Bool) : Bool := !skipped || d.standalone

/-- Adds an entity unless its name is taken or known to every document. -/
def addEntity (d : Declarations) (name : List Char) (entity : Entity) : Declarations :=
  if (knownEntity? name).isSome || (d.entity? name).isSome then d
  else { d with entities := d.entities ++ [(name, entity)] }

/-- Adds a rule unless its attribute has one. -/
def addRule (d : Declarations) (rule : AttributeRule) : Declarations :=
  if (d.rule? rule.elementName rule.attributeName).isSome then d
  else { d with rules := d.rules ++ [rule] }

/-- The length of all replacements together. -/
def replacementLength (d : Declarations) : Nat :=
  (d.entities.map fun entry => entry.2.replacement.length).foldr (· + ·) 0

/-- More steps than it takes to read a text and the replacements of its entities. No replacement may
come up inside itself, so they are nested no deeper than there are entities. -/
def reach (d : Declarations) (cs : List Char) : Nat :=
  Nat.pow (cs.length + d.replacementLength + 2) (d.entities.length + 1)

theorem length_lt_reach (d : Declarations) (cs : List Char) : cs.length < d.reach cs := by
  have hlength : cs.length < cs.length + d.replacementLength + 2 := by omega
  exact Nat.lt_of_lt_of_le hlength (Nat.le_pow (Nat.succ_pos _))

end Declarations

end WireAgent.Xml
