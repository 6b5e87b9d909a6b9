import WireAgent.Xml.Declarations

/-!
# Attribute values

The value of an attribute is its literal with white space written as spaces and with references
replaced. The replacement of an entity is read like the literal itself; an entity may not stand for
itself, and no `<` may come up. If the attribute is not plain character data, spaces at its ends are
dropped and runs of spaces count as one.
-/

namespace WireAgent.Xml

/-- An entity whose replacement is being read: its name, and the text that follows the reference. -/
structure Suspended where
  name : List Char
  rest : List Char
  deriving DecidableEq, Repr

/-- Reads a literal to its end, given what has been read so far, last first. -/
def expandValue? (d : Declarations) :
    Nat → List Suspended → List Char → List Char → Option (List Char)
  | 0, _, _, _ => none
  | _ + 1, [], value, [] => some value.reverse
  | fuel + 1, outer :: suspended, value, [] => expandValue? d fuel suspended value outer.rest
  | fuel + 1, suspended, value, '&' :: rest =>
    match reference? rest with
    | none => none
    | some (.character c, rest) => expandValue? d fuel suspended (c :: value) rest
    | some (.entity name, rest) =>
      match knownEntity? name, d.entity? name with
      | some c, _ => expandValue? d fuel suspended (c :: value) rest
      | none, some (.internal replacement) =>
        if suspended.any (·.name == name) then none
        else expandValue? d fuel (⟨name, rest⟩ :: suspended) value replacement
      | none, some .external => none
      | none, none => if d.complete then none else expandValue? d fuel suspended value rest
  | fuel + 1, suspended, value, c :: rest =>
    if c = '<' then none
    else expandValue? d fuel suspended ((if isSpace c then ' ' else c) :: value) rest

/-- A value without spaces at its ends and with single spaces inside. -/
def collapseSpaces (value : List Char) : List Char :=
  List.intercalate [' '] ((value.splitOn ' ').filter fun part => !part.isEmpty)

/-- The value of an attribute's literal. -/
def attributeValue? (d : Declarations) (isCharacterData : Bool) (literal : List Char) :
    Option (List Char) :=
  (expandValue? d (d.reach literal) [] [] literal).map fun value =>
    if isCharacterData then value else collapseSpaces value

end WireAgent.Xml
