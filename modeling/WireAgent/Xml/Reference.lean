import WireAgent.Text.Digit
import WireAgent.Xml.Name

/-!
# References

A reference stands for a character by its code point, in decimal or hexadecimal digits, or for an
entity by its name. Five entities are known to every document and stand for one character each.
-/

namespace WireAgent.Xml

/-- What a reference names. -/
inductive Reference where
  | character (c : Char)
  | entity (name : List Char)
  deriving DecidableEq, Repr

/-- The number that digits of a base denote; none without digits or if one is none of the base. -/
def numberIn? (base : Nat) : List Char → Option Nat
  | [] => none
  | cs => cs.foldl (fun value c => do
      let worth ← Text.hexDigit? c
      if worth < base then return base * (← value) + worth else none) (some 0)

/-- The legal character of a code point. -/
def character? (code : Nat) : Option Char :=
  if code.isValidChar ∧ isLegal (Char.ofNat code) then some (Char.ofNat code) else none

/-- The reference after an ampersand, and what follows its semicolon. -/
def reference? : List Char → Option (Reference × List Char)
  | '#' :: 'x' :: rest => do
    let (digits, rest) ← until? [';'] rest
    return (.character (← character? (← numberIn? 16 digits)), rest)
  | '#' :: rest => do
    let (digits, rest) ← until? [';'] rest
    return (.character (← character? (← numberIn? 10 digits)), rest)
  | cs => do
    let (name, rest) ← name? cs
    return (.entity name, ← after? [';'] rest)

/-- The character of an entity that every document knows. -/
def knownEntity? (name : List Char) : Option Char :=
  if name = ['l', 't'] then some '<'
  else if name = ['g', 't'] then some '>'
  else if name = ['a', 'm', 'p'] then some '&'
  else if name = ['q', 'u', 'o', 't'] then some '"'
  else if name = ['a', 'p', 'o', 's'] then some '\''
  else none

end WireAgent.Xml
