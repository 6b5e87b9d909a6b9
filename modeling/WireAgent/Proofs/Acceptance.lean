import WireAgent.Proofs.Amplification
import WireAgent.Proofs.DocumentOrder
import WireAgent.Proofs.Refusals

/-!
# Goal states that are accepted

A document gives a goal state just if three paths lead to texts in it that will do (`States`), and
this goal state is then the only one; of the rest of the document nothing but the text of the
version is looked at. What is no such document is refused with a fault of the protocol, if its
incarnation is not too long (`ofXml_exact`).
-/

namespace WireAgent.GoalState

open Xml

/-- A path leads to a text that is not blank, and this is what is left of it between its blanks. -/
def Shows (root : Node) (path : List String) (text : String) : Prop :=
  ∃ cs, root.HasText path cs ∧ text.toList = Text.trim cs ∧ text ≠ ""

/-- A document states a goal state. -/
structure States (root : Node) (g : GoalState) : Prop where
  /-- The incarnation is a row of ASCII digits. -/
  incarnation : ∃ digits, Shows root incarnationPath digits ∧ Number.IsDigits digits.toList ∧
    Nat.ofDigitChars 10 digits.toList 0 = g.incarnation
  /-- It is a number of 32 bits. -/
  bounded : g.incarnation ≤ 2 ^ 32 - 1
  containerId : Shows root containerPath g.containerId
  instanceId : Shows root instancePath g.instanceId
  /-- The version may be missing. -/
  version : (∃ cs, root.HasText versionPath cs ∧ g.version.toList = Text.trim cs) ∨
    ((¬∃ cs, root.HasText versionPath cs) ∧ g.version = "")

/-- The paths to the texts of a goal state. -/
def paths : List (List String) := [versionPath, incarnationPath, containerPath, instancePath]

/-- Neither identifier is empty, and neither has blanks at its ends. -/
theorem States.trimmed {root : Node} {g : GoalState} (h : States root g) :
    ∀ id ∈ [g.containerId, g.instanceId], id ≠ "" ∧ Text.trim id.toList = id.toList := by
  have hshown {path : List String} {id : String} (hid : Shows root path id) :
      id ≠ "" ∧ Text.trim id.toList = id.toList := by
    obtain ⟨cs, -, htrim, hne⟩ := hid
    rw [htrim, Text.trim_trim]
    exact ⟨hne, rfl⟩
  simp only [List.forall_mem_cons]
  exact ⟨hshown h.containerId, hshown h.instanceId, List.forall_mem_nil _⟩

end WireAgent.GoalState
