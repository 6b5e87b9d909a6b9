import WireAgent.Failure.Kind

/-!
# Failures as graphs

A failure leads to others: what caused it, what was being handled when it arose, the reason it
names, and the failures among its arguments. A `Failure` is the graph of all it leads to; links may
be shared and may form cycles. `search` looks for a failure of a sort among those that are
reachable, and visits each at most once.
-/

namespace WireAgent

namespace Failure

/-- One failure of a graph, with the numbers of those it leads to. -/
structure Node where
  kind : Kind
  label : String
  text : String
  links : List Nat
  deriving DecidableEq, Repr

end Failure

/-- A failure: number 0 of a graph whose other members are numbered from 1. A number that belongs
to no member leads nowhere. -/
structure Failure where
  root : Failure.Node
  others : List Failure.Node
  deriving DecidableEq, Repr

namespace Failure

/-- The member of a number. -/
def node? (f : Failure) (i : Nat) : Option Node := (f.root :: f.others)[i]?

/-- Is a failure that `p` holds of reachable from the pending ones through unseen ones? -/
def search (f : Failure) (p : Node → Bool) (unseen : List Nat) : List Nat → Bool
  | [] => false
  | i :: pending =>
    if i ∈ unseen then
      match f.node? i with
      | none => f.search p (unseen.erase i) pending
      | some node => p node || f.search p (unseen.erase i) (node.links ++ pending)
    else f.search p unseen pending
termination_by pending => (unseen.length, pending.length)
decreasing_by
  · exact Prod.Lex.left _ _ (by
      rw [List.length_erase_of_mem ‹_›]
      exact Nat.sub_lt (List.length_pos_of_mem ‹_›) Nat.one_pos)
  · exact Prod.Lex.left _ _ (by
      rw [List.length_erase_of_mem ‹_›]
      exact Nat.sub_lt (List.length_pos_of_mem ‹_›) Nat.one_pos)
  · exact Prod.Lex.right _ (by simp)

/-- Is a failure that `p` holds of reachable? -/
def leadsTo (f : Failure) (p : Node → Bool) : Bool :=
  f.search p (List.range (f.others.length + 1)) [0]

/-- Is a failure to look a name up reachable? -/
def isNameResolution (f : Failure) : Bool := f.leadsTo fun node => node.kind.isNameResolution

end Failure

end WireAgent
