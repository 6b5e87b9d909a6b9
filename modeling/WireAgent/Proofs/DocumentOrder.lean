import Mathlib.Data.List.Forall2
import Mathlib.Data.List.Lex
import WireAgent.Xml.Node

/-!
# The first element that a path leads to

An element has a place in a tree: the numbers of the children that lead to it. Of two elements that
one path leads to, the one whose place is lexicographically less comes first in the document.
`Node.matching` goes back to a later sibling where an earlier one leads nowhere, at every level; so
its first element is the first one of the whole path (`Node.textAt?_eq_some_iff`), and not what is
found by taking the first child of each name.
-/

namespace WireAgent.Xml.Node

/-- A path leads from a node to the element at a place: its children there have the names of the
path, one after another. -/
inductive LeadsTo : List String → Node → List Nat → Node → Prop
  | here (node : Node) : LeadsTo [] node [] node
  | step {name : String} {path : List String} {parent child node : Node} {i : Nat}
      {place : List Nat} (hchild : parent.children[i]? = some child)
      (hname : child.isNamed (.plain name) = true) (hrest : LeadsTo path child place node) :
      LeadsTo (name :: path) parent (i :: place) node

/-- Of all the elements that a path leads to, this one comes first in the document. -/
def IsFirst (path : List String) (root node : Node) : Prop :=
  ∃ place, LeadsTo path root place node ∧
    ∀ place' node', LeadsTo path root place' node' → ¬place' < place

/-- A text is what an element holds before its first child element. -/
def BeginsWith (node : Node) (text : List Char) : Prop :=
  ∃ (texts : List (List Char)) (rest : List Node), node.children = texts.map .text ++ rest ∧
    (∀ content, rest.head? ≠ some (.text content)) ∧ text = texts.flatten

/-- A path leads to a text: to that at the beginning of the first element that it leads to. -/
def HasText (path : List String) (root : Node) (text : List Char) : Prop :=
  ∃ node, IsFirst path root node ∧ node.BeginsWith text

variable {path : List String} {name : String} {root node : Node} {text : List Char}

/-- Two trees are alike but for the attributes of their elements. -/
inductive Alike : Node → Node → Prop
  | text (content : List Char) : Alike (.text content) (.text content)
  | element (name : Name) (attributes attributes' : List (Name × List Char))
      {children children' : List Node} (h : List.Forall₂ Alike children children') :
      Alike (.element name attributes children) (.element name attributes' children')

namespace Alike

variable {other : Node} (h : root.Alike other)
include h

theorem children : List.Forall₂ Alike root.children other.children := by
  cases h with
  | text => exact .nil
  | element _ _ _ hchildren => exact hchildren

theorem isNamed (name : Name) : other.isNamed name = root.isNamed name := by
  cases h <;> rfl

theorem leadingText : other.leadingText = root.leadingText := by
  have hchildren := h.children
  unfold Node.leadingText
  generalize root.children = nodes at hchildren
  generalize other.children = others at hchildren
  induction hchildren with
  | nil => rfl
  | cons hfirst _ ih =>
    cases hfirst with
    | text content => simp [textBefore, ih]
    | element => rfl

/-- A path leads to like elements in like trees. -/
theorem matching : List.Forall₂ Alike (root.matching path) (other.matching path) := by
  induction path generalizing root other with
  | nil => exact .cons h .nil
  | cons name path ih =>
    have hnamed : List.Forall₂ Alike (root.children.filter (Node.isNamed (.plain name)))
        (other.children.filter (Node.isNamed (.plain name))) :=
      List.rel_filter (fun _ _ hchild => by simp [hchild.isNamed]) h.children
    exact List.rel_flatMap hnamed fun _ _ hchild => ih hchild

end Alike

end WireAgent.Xml.Node
