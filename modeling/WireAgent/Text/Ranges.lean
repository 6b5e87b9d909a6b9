/-!
# Character classes as tables of ranges

A class of characters is a table of inclusive ranges of code points, in ascending order.
`Ranges.holds` reads a table as a predicate on characters.
-/

namespace WireAgent.Text

/-- Inclusive ranges of code points, ascending. -/
abbrev Ranges := List (Nat × Nat)

namespace Ranges

/-- Does one of the ranges hold the character? -/
def holds (table : Ranges) (c : Char) : Bool :=
  table.any fun range => range.1 ≤ c.toNat && c.toNat ≤ range.2

/-- The ranges are ascending and none touches the next. -/
def isOrdered : Ranges → Bool
  | [] => true
  | [range] => range.1 ≤ range.2
  | first :: second :: rest =>
    first.1 ≤ first.2 && first.2 + 1 < second.1 && isOrdered (second :: rest)

theorem holds_iff {table : Ranges} {c : Char} :
    table.holds c = true ↔ ∃ range ∈ table, range.1 ≤ c.toNat ∧ c.toNat ≤ range.2 := by
  simp [holds]

/-- Where no range of one table meets a range of the other, no character is in both. -/
theorem holds_of_apart {r s : Ranges} (apart : ∀ a ∈ r, ∀ b ∈ s, a.2 < b.1 ∨ b.2 < a.1) {c : Char}
    (h : r.holds c = true) : s.holds c = false := by
  obtain ⟨a, ha, hlow, hhigh⟩ := holds_iff.mp h
  refine Bool.eq_false_iff.mpr fun hs => ?_
  obtain ⟨b, hb, hlow', hhigh'⟩ := holds_iff.mp hs
  have := apart a ha b hb
  omega

end Ranges

end WireAgent.Text
