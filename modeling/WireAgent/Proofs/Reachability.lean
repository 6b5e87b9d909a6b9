import Mathlib.Logic.Basic
import Mathlib.Logic.Relation
import WireAgent.Failure.Graph

/-!
# The search of a failure graph

`Failure.search` keeps the members that it has not seen yet and visits each at most once. It finds
a failure of a sort exactly if one is reachable along the links (`leadsTo_iff`), also where links
are shared or form cycles.

A search with the unseen members `u` finds what can be reached by steps from members of `u`
(`search_iff`). When it visits `i`, a way through `i` still leads on from a link of `i`, and there
it needs `i` no more (`Way.erase`), so `i` may be given up.
-/

namespace WireAgent.Failure

open Relation

variable (f : Failure)

/-- One member leads to another. -/
def Leads (i j : Nat) : Prop := ∃ node, f.node? i = some node ∧ j ∈ node.links

/-- A failure that `p` holds of is reachable. -/
def Reaches (p : Node → Bool) : Prop :=
  ∃ i node, ReflTransGen f.Leads 0 i ∧ f.node? i = some node ∧ p node = true

/-- There is a way from `i` to `j` through the members `u`. -/
inductive Way (u : List Nat) : Nat → Nat → Prop
  | here {j : Nat} : j ∈ u → Way u j j
  | step {i k j : Nat} : i ∈ u → f.Leads i k → Way u k j → Way u i j

namespace Way

variable {f : Failure} {u : List Nat} {i j k : Nat}

theorem mono {v : List Nat} (h : ∀ x ∈ u, x ∈ v) (hw : f.Way u i j) : f.Way v i j := by
  induction hw with
  | here hj => exact here (h _ hj)
  | step hi hl _ ih => exact step (h _ hi) hl ih

theorem mem_first (hw : f.Way u i j) : i ∈ u := by
  cases hw with
  | here hj => exact hj
  | step hi => exact hi

theorem reachable (hw : f.Way u i j) : ReflTransGen f.Leads i j := by
  induction hw with
  | here => exact .refl
  | step _ hl _ ih => exact .head hl ih

/-- A way avoids `i`, or a way from a link of `i` does, or `i` is where it ends. -/
theorem erase (hw : f.Way u k j) (i : Nat) :
    f.Way (u.erase i) k j ∨ (∃ m, f.Leads i m ∧ f.Way (u.erase i) m j) ∨ j = i := by
  induction hw with
  | @here j hj =>
    rcases eq_or_ne j i with rfl | hne
    · exact .inr (.inr rfl)
    · exact .inl (here ((List.mem_erase_of_ne hne).mpr hj))
  | @step a k j ha hl _ ih =>
    rcases ih with hway | hrest
    · rcases eq_or_ne a i with rfl | hne
      · exact .inr (.inl ⟨k, hl, hway⟩)
      · exact .inl (step ((List.mem_erase_of_ne hne).mpr ha) hl hway)
    · exact .inr hrest

end Way

/-- The search finds what can be reached from the pending members through the unseen ones. -/
theorem search_iff (p : Node → Bool) (unseen pending : List Nat) :
    f.search p unseen pending = true ↔
      ∃ k ∈ pending, ∃ j node, f.Way unseen k j ∧ f.node? j = some node ∧ p node = true := by
  fun_induction f.search p unseen pending with
  | case1 => simp
  | case2 unseen i pending hi hnone ih =>
    rw [ih]
    constructor
    · rintro ⟨k, hk, j, node, hway, hj⟩
      exact ⟨k, List.mem_cons_of_mem _ hk, j, node,
        hway.mono fun _ => List.mem_of_mem_erase, hj⟩
    · rintro ⟨k, hk, j, node, hway, hj, hp⟩
      -- `i` belongs to no member, so that no way leads through it or ends at it
      have hji : j ≠ i := by
        rintro rfl
        simp [hnone] at hj
      have hlead : ∀ m, ¬f.Leads i m := by
        rintro m ⟨node', hn, -⟩
        simp [hnone] at hn
      have hki : k ≠ i := by
        rintro rfl
        cases hway with
        | here => exact hji rfl
        | step _ hl => exact hlead _ hl
      rcases hway.erase i with hway' | ⟨m, hm, -⟩ | rfl
      · exact ⟨k, (List.mem_cons.mp hk).resolve_left hki, j, node, hway', hj, hp⟩
      · exact absurd hm (hlead m)
      · exact absurd rfl hji
  | case3 unseen i pending hi node hnode ih =>
    rw [Bool.or_eq_true, ih]
    constructor
    · rintro (hp | ⟨k, hk, j, node', hway, hj⟩)
      · exact ⟨i, List.mem_cons_self, i, node, .here hi, hnode, hp⟩
      · have hway' := hway.mono fun _ => List.mem_of_mem_erase
        rcases List.mem_append.mp hk with hlink | hk
        · exact ⟨i, List.mem_cons_self, j, node', .step hi ⟨node, hnode, hlink⟩ hway', hj⟩
        · exact ⟨k, List.mem_cons_of_mem _ hk, j, node', hway', hj⟩
    · rintro ⟨k, hk, j, node', hway, hj, hp⟩
      rcases hway.erase i with hway' | ⟨m, ⟨node'', hn, hlink⟩, hway'⟩ | rfl
      · rcases List.mem_cons.mp hk with rfl | hk
        · -- `i` may still be unseen after this visit, but the way goes on from one of its links
          cases hway' with
          | here =>
            obtain rfl : node = node' := by simpa [hnode] using hj
            exact .inl hp
          | @step _ m _ _ hl hrest =>
            obtain ⟨node'', hn, hlink⟩ := hl
            obtain rfl : node = node'' := by simpa [hnode] using hn
            exact .inr ⟨m, List.mem_append_left _ hlink, j, node', hrest, hj, hp⟩
        · exact .inr ⟨k, List.mem_append_right _ hk, j, node', hway', hj, hp⟩
      · obtain rfl : node = node'' := by simpa [hnode] using hn
        exact .inr ⟨m, List.mem_append_left _ hlink, j, node', hway', hj, hp⟩
      · obtain rfl : node = node' := by simpa [hnode] using hj
        exact .inl hp
  | case4 unseen i pending hi ih =>
    rw [ih]
    constructor
    · rintro ⟨k, hk, hrest⟩
      exact ⟨k, List.mem_cons_of_mem _ hk, hrest⟩
    · rintro ⟨k, hk, j, node, hway, hj⟩
      rcases List.mem_cons.mp hk with rfl | hk
      · exact absurd hway.mem_first hi
      · exact ⟨k, hk, j, node, hway, hj⟩

theorem way_of_reachable {i j : Nat} (h : ReflTransGen f.Leads i j) {node : Node}
    (hj : f.node? j = some node) : f.Way (List.range (f.others.length + 1)) i j := by
  have hmem : ∀ k node, f.node? k = some node → k ∈ List.range (f.others.length + 1) := by
    intro k node hk
    have hlt := (List.getElem?_eq_some_iff.mp hk).1
    simpa using hlt
  induction h using ReflTransGen.head_induction_on with
  | refl => exact .here (hmem _ _ hj)
  | head hl _ ih =>
    obtain ⟨node', hn, hlink⟩ := hl
    exact .step (hmem _ _ hn) ⟨node', hn, hlink⟩ ih

/-- The search of a whole graph is reachability. -/
theorem leadsTo_iff (p : Node → Bool) : f.leadsTo p = true ↔ f.Reaches p := by
  rw [leadsTo, search_iff]
  constructor
  · rintro ⟨k, hk, j, node, hway, hj, hp⟩
    obtain rfl : k = 0 := by simpa using hk
    exact ⟨j, node, hway.reachable, hj, hp⟩
  · rintro ⟨j, node, hreach, hj, hp⟩
    exact ⟨0, by simp, j, node, f.way_of_reachable hreach hj, hj, hp⟩

end WireAgent.Failure
