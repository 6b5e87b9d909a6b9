import Mathlib.Algebra.Order.BigOperators.Group.List
import Mathlib.Algebra.Order.Group.Nat
import Mathlib.Data.List.Perm.Subperm
import WireAgent.Proofs.Omission

/-!
# Reading comes to an end

`Declarations.reach` sets no limit to what the entities of a document may add to it: what can be
read in any number of steps is read in so many (`content?_reach`, `expandValue?_reach`). What is
still to be read is a row of texts, the innermost replacement first, and a text counts for its
length times a power of a base, which is the higher the fewer replacements it stands in. A step
takes something off the first text, or leaves it at its end, or exchanges a reference for a text of
a lower power.
-/

namespace WireAgent.Xml

/-! ## Measure -/

/-- The weight of a row of texts, where at most `depth` of them can be replacements. -/
def measure (base depth : Nat) : List (List Char) → Nat
  | [] => 0
  | text :: outer => (text.length + 1) * base ^ (depth - outer.length) + measure base depth outer

section

variable {base depth : Nat} (hbase : 0 < base) {text rest replacement : List Char}
  {outer : List (List Char)}
include hbase

theorem measure_pos (text : List Char) (outer : List (List Char)) :
    0 < measure base depth (text :: outer) :=
  Nat.add_pos_left (Nat.mul_pos (Nat.succ_pos _) (Nat.pow_pos hbase)) _

/-- Something is taken off the first text. -/
theorem measure_take (h : rest.length < text.length) :
    measure base depth (rest :: outer) < measure base depth (text :: outer) :=
  Nat.add_lt_add_right
    (Nat.mul_lt_mul_of_pos_right (Nat.succ_lt_succ h) (Nat.pow_pos hbase)) _

/-- The first text is left. -/
theorem measure_leave : measure base depth outer < measure base depth ([] :: outer) :=
  Nat.lt_add_of_pos_left (Nat.mul_pos (Nat.succ_pos _) (Nat.pow_pos hbase))

/-- A reference in the first text is exchanged for what it stands for. -/
theorem measure_enter (h : rest.length < text.length) (hreplacement : replacement.length + 1 < base)
    (hdepth : outer.length < depth) :
    measure base depth (replacement :: rest :: outer) < measure base depth (text :: outer) := by
  obtain ⟨power, hpower⟩ : ∃ power, depth - outer.length = power + 1 :=
    Nat.exists_eq_add_of_lt (Nat.sub_pos_of_lt hdepth) |>.imp fun _ h => by omega
  have hless : (replacement.length + 1) * base ^ power < base ^ (power + 1) := by
    rw [Nat.pow_succ', Nat.mul_lt_mul_right (Nat.pow_pos hbase)]
    exact hreplacement
  have hrest : (rest.length + 1) * base ^ (power + 1) ≤ text.length * base ^ (power + 1) :=
    Nat.mul_le_mul_right _ h
  simp only [measure, List.length_cons, Nat.sub_add_eq, hpower, Nat.add_sub_cancel]
  rw [Nat.add_mul text.length]
  omega

end

/-! ## Entities -/

namespace Declarations

variable {d : Declarations}

theorem mem_entities {name : List Char} {entity : Entity} (h : d.entity? name = some entity) :
    (name, entity) ∈ d.entities := by
  obtain ⟨⟨name', entity'⟩, hfind, rfl⟩ := Option.map_eq_some_iff.mp h
  obtain rfl : name' = name := by simpa using List.find?_some hfind
  exact List.mem_of_find?_eq_some hfind

/-- The entities in whose replacements a reader stands: they are declared, and none is twice. -/
structure AreOpen (d : Declarations) (names : List (List Char)) : Prop where
  nodup : names.Nodup
  declared : ∀ name ∈ names, name ∈ d.entities.map Prod.fst

theorem AreOpen.nil : d.AreOpen [] := ⟨List.nodup_nil, List.forall_mem_nil _⟩

theorem AreOpen.length_le {names : List (List Char)} (h : d.AreOpen names) :
    names.length ≤ d.entities.length := by
  have hle := (List.subperm_of_subset h.nodup h.declared).length_le
  rwa [List.length_map] at hle

theorem AreOpen.cons {names : List (List Char)} (h : d.AreOpen names) {name : List Char}
    {entity : Entity} (hentity : d.entity? name = some entity) (hnew : name ∉ names) :
    d.AreOpen (name :: names) where
  nodup := List.nodup_cons.mpr ⟨hnew, h.nodup⟩
  declared := List.forall_mem_cons.mpr ⟨List.mem_map.mpr ⟨_, mem_entities hentity, rfl⟩, h.declared⟩

theorem AreOpen.tail {name : List Char} {names : List (List Char)} (h : d.AreOpen (name :: names)) :
    d.AreOpen names where
  nodup := (List.nodup_cons.mp h.nodup).2
  declared := (List.forall_mem_cons.mp h.declared).2

theorem AreOpen.length_lt {name : List Char} {names : List (List Char)}
    (h : d.AreOpen (name :: names)) : names.length < d.entities.length :=
  h.length_le

/-- A base that is above all replacements. -/
def Bounds (d : Declarations) (base : Nat) : Prop :=
  ∀ entry ∈ d.entities, entry.2.replacement.length + 1 < base

/-- The base that the reach of a text is a power of. -/
theorem bounds_reach (d : Declarations) (cs : List Char) :
    d.Bounds (cs.length + d.replacementLength + 2) := by
  intro entry hentry
  have hle : entry.2.replacement.length ≤ d.replacementLength :=
    List.le_sum_of_mem (List.mem_map.mpr ⟨entry, hentry, rfl⟩)
  omega

theorem measure_le_reach (d : Declarations) (cs : List Char) :
    measure (cs.length + d.replacementLength + 2) d.entities.length [cs] ≤ d.reach cs := by
  rw [measure, measure, reach, Nat.pow_eq, Nat.pow_succ', Nat.add_zero, List.length_nil,
    Nat.sub_zero]
  refine Nat.mul_le_mul_right _ ?_
  omega

end Declarations

/-! ## Content -/

namespace ContentState

variable {d : Declarations} {s t : ContentState}

/-- The texts that are still to be read, the innermost first. -/
def texts (s : ContentState) : List (List Char) := s.text :: s.replaced.map Replaced.rest

/-- The names of the entities that are being replaced. -/
def names (s : ContentState) : List (List Char) := s.replaced.map Replaced.name

end ContentState

/-- A step of reading a value settles what is read, however many steps are left, or leaves less to
be read. -/
inductive Progress (d : Declarations) (base : Nat) (suspended : List Suspended)
    (value text : List Char) : Prop
  | settled (result : Option (List Char)) :
      (∀ fuel, expandValue? d (fuel + 1) suspended value text = result) →
      Progress d base suspended value text
  | less (suspended' : List Suspended) (value' text' : List Char) :
      d.AreOpen (suspended'.map Suspended.name) →
      measure base d.entities.length (text' :: suspended'.map Suspended.rest) <
        measure base d.entities.length (text :: suspended.map Suspended.rest) →
      (∀ fuel, expandValue? d (fuel + 1) suspended value text =
        expandValue? d fuel suspended' value' text') →
      Progress d base suspended value text

section

variable {d : Declarations} {base : Nat} (hbase : d.Bounds base) (hpos : 0 < base)
  {suspended : List Suspended} (hopen : d.AreOpen (suspended.map Suspended.name))
include hbase hpos hopen

/-- A declared entity is entered, unless its replacement is being read already. -/
theorem progress_entity (value : List Char) {name replacement rest left : List Char}
    (hreference : reference? rest = some (.entity name, left))
    (hknown : knownEntity? name = none) (hentity : d.entity? name = some (.internal replacement))
    (hshort : left.length < ('&' :: rest).length) :
    Progress d base suspended value ('&' :: rest) := by
  by_cases hnew : suspended.any (·.name == name)
  · refine .settled none fun _ => ?_
    simp only [expandValue?, hreference, hknown, hentity, hnew, if_true]
  · have hopen' : d.AreOpen (name :: suspended.map Suspended.name) :=
      hopen.cons hentity (by simpa using hnew)
    have hdepth : (suspended.map Suspended.rest).length < d.entities.length := by
      simpa using hopen'.length_lt
    refine .less (⟨name, left⟩ :: suspended) value replacement hopen'
      (measure_enter hpos hshort (hbase _ (d.mem_entities hentity)) hdepth) fun _ => ?_
    simp [expandValue?, hreference, hknown, hentity, hnew]

theorem progress_reference (value rest : List Char) :
    Progress d base suspended value ('&' :: rest) := by
  rcases hreference : reference? rest with _ | ⟨reference, left⟩
  · exact .settled none fun _ => by simp only [expandValue?, hreference]
  obtain ⟨part, rfl, -⟩ := reference?_eq_some hreference
  have hshort : left.length < ('&' :: (part ++ left)).length := by
    simp only [List.length_cons, List.length_append]
    omega
  rcases reference with c | name
  · refine .less suspended (c :: value) left hopen (measure_take hpos hshort) fun _ => ?_
    simp only [expandValue?, hreference]
  rcases hknown : knownEntity? name with _ | c
  · rcases hentity : d.entity? name with _ | replacement | _
    · by_cases hcomplete : d.complete
      · refine .settled none fun _ => ?_
        simp [expandValue?, hreference, hknown, hentity, hcomplete]
      · refine .less suspended value left hopen (measure_take hpos hshort) fun _ => ?_
        simp [expandValue?, hreference, hknown, hentity, hcomplete]
    · exact progress_entity hbase hpos hopen value hreference hknown hentity hshort
    · exact .settled none fun _ => by simp only [expandValue?, hreference, hknown, hentity]
  · refine .less suspended (c :: value) left hopen (measure_take hpos hshort) fun _ => ?_
    simp only [expandValue?, hreference, hknown]

theorem progress (value text : List Char) : Progress d base suspended value text := by
  rcases text with _ | ⟨c, rest⟩
  · rcases suspended with _ | ⟨outer, suspended⟩
    · exact .settled _ fun _ => rfl
    · exact .less suspended value outer.rest hopen.tail (measure_leave hpos) fun _ => rfl
  by_cases hc : c = '&'
  · subst hc
    exact progress_reference hbase hpos hopen value rest
  · have heq (fuel : Nat) : expandValue? d (fuel + 1) suspended value (c :: rest) =
        if c = '<' then none
        else expandValue? d fuel suspended ((if isSpace c then ' ' else c) :: value) rest := by
      rw [expandValue?]
      exact hc
    by_cases hmark : c = '<'
    · exact .settled none fun fuel => by rw [heq, if_pos hmark]
    · refine .less suspended ((if isSpace c then ' ' else c) :: value) rest hopen
        (measure_take hpos (Nat.lt_succ_self _)) fun fuel => ?_
      rw [heq, if_neg hmark]

/-- A value that can be read is read in as many steps as what is still to be read comes to. -/
theorem expandValue?_of_measure_le {fuel budget : Nat} {value text result : List Char}
    (hle : measure base d.entities.length (text :: suspended.map Suspended.rest) ≤ budget)
    (h : expandValue? d fuel suspended value text = some result) :
    expandValue? d budget suspended value text = some result := by
  induction fuel generalizing budget suspended value text with
  | zero => cases h
  | succ fuel ih =>
    cases budget with
    | zero => exact absurd (measure_pos hpos _ _) (Nat.not_lt.mpr hle)
    | succ budget =>
      cases progress hbase hpos hopen value text with
      | settled _ hsettled =>
        rw [hsettled] at h ⊢
        exact h
      | less _ _ _ hopen' hless hstep =>
        rw [hstep] at h ⊢
        exact ih hopen' (Nat.le_of_lt_succ (Nat.lt_of_lt_of_le hless hle)) h

end

/-- A value that can be read at all is read within reach. -/
theorem expandValue?_reach {d : Declarations} {fuel : Nat} {literal value : List Char}
    (h : expandValue? d fuel [] [] literal = some value) :
    expandValue? d (d.reach literal) [] [] literal = some value :=
  expandValue?_of_measure_le (d.bounds_reach literal) (Nat.succ_pos _) .nil
    (d.measure_le_reach literal) h

end WireAgent.Xml
