import WireAgent.Proofs.Figures
import WireAgent.Proofs.Rounding

/-!
# The used share of memory

The usage of memory is a percentage, and zero unless both the total and the available memory are
given, but for two defects (`Host.memoryUsage_percentage`). A text without a line for the available
memory counts as one with nothing available, which makes the usage full. An available figure that is
negative, or more than the total, is not refused, and the usage then lies beyond the other end.
-/

namespace WireAgent

namespace Number.Binary64

variable {x : Binary64} {r q : ℚ} {j : ℤ}

/-- What a share leaves, as a percentage with one digit after the point. -/
def restPercentage (share : Binary64) : Binary64 :=
  (((ofInt 1).sub share).mul (ofInt 100)).roundTo 1

/-- Is a share a double, and is what it leaves one, as a number and as a percentage? -/
structure IsExactShare (r : ℚ) : Prop where
  share : IsDouble r
  rest : IsDouble (1 - r)
  percentage : IsDouble ((1 - r) * 100)

/-- The small multiples of a 1024th are exact shares. -/
theorem isExactShare_of_mul_eq {n : ℤ} (hn : n.natAbs < 2 ^ 40) (h : r * 2 ^ 10 = n) :
    IsExactShare r := by
  refine ⟨isDouble_of_mul_eq 10 (by omega) (by decide) h,
    isDouble_of_mul_eq (n := 1024 - n) 10 (by omega) (by decide) ?_,
    isDouble_of_mul_eq (n := (1024 - n) * 100) 10 (by omega) (by decide) ?_⟩
  · push_cast
    linarith
  · push_cast
    linarith

theorem isDouble_zero : IsDouble 0 :=
  isDouble_of_mul_eq (n := 0) 0 (by decide) (by decide) (by norm_num)

theorem isDouble_one : IsDouble 1 :=
  isDouble_of_mul_eq (n := 1) 0 (by decide) (by decide) (by norm_num)

theorem isDouble_hundred : IsDouble 100 :=
  isDouble_of_mul_eq (n := 100) 0 (by decide) (by decide) (by norm_num)

theorem one_isRounded : (ofInt 1).IsRounded 1 := by
  simpa using ofInt_isRounded 1

theorem hundred_isRounded : (ofInt 100).IsRounded 100 := by
  simpa using ofInt_isRounded 100

section

variable (hr : IsExactShare r) (hq : IsDouble q)

include hr hq

/-- A share that is not below a number leaves at most what the number leaves. -/
theorem restPercentage_atMost (hx : x.AtLeast r) (hround : (1 - r) * 100 * 10 < j + 1 / 2)
    (hj : (j : ℚ) ≤ q * 10) : x.restPercentage.AtMost q := by
  have hone := one_isRounded.atMost isDouble_one le_rfl
  have hrest := sub_atMost hone hx hr.rest
  have hpercentage :=
    mul_atMost hundred_isRounded isDouble_hundred (by norm_num) hr.percentage hrest
  exact roundTo_atMost hq hpercentage (by simpa using hround) (by simpa using hj)

theorem restPercentage_atLeast (hx : x.AtMost r) (hround : j - 1 / 2 < (1 - r) * 100 * 10)
    (hj : q * 10 ≤ j) : x.restPercentage.AtLeast q := by
  have hone := one_isRounded.atLeast isDouble_one le_rfl
  have hrest := sub_atLeast hone hx hr.rest
  have hpercentage :=
    mul_atLeast hundred_isRounded isDouble_hundred (by norm_num) hr.percentage hrest
  exact roundTo_atLeast hq hpercentage (by simpa using hround) (by simpa using hj)

end

end Number.Binary64

namespace Host

open Number Binary64

/-! ## Figures in the range and beyond it -/

namespace Memory

variable {memory : Memory}

/-- The available share of memory, as a double. -/
def share (memory : Memory) : Binary64 :=
  nearest (decide (memory.available < 0)) memory.available.natAbs memory.total.natAbs

theorem figure_eq (htotal : 0 < memory.total) : memory.figure = memory.share.restPercentage :=
  if_neg (not_le.mpr htotal)

/-- With some memory, the share is the quotient of the figures, rounded. -/
theorem share_isRounded (htotal : 0 < memory.total) :
    memory.share.IsRounded (memory.available / memory.total) := by
  have h := nearest_isRounded (decide (memory.available < 0)) memory.available.natAbs
    (Int.natAbs_ne_zero.mpr htotal.ne')
  rwa [signed_natAbs, Nat.cast_natAbs, abs_of_pos htotal] at h

section

variable {r q : ℚ} {j : ℤ} (htotal : 0 < memory.total) (hr : IsExactShare r) (hq : IsDouble q)

include htotal hr hq

theorem figure_atMost (h : r * memory.total ≤ memory.available)
    (hround : (1 - r) * 100 * 10 < j + 1 / 2) (hj : (j : ℚ) ≤ q * 10) :
    memory.figure.AtMost q := by
  have hshare : r ≤ memory.available / memory.total := by
    rwa [le_div_iff₀ (by exact_mod_cast htotal)]
  rw [figure_eq htotal]
  exact restPercentage_atMost hr hq ((share_isRounded htotal).atLeast hr.share hshare) hround hj

theorem figure_atLeast (h : memory.available ≤ r * memory.total)
    (hround : j - 1 / 2 < (1 - r) * 100 * 10) (hj : q * 10 ≤ j) :
    memory.figure.AtLeast q := by
  have hshare : (memory.available : ℚ) / memory.total ≤ r := by
    rwa [div_le_iff₀ (by exact_mod_cast htotal)]
  rw [figure_eq htotal]
  exact restPercentage_atLeast hr hq ((share_isRounded htotal).atMost hr.share hshare) hround hj

end

theorem isExactShare_zero : IsExactShare 0 :=
  isExactShare_of_mul_eq (n := 0) (by decide) (by norm_num)

theorem isExactShare_one : IsExactShare 1 :=
  isExactShare_of_mul_eq (n := 1024) (by decide) (by norm_num)

section

variable (htotal : 0 < memory.total)

include htotal

theorem figure_atMost_hundred (h : 0 ≤ memory.available) : memory.figure.AtMost 100 := by
  refine figure_atMost (j := 1000) htotal isExactShare_zero isDouble_hundred ?_ (by norm_num)
    (by norm_num)
  rw [zero_mul]
  exact_mod_cast h

theorem figure_atLeast_zero (h : memory.available ≤ memory.total) : memory.figure.AtLeast 0 := by
  refine figure_atLeast (j := 0) htotal isExactShare_one isDouble_zero ?_ (by norm_num)
    (by norm_num)
  rw [one_mul]
  exact_mod_cast h

/-- More available memory than there is makes the usage no more than zero. -/
theorem figure_atMost_zero (h : memory.total ≤ memory.available) : memory.figure.AtMost 0 := by
  refine figure_atMost (j := 0) htotal isExactShare_one isDouble_zero ?_ (by norm_num)
    (by norm_num)
  rw [one_mul]
  exact_mod_cast h

/-- A negative available figure makes the usage no less than full. -/
theorem figure_atLeast_hundred (h : memory.available ≤ 0) : memory.figure.AtLeast 100 := by
  refine figure_atLeast (j := 1000) htotal isExactShare_zero isDouble_hundred ?_ (by norm_num)
    (by norm_num)
  rw [zero_mul]
  exact_mod_cast h

/-- An excess of a thousandth is more than rounding hides. -/
theorem figure_not_atLeast_zero (h : memory.total * 1001 ≤ memory.available * 1000) :
    ¬memory.figure.AtLeast 0 := by
  have hshare : (1 + 1 / 1024 : ℚ) * memory.total ≤ memory.available := by
    have hcast : (memory.total * 1001 : ℚ) ≤ memory.available * 1000 := by exact_mod_cast h
    have hpos : (0 : ℚ) < memory.total := by exact_mod_cast htotal
    linarith
  have hbelow : memory.figure.AtMost (-1 / 16) := by
    refine figure_atMost (j := -1) htotal
      (isExactShare_of_mul_eq (n := 1025) (by decide) (by norm_num))
      (isDouble_of_mul_eq (n := -1) 4 (by decide) (by decide) (by norm_num)) hshare (by norm_num)
      (by norm_num)
  exact hbelow.not_atLeast (by norm_num)

theorem figure_not_atMost_hundred (h : memory.total ≤ memory.available * -1000) :
    ¬memory.figure.AtMost 100 := by
  have hshare : (memory.available : ℚ) ≤ (-1 / 1024) * memory.total := by
    have hcast : (memory.total : ℚ) ≤ memory.available * -1000 := by exact_mod_cast h
    have hpos : (0 : ℚ) < memory.total := by exact_mod_cast htotal
    linarith
  have habove : memory.figure.AtLeast (100 + 1 / 16) := by
    refine figure_atLeast (j := 1001) htotal
      (isExactShare_of_mul_eq (n := -1) (by decide) (by norm_num))
      (isDouble_of_mul_eq (n := 1601) 4 (by decide) (by decide) (by norm_num)) hshare (by norm_num)
      (by norm_num)
  exact fun hfull => hfull.not_atLeast (by norm_num) habove

end

end Memory

/-! ## The usage in a text -/

/-- The integers on the lines with a mark, in their order. -/
def figuresOn (mark : List Char) (lines : List (List Char)) : List Int :=
  (lines.filter mark.isPrefixOf).filterMap figure?

variable {lines : List (List Char)} {text : List Char}

theorem lastFigure_eq (mark : List Char) (lines : List (List Char)) (otherwise : Int) :
    lastFigure mark lines otherwise = (figuresOn mark lines).getLast?.getD otherwise :=
  rfl

/-- A positive last figure is among the figures. -/
theorem exists_figure {mark : List Char} (h : 0 < lastFigure mark lines 0) :
    ∃ n ∈ figuresOn mark lines, 0 < n := by
  rw [lastFigure_eq] at h
  rcases hlast : (figuresOn mark lines).getLast? with _ | n
  · rw [hlast] at h
    exact absurd h (lt_irrefl 0)
  · rw [hlast] at h
    exact ⟨n, List.mem_of_getLast? hlast, h⟩

/-- Legible lines have no figure for the available memory only if none of them is for it. -/
theorem figuresOn_eq_nil_iff (hlegible : ∀ line ∈ lines, IsLegible line) :
    figuresOn availableMark lines = [] ↔ ∀ line ∈ lines, ¬availableMark <+: line := by
  simp only [figuresOn, List.filterMap_eq_nil_iff, List.mem_filter, and_imp]
  constructor
  · intro hnone line hline hmark
    have hmark' := List.isPrefixOf_iff_prefix.mpr hmark
    have hfigure := hlegible line hline (.inr hmark')
    rw [hnone line hline hmark'] at hfigure
    cases hfigure
  · intro hunmarked line hline hmark
    exact absurd (List.isPrefixOf_iff_prefix.mp hmark) (hunmarked line hline)

theorem Memory.read?_eq_some_iff {memory : Memory} :
    Memory.read? text = some memory ↔
      (∀ line ∈ Text.splitLines text, IsLegible line) ∧
        ⟨lastFigure totalMark (Text.splitLines text) 0,
          lastFigure availableMark (Text.splitLines text) 0⟩ = memory := by
  unfold Memory.read?
  split_ifs with hlegible
  · rw [Option.some.injEq, and_iff_right hlegible]
  · simp [hlegible]

/-- The usage that is read from a text is the figure of what stands in it. -/
theorem usage_eq {w : World} (htext : textOf? w.machine.meminfo = some text) {usage : Binary64}
    (h : (memoryUsage w).1 = .ok usage) :
    usage = ((Memory.read? text).map Memory.figure).getD (.zero false) := by
  have hread : memory? w.machine = Memory.read? text := by
    rw [memory?, htext, Option.bind_some]
  rw [memoryUsage_result, if_neg (not_isGarbled htext), hread] at h
  split_ifs at h
  exact (Except.ok.inj h).symm

/-- Is the available memory a part of the total, if there is any? -/
def Memory.IsPlausible (memory : Memory) : Prop :=
  0 < memory.total → 0 ≤ memory.available ∧ memory.available ≤ memory.total

instance (memory : Memory) : Decidable memory.IsPlausible :=
  inferInstanceAs (Decidable (_ → _))

theorem Memory.IsPlausible.figure {memory : Memory} (h : memory.IsPlausible) :
    memory.figure.AtLeast 0 ∧ memory.figure.AtMost 100 := by
  by_cases htotal : 0 < memory.total
  · obtain ⟨hlow, hhigh⟩ := h htotal
    exact ⟨figure_atLeast_zero htotal hhigh, figure_atMost_hundred htotal hlow⟩
  · rw [Memory.figure, if_pos (not_lt.mp htotal)]
    exact ⟨zero_atLeast _ le_rfl, zero_atMost _ (by norm_num)⟩

/-- Nothing available is full usage. -/
theorem figure_unavailable {memory : Memory} (htotal : 0 < memory.total)
    (h : memory.available = 0) : memory.figure = .ofInt 100 := by
  have hshare : memory.share = .zero false := by
    rw [Memory.share, h]
    rfl
  rw [Memory.figure_eq htotal, hshare]
  decide +kernel

/-- The usage of memory that is read from a text is zero if the text does not give both a positive
total and an available figure, unless it has no line for the available memory at all: then any
positive total counts as used up. It lies between 0 and 100 if the available memory, as last given,
is not negative and not more than the total; and if it is, the usage is on the far side of 0 or 100,
and beyond it from an excess of a thousandth on. -/
theorem memoryUsage_percentage {w : World} (htext : textOf? w.machine.meminfo = some text)
    {usage : Binary64} (h : (memoryUsage w).1 = .ok usage) :
    let lines := Text.splitLines text
    (¬((∃ total ∈ figuresOn totalMark lines, 0 < total) ∧ figuresOn availableMark lines ≠ []) →
        usage =
          if (∃ memory ∈ Memory.read? text, 0 < memory.total) ∧
              ∀ line ∈ lines, ¬availableMark <+: line
          then .ofInt 100 else .zero false) ∧
      ((∀ memory ∈ Memory.read? text, memory.IsPlausible) →
        usage.AtLeast 0 ∧ usage.AtMost 100) ∧
      ∀ memory ∈ Memory.read? text, 0 < memory.total →
        (memory.total < memory.available → usage.AtMost 0) ∧
          (memory.total * 1001 ≤ memory.available * 1000 → ¬usage.AtLeast 0) ∧
          (memory.available < 0 → usage.AtLeast 100) ∧
          (memory.total ≤ memory.available * -1000 → ¬usage.AtMost 100) := by
  intro lines
  have husage := usage_eq htext h
  rcases hread : Memory.read? text with _ | memory
  · -- A line that is not legible ends the reading.
    obtain rfl : usage = .zero false := by
      rw [husage, hread]
      rfl
    refine ⟨fun _ => ?_, fun _ => ?_, fun _ hmemory => by cases hmemory⟩
    · rw [if_neg]
      rintro ⟨⟨_, hmemory, -⟩, -⟩
      cases hmemory
    · exact ⟨zero_atLeast _ le_rfl, zero_atMost _ (by norm_num)⟩
  · obtain rfl : usage = memory.figure := by
      rw [husage, hread]
      rfl
    obtain ⟨hlegible, hmemory⟩ := Memory.read?_eq_some_iff.mp hread
    simp only [Option.mem_def, Option.some.injEq, forall_eq', exists_eq_left']
    refine ⟨fun hmissing => ?_, Memory.IsPlausible.figure, fun htotal => ⟨?_, ?_, ?_, ?_⟩⟩
    · by_cases htotal : 0 < memory.total
      · -- The total is given, so that no line gives the available memory.
        have hfigure : ∃ total ∈ figuresOn totalMark lines, 0 < total :=
          exists_figure (by rwa [← hmemory] at htotal)
        have hnone : figuresOn availableMark lines = [] := by
          by_contra hsome
          exact hmissing ⟨hfigure, hsome⟩
        have havailable : memory.available = 0 := by
          rw [← hmemory]
          show (figuresOn availableMark lines).getLast?.getD 0 = 0
          rw [hnone]
          rfl
        rw [if_pos ⟨htotal, (figuresOn_eq_nil_iff hlegible).mp hnone⟩]
        exact figure_unavailable htotal havailable
      · rw [if_neg fun hboth => htotal hboth.1, Memory.figure, if_pos (not_lt.mp htotal)]
    · exact fun hexcess => Memory.figure_atMost_zero htotal hexcess.le
    · exact Memory.figure_not_atLeast_zero htotal
    · exact fun hnegative => Memory.figure_atLeast_hundred htotal hnegative.le
    · exact Memory.figure_not_atMost_hundred htotal

/-- A text with two totals, the last of which counts. -/
theorem memoryUsage_percentage_repeated :
    let text := "MemTotal: 1 kB\nMemAvailable: 2 kB\nMemTotal: 8 kB\n".toList
    let w := World.measured (String.ofList text).toUTF8 "12.5 3\n".toUTF8
    textOf? w.machine.meminfo = some text ∧ (memoryUsage w).1 = .ok (.ofInt 75) ∧
      (∀ memory ∈ Memory.read? text, memory.IsPlausible) ∧
      (Binary64.ofInt 75).AtLeast 0 ∧ (Binary64.ofInt 75).AtMost 100 := by
  intro text w
  have htext : textOf? w.machine.meminfo = some text := textOf?_ofList text
  have hread : Memory.read? text = some ⟨8, 2⟩ := by decide +kernel
  have husage : (memoryUsage w).1 = .ok (.ofInt 75) := by
    rw [memoryUsage_result, if_neg (not_isGarbled htext), memory?, htext, Option.bind_some, hread]
    decide +kernel
  have hplausible : ∀ memory ∈ Memory.read? text, memory.IsPlausible := by
    rw [hread]
    decide +kernel
  exact ⟨htext, husage, hplausible, (memoryUsage_percentage htext husage).2.1 hplausible⟩

/-- Without an available figure the usage is full; with one that is too great, or negative, it is no
percentage. -/
theorem memoryUsage_out_of_range :
    let usage (meminfo : String) : Except Fault Binary64 :=
      (memoryUsage (World.measured meminfo.toUTF8 "12.5 3\n".toUTF8)).1
    (figuresOn availableMark (Text.splitLines "MemTotal: 8 kB\n".toList) = [] ∧
        usage "MemTotal: 8 kB\n" = .ok (.ofInt 100) ∧ Binary64.ofInt 100 ≠ .zero false) ∧
      (usage "MemTotal: 1 kB\nMemAvailable: 3 kB\n" = .ok (.ofInt (-200)) ∧
        ¬(Binary64.ofInt (-200)).AtLeast 0) ∧
      usage "MemTotal: 1 kB\nMemAvailable: -1 kB\n" = .ok (.ofInt 200) ∧
        ¬(Binary64.ofInt 200).AtMost 100 := by
  have hbelow : (Binary64.ofInt (-200)).AtMost (-200) :=
    (ofInt_isRounded (-200)).atMost
      (isDouble_of_mul_eq (n := -200) 0 (by decide) (by decide) (by norm_num)) (by norm_num)
  have habove : (Binary64.ofInt 200).AtLeast 200 :=
    (ofInt_isRounded 200).atLeast
      (isDouble_of_mul_eq (n := 200) 0 (by decide) (by decide) (by norm_num)) (by norm_num)
  refine ⟨⟨by decide +kernel, by decide +kernel, by decide +kernel⟩,
    ⟨by decide +kernel, hbelow.not_atLeast (by norm_num)⟩, by decide +kernel,
    fun hfull => hfull.not_atLeast (by norm_num) habove⟩

end Host

end WireAgent
