import Mathlib.Algebra.Order.Ring.Nat
import Mathlib.Tactic.Linarith
import Mathlib.Tactic.Ring
import Mathlib.Tactic.SplitIfs
import WireAgent.Number.Binary64

/-!
# Overflow

A quotient is too large for a double just from `overflowBound` on, half a unit in the last place
above the greatest finite double (`nearest_eq_infinite_iff`). The bound itself is too large: it lies
in the middle between the greatest mantissa, which is odd, and the next power of two.
-/

namespace WireAgent.Number

/-- Rounding a quotient reaches an even number just from half a unit below it on. -/
theorem le_roundHalfEven_iff {num den k : Nat} (hden : 0 < den) (hk : k % 2 = 0) :
    k ≤ roundHalfEven num den ↔ 2 * k * den ≤ 2 * num + den := by
  have hnum := Nat.div_add_mod num den
  have hrest := Nat.mod_lt num hden
  unfold roundHalfEven
  dsimp only
  generalize num / den = q at hnum ⊢
  generalize num % den = r at hnum hrest ⊢
  rcases Nat.lt_trichotomy k (q + 1) with hlt | rfl | hgt
  · have hle : k * den ≤ q * den := Nat.mul_le_mul_right den (by omega)
    refine iff_of_true ?_ ?_
    · split_ifs <;> omega
    · nlinarith
  · -- The number below is odd, so that a tie goes up.
    have hodd : q % 2 ≠ 0 := by omega
    have hdouble : 2 * (q + 1) * den = 2 * (den * q) + 2 * den := by ring
    rw [hdouble]
    split_ifs <;> omega
  · have hle : (q + 2) * den ≤ k * den := Nat.mul_le_mul_right den (by omega)
    refine iff_of_false ?_ ?_
    · split_ifs <;> omega
    · nlinarith

theorem roundHalfEven_le (num den : Nat) : roundHalfEven num den ≤ num / den + 1 := by
  unfold roundHalfEven
  dsimp only
  split_ifs <;> omega

namespace Binary64

/-- The least number that is too large for a finite double. -/
def overflowBound : Nat := 2 ^ 1024 - 2 ^ 970

/-- The exponent that a quotient is rounded at. -/
def exponentOf (num den : Nat) : Int :=
  let guess : Int := (num.log2 : Int) - den.log2 - 52
  max (if num * twoTo (-guess) / (den * twoTo guess) < twoTo 52 then guess - 1 else guess)
    leastExponent

/-- A quotient is too large for a double if it is rounded at too large an exponent, or to a mantissa
that is one bit too long at the greatest one. -/
theorem nearest_eq_infinite {s t : Bool} {num den : Nat} (hnum : num ≠ 0) :
    nearest s num den = .infinite t ↔
      s = t ∧ greatestExponent < exponentOf num den +
        if roundHalfEven (num * twoTo (-exponentOf num den)) (den * twoTo (exponentOf num den))
          = twoTo 53 then 1 else 0 := by
  unfold nearest
  rw [if_neg hnum]
  dsimp only
  rw [← exponentOf]
  generalize exponentOf num den = e
  by_cases hlong : roundHalfEven (num * twoTo (-e)) (den * twoTo e) = twoTo 53
  · simp only [hlong, if_true]
    split_ifs with hgreat <;> simp [hgreat]
  · simp only [hlong, if_false, Int.add_zero]
    split_ifs with hgreat <;> simp [hgreat]

theorem twoTo_natCast (n : Nat) : twoTo n = 2 ^ n := rfl

theorem twoTo_neg_natCast (n : Nat) : twoTo (-n) = 1 := by
  rw [twoTo, Int.toNat_of_nonpos (by omega)]

/-- A large quotient is rounded at an exponent under which its mantissa has 53 bits. -/
theorem exponentOf_cases {num den : Nat} (hnum : num ≠ 0) (hden : den ≠ 0) :
    exponentOf num den ≤ 1 ∧ num < 2 ^ 55 * den ∨
      ∃ g : Nat, exponentOf num den = g ∧ 2 ^ 52 * (den * 2 ^ g) ≤ num ∧
        num < 2 ^ 53 * (den * 2 ^ g) := by
  have hnumLow := Nat.log2_self_le hnum
  have hnumHigh := Nat.lt_log2_self (n := num)
  have hdenLow := Nat.log2_self_le hden
  have hdenHigh := Nat.lt_log2_self (n := den)
  unfold exponentOf leastExponent
  generalize num.log2 = n at hnumLow hnumHigh ⊢
  generalize den.log2 = d at hdenLow hdenHigh ⊢
  dsimp only
  by_cases hsmall : n < d + 54
  · refine .inl ⟨by split_ifs <;> omega, ?_⟩
    calc num < 2 ^ (n + 1) := hnumHigh
      _ ≤ 2 ^ (54 + d) := Nat.pow_le_pow_right (by decide) (by omega)
      _ = 2 ^ 54 * 2 ^ d := Nat.pow_add 2 54 d
      _ ≤ 2 ^ 55 * den := Nat.mul_le_mul (by decide) hdenLow
  · right
    obtain ⟨k, rfl⟩ : ∃ k, n = d + 53 + (k + 1) := ⟨n - d - 54, by omega⟩
    have hlow : 2 ^ 52 * (den * 2 ^ (k + 1)) ≤ num :=
      calc 2 ^ 52 * (den * 2 ^ (k + 1))
        _ ≤ 2 ^ 52 * (2 ^ (d + 1) * 2 ^ (k + 1)) :=
          Nat.mul_le_mul_left _ (Nat.mul_le_mul_right _ hdenHigh.le)
        _ = 2 ^ (d + 53 + (k + 1)) := by ring
        _ ≤ num := hnumLow
    have hhigh : num < 2 ^ 53 * (den * 2 ^ (k + 2)) :=
      calc num < 2 ^ (d + 53 + (k + 1) + 1) := hnumHigh
        _ = 2 ^ 53 * (2 ^ d * 2 ^ (k + 2)) := by ring
        _ ≤ 2 ^ 53 * (den * 2 ^ (k + 2)) :=
          Nat.mul_le_mul_left _ (Nat.mul_le_mul_right _ hdenLow)
    have hpos : 0 < den * 2 ^ (k + 2) := Nat.mul_pos (Nat.pos_of_ne_zero hden) (by positivity)
    have hguess : ((d + 53 + (k + 1) : Nat) : Int) - d - 52 = (k + 2 : Nat) := by omega
    rw [hguess, twoTo_neg_natCast, twoTo_natCast, Nat.mul_one]
    split_ifs with hshort
    · refine ⟨k + 1, by omega, hlow, ?_⟩
      calc num < 2 ^ 52 * (den * 2 ^ (k + 2)) := (Nat.div_lt_iff_lt_mul hpos).mp hshort
        _ = 2 ^ 53 * (den * 2 ^ (k + 1)) := by ring
    · exact ⟨k + 2, by omega, (Nat.le_div_iff_mul_le hpos).mp (not_lt.mp hshort), hhigh⟩

theorem overflowBound_eq : overflowBound = (2 ^ 54 - 1) * 2 ^ 970 := by
  decide +kernel

theorem mul_pow_succ (den g : Nat) : den * 2 ^ (g + 1) = 2 * (2 ^ g * den) := by
  ring

/-- Counted in halves of its last place, a quotient is rounded to one bit too many just from half a
unit below that on. -/
theorem roundHalfEven_eq_iff {num half : Nat} (hnum : num < 2 ^ 53 * (2 * half)) :
    roundHalfEven num (2 * half) = 2 ^ 53 ↔ (2 ^ 54 - 1) * half ≤ num := by
  have hpos : 0 < 2 * half := by omega
  have hle : roundHalfEven num (2 * half) ≤ 2 ^ 53 :=
    (roundHalfEven_le _ _).trans ((Nat.div_lt_iff_lt_mul hpos).mpr hnum)
  rw [Nat.le_antisymm_iff, and_iff_right hle, le_roundHalfEven_iff hpos (by decide)]
  omega

/-- A quotient is too large for a double just from the bound on. -/
theorem nearest_eq_infinite_iff {s t : Bool} {num den : Nat} (hden : den ≠ 0) :
    nearest s num den = .infinite t ↔ s = t ∧ overflowBound * den ≤ num := by
  by_cases hnum : num = 0
  · have hbound : overflowBound * den ≠ 0 := Nat.mul_ne_zero (by decide +kernel) hden
    simp [nearest, zero, hnum, hbound]
  rw [nearest_eq_infinite hnum]
  refine and_congr_right fun _ => ?_
  unfold greatestExponent
  rcases exponentOf_cases hnum hden with ⟨hexponent, hsmall⟩ | ⟨g, hexponent, hlow, hhigh⟩
  · have hbound : 2 ^ 55 * den ≤ overflowBound * den :=
      Nat.mul_le_mul_right den (by decide +kernel)
    refine iff_of_false ?_ (by omega)
    split_ifs <;> omega
  · rw [hexponent, twoTo_natCast, twoTo_neg_natCast, Nat.mul_one, twoTo]
    rcases Nat.lt_trichotomy g 971 with hlt | heq | hgt
    · have hbound : num < overflowBound * den :=
        calc num < 2 ^ 53 * (den * 2 ^ g) := hhigh
          _ ≤ 2 ^ 53 * (den * 2 ^ 970) := by
            gcongr
            · decide
            · omega
          _ = 2 ^ 53 * 2 ^ 970 * den := by rw [Nat.mul_comm den, Nat.mul_assoc]
          _ ≤ overflowBound * den := Nat.mul_le_mul_right den (by decide +kernel)
      refine iff_of_false ?_ (by omega)
      split_ifs <;> omega
    · have hunit : den * 2 ^ g = 2 * (2 ^ 970 * den) := by
        have hg : g = 970 + 1 := heq
        rw [hg, mul_pow_succ]
      rw [hunit] at hhigh
      rw [hunit, overflowBound_eq, Nat.mul_assoc, ← roundHalfEven_eq_iff hhigh, heq]
      split_ifs with hlong
      · exact iff_of_true (by decide) hlong
      · exact iff_of_false (by decide) hlong
    · have hbound : overflowBound * den ≤ num :=
        calc overflowBound * den ≤ 2 ^ 52 * 2 ^ 972 * den :=
              Nat.mul_le_mul_right den (by decide +kernel)
          _ = 2 ^ 52 * (den * 2 ^ 972) := by rw [Nat.mul_comm den, Nat.mul_assoc]
          _ ≤ 2 ^ 52 * (den * 2 ^ g) := by gcongr <;> omega
          _ ≤ num := hlow
      refine iff_of_true ?_ hbound
      split_ifs <;> omega

end Binary64

end WireAgent.Number
