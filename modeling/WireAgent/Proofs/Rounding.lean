import Mathlib.Algebra.Order.Field.Power
import Mathlib.Data.Nat.Cast.Order.Field
import Mathlib.Data.Rat.Cast.Order
import Mathlib.Tactic.FieldSimp
import Mathlib.Tactic.NormNum
import Mathlib.Tactic.Positivity
import WireAgent.Proofs.Overflow

/-!
# Rounding keeps the order

Doubles are compared with rational numbers (`AtMost`, `AtLeast`). A quotient on one side of a number
that is itself a double is rounded to the same side of it (`nearest_atMost`, `nearest_atLeast`).
From this follows what the arithmetic does to bounds: a difference, a product with a positive double
and a number rounded to some places after the point stay on their side of a bound that is a double.
-/

namespace WireAgent.Number

/-- A quotient is rounded by half a unit at most. -/
theorem roundHalfEven_error (num : ℕ) {den : ℕ} (hden : den ≠ 0) :
    |(roundHalfEven num den : ℚ) - num / den| ≤ 1 / 2 := by
  have hnum := Nat.div_add_mod num den
  have hrest := Nat.mod_lt num (Nat.pos_of_ne_zero hden)
  have hbounds : 2 * num ≤ (2 * roundHalfEven num den + 1) * den ∧
      2 * roundHalfEven num den * den ≤ 2 * num + den := by
    have hsucc (q : ℕ) : 2 * (q + 1) * den = 2 * (den * q) + 2 * den := by ring
    have hsame (q : ℕ) : 2 * q * den = 2 * (den * q) := by ring
    unfold roundHalfEven
    dsimp only
    rw [Nat.add_mul]
    split_ifs <;> simp only [hsucc, hsame] <;> omega
  have hpos : (0 : ℚ) < den := by positivity
  have hquotient : (num : ℚ) / den * den = num := div_mul_cancel₀ _ hpos.ne'
  obtain ⟨hlow, hhigh⟩ := hbounds
  have hlow' : (2 * num : ℚ) ≤ (2 * roundHalfEven num den + 1) * den := by exact_mod_cast hlow
  have hhigh' : (2 * roundHalfEven num den * den : ℚ) ≤ 2 * num + den := by exact_mod_cast hhigh
  generalize (num : ℚ) / den = r at hquotient ⊢
  rw [← hquotient] at hlow' hhigh'
  rw [abs_le]
  constructor <;> nlinarith

theorem le_roundHalfEven_of_lt {num den k : ℕ} (hden : den ≠ 0) (h : (k : ℚ) - 1 / 2 < num / den) :
    k ≤ roundHalfEven num den := by
  have herror := (abs_le.mp (roundHalfEven_error num hden)).1
  have hlt : (k : ℚ) < roundHalfEven num den + 1 := by linarith
  exact Nat.lt_succ_iff.mp (by exact_mod_cast hlt)

theorem roundHalfEven_le_of_lt {num den k : ℕ} (hden : den ≠ 0) (h : (num : ℚ) / den < k + 1 / 2) :
    roundHalfEven num den ≤ k := by
  have herror := (abs_le.mp (roundHalfEven_error num hden)).2
  have hlt : (roundHalfEven num den : ℚ) < k + 1 := by linarith
  exact Nat.lt_succ_iff.mp (by exact_mod_cast hlt)

namespace Binary64

/-! ## Powers of two -/

theorem twoTo_ne_zero (k : ℤ) : twoTo k ≠ 0 := (Nat.two_pow_pos _).ne'

theorem tenTo_natCast (n : ℕ) : tenTo n = 10 ^ n := rfl

theorem twoTo_div_twoTo_neg (k : ℤ) : (twoTo k : ℚ) / twoTo (-k) = 2 ^ k := by
  obtain ⟨n, rfl | rfl⟩ := k.eq_nat_or_neg
  · rw [twoTo_natCast, twoTo_neg_natCast]
    simp
  · rw [neg_neg, twoTo_natCast, twoTo_neg_natCast]
    simp

/-- A quotient counted in units of `2 ^ e`. -/
theorem quotient_scaled (num den : ℕ) (e : ℤ) :
    ((num * twoTo (-e) : ℕ) : ℚ) / ((den * twoTo e : ℕ) : ℚ) = num / den * 2 ^ (-e) := by
  have hscale := twoTo_div_twoTo_neg (-e)
  rw [neg_neg] at hscale
  rw [Nat.cast_mul, Nat.cast_mul, mul_div_mul_comm, hscale]

/-- The mantissa that a quotient is rounded to. -/
def mantissaOf (num den : ℕ) : ℕ :=
  roundHalfEven (num * twoTo (-exponentOf num den)) (den * twoTo (exponentOf num den))

/-- A double of either sign has the mantissa and the exponent that the quotient is rounded to,
unless it is infinite. -/
theorem nearest_cases {num : ℕ} (den : ℕ) (hnum : num ≠ 0) :
    (∀ s, nearest s num den = .infinite s) ∨
      ∃ m e, (∀ s, nearest s num den = .finite s m e) ∧
        (m : ℚ) * 2 ^ e = mantissaOf num den * 2 ^ exponentOf num den := by
  have hnearest (s : Bool) : nearest s num den =
      let number := if mantissaOf num den = twoTo 53 then (twoTo 52, exponentOf num den + 1)
        else (mantissaOf num den, exponentOf num den)
      if greatestExponent < number.2 then .infinite s else .finite s number.1 number.2 := by
    unfold nearest
    rw [if_neg hnum]
    rfl
  by_cases hlong : mantissaOf num den = twoTo 53
  · simp only [if_pos hlong] at hnearest
    by_cases hlarge : greatestExponent < exponentOf num den + 1
    · exact .inl fun s => by rw [hnearest, if_pos hlarge]
    · refine .inr ⟨_, _, fun s => by rw [hnearest, if_neg hlarge], ?_⟩
      have hunits : ((twoTo 53 : ℕ) : ℚ) = twoTo 52 * 2 := by exact_mod_cast rfl
      rw [hlong, hunits, zpow_add_one₀ two_ne_zero]
      ring
  · simp only [if_neg hlong] at hnearest
    by_cases hlarge : greatestExponent < exponentOf num den
    · exact .inl fun s => by rw [hnearest, if_pos hlarge]
    · exact .inr ⟨_, _, fun s => by rw [hnearest, if_neg hlarge], rfl⟩

/-- A quotient that is not rounded at the least exponent has 53 bits before it is rounded. -/
theorem two_pow_mul_le_quotient {num den : ℕ} (hnum : num ≠ 0) (hden : den ≠ 0)
    (h : leastExponent < exponentOf num den) :
    (2 : ℚ) ^ 52 * 2 ^ exponentOf num den ≤ num / den := by
  have hpos : (0 : ℚ) < den := by positivity
  unfold exponentOf at h ⊢
  dsimp only at h ⊢
  rw [lt_max_iff, or_iff_left (lt_irrefl _)] at h
  rw [max_eq_left h.le]
  split_ifs with hshort
  · -- The guess is one too great, but no more, as both numbers have their leading bit.
    have hnumLow : (2 : ℚ) ^ num.log2 ≤ num := by exact_mod_cast Nat.log2_self_le hnum
    have hdenHigh : (den : ℚ) ≤ 2 ^ (den.log2 + 1) := by
      exact_mod_cast (Nat.lt_log2_self (n := den)).le
    rw [le_div_iff₀ hpos]
    calc (2 : ℚ) ^ 52 * 2 ^ ((num.log2 : ℤ) - den.log2 - 52 - 1) * den
      _ ≤ 2 ^ 52 * 2 ^ ((num.log2 : ℤ) - den.log2 - 52 - 1) * 2 ^ (den.log2 + 1) := by gcongr
      _ = 2 ^ num.log2 := by
        rw [← zpow_natCast, ← zpow_natCast, ← zpow_natCast, ← zpow_add₀ two_ne_zero,
          ← zpow_add₀ two_ne_zero]
        congr 1
        omega
      _ ≤ num := hnumLow
  · generalize (num.log2 : ℤ) - den.log2 - 52 = guess at hshort ⊢
    have hlong : ((2 ^ 52 : ℕ) : ℚ) ≤ num / den * 2 ^ (-guess) :=
      calc ((2 ^ 52 : ℕ) : ℚ) ≤ (num * twoTo (-guess) / (den * twoTo guess) : ℕ) :=
            Nat.cast_le.mpr (not_lt.mp hshort)
        _ ≤ ((num * twoTo (-guess) : ℕ) : ℚ) / ((den * twoTo guess : ℕ) : ℚ) := Nat.cast_div_le
        _ = num / den * 2 ^ (-guess) := quotient_scaled num den guess
    rw [zpow_neg, ← div_eq_mul_inv, le_div_iff₀ (by positivity)] at hlong
    exact_mod_cast hlong

/-! ## Doubles among the rational numbers -/

/-- Is a number that of a finite double? -/
def IsDouble (q : ℚ) : Prop :=
  ∃ n e : ℤ, n.natAbs < 2 ^ 53 ∧ leastExponent ≤ e ∧ e ≤ greatestExponent ∧ (n : ℚ) * 2 ^ e = q

theorem IsDouble.neg {q : ℚ} (h : IsDouble q) : IsDouble (-q) := by
  obtain ⟨n, e, hn, hlow, hhigh, rfl⟩ := h
  refine ⟨-n, e, by rwa [Int.natAbs_neg], hlow, hhigh, ?_⟩
  push_cast
  ring

/-- A number with few bits is that of a double, if they end soon behind the point. -/
theorem isDouble_of_mul_eq {q : ℚ} {n : ℤ} (places : ℕ) (hn : n.natAbs < 2 ^ 53)
    (hplaces : places ≤ 1074) (h : q * 2 ^ places = n) : IsDouble q := by
  refine ⟨n, -places, hn, ?_, ?_, ?_⟩
  · unfold leastExponent
    omega
  · unfold greatestExponent
    omega
  · rw [← h, mul_assoc, ← zpow_natCast, ← zpow_add₀ two_ne_zero, add_neg_cancel, zpow_zero, mul_one]

/-- Is a double at most as great as a number? -/
def AtMost (q : ℚ) : Binary64 → Prop
  | .nan => False
  | .infinite negative => negative = true
  | .finite negative m e => (signed negative m : ℚ) * 2 ^ e ≤ q

/-- Is a double at least as great as a number? -/
def AtLeast (q : ℚ) : Binary64 → Prop
  | .nan => False
  | .infinite negative => negative = false
  | .finite negative m e => q ≤ (signed negative m : ℚ) * 2 ^ e

theorem AtMost.not_atLeast {x : Binary64} {p q : ℚ} (h : x.AtMost p) (hpq : p < q) :
    ¬x.AtLeast q := by
  intro hq
  cases x with
  | nan => exact h.elim
  | infinite negative => exact Bool.noConfusion (Eq.trans (Eq.symm h) hq)
  | finite negative m e => exact absurd (le_trans hq h) (not_le.mpr hpq)

theorem signed_false (m : ℕ) : signed false m = m := rfl

theorem signed_true (m : ℕ) : signed true m = -m := rfl

theorem signed_not (negative : Bool) (m : ℕ) : signed (!negative) m = -signed negative m := by
  cases negative
  · rfl
  · exact (neg_neg _).symm

theorem signed_zero (s : Bool) : signed s 0 = 0 := by
  cases s <;> rfl

theorem zero_atMost (s : Bool) {q : ℚ} (h : 0 ≤ q) : (zero s).AtMost q := by
  simpa [zero, AtMost, signed_zero] using h

theorem zero_atLeast (s : Bool) {q : ℚ} (h : q ≤ 0) : (zero s).AtLeast q := by
  simpa [zero, AtLeast, signed_zero] using h

/-! ## Quotients -/

section

variable {num den k : ℕ}

theorem mantissaOf_le_of_le (hden : den ≠ 0)
    (h : (num : ℚ) / den ≤ k * 2 ^ exponentOf num den) : mantissaOf num den ≤ k := by
  have hunits : (num : ℚ) / den * 2 ^ (-exponentOf num den) ≤ k := by
    rwa [zpow_neg, ← div_eq_mul_inv, div_le_iff₀ (by positivity)]
  refine roundHalfEven_le_of_lt (Nat.mul_ne_zero hden (twoTo_ne_zero _)) ?_
  rw [quotient_scaled]
  linarith

theorem le_mantissaOf_of_le (hden : den ≠ 0)
    (h : (k : ℚ) * 2 ^ exponentOf num den ≤ num / den) : k ≤ mantissaOf num den := by
  have hunits : (k : ℚ) ≤ num / den * 2 ^ (-exponentOf num den) := by
    rwa [zpow_neg, ← div_eq_mul_inv, le_div_iff₀ (by positivity)]
  refine le_roundHalfEven_of_lt (Nat.mul_ne_zero hden (twoTo_ne_zero _)) ?_
  rw [quotient_scaled]
  linarith

/-- A multiple of a power of two is one of each smaller power. -/
theorem exists_units {e e' : ℤ} (h : e ≤ e') : ∃ j : ℕ, (k : ℚ) * 2 ^ e' = j * 2 ^ e := by
  obtain ⟨d, rfl⟩ := Int.le.dest h
  refine ⟨k * 2 ^ d, ?_⟩
  rw [zpow_add₀ two_ne_zero, zpow_natCast]
  push_cast
  ring

/-- A number of 53 bits lies below each quotient that is rounded at a greater exponent. -/
theorem mul_zpow_lt {e e' : ℤ} (hk : k < 2 ^ 53) (h : e < e') :
    (k : ℚ) * 2 ^ e < 2 ^ 52 * 2 ^ e' := by
  have hk' : (k : ℚ) < 2 ^ 53 := by exact_mod_cast hk
  calc (k : ℚ) * 2 ^ e < 2 ^ 53 * 2 ^ e := by gcongr
    _ = 2 ^ 52 * 2 ^ (e + 1) := by
      rw [zpow_add_one₀ two_ne_zero]
      ring
    _ ≤ 2 ^ 52 * 2 ^ e' := by
      gcongr
      · exact one_le_two
      · exact h

variable {e : ℤ} (hnum : num ≠ 0) (hden : den ≠ 0) (hk : k < 2 ^ 53) (he : leastExponent ≤ e)

include hnum hden hk he

theorem mantissaOf_mul_le (h : (num : ℚ) / den ≤ k * 2 ^ e) :
    (mantissaOf num den : ℚ) * 2 ^ exponentOf num den ≤ k * 2 ^ e := by
  rcases lt_or_ge e (exponentOf num den) with hlt | hge
  · have hlong := two_pow_mul_le_quotient hnum hden (he.trans_lt hlt)
    exact absurd (h.trans_lt (mul_zpow_lt hk hlt)) hlong.not_gt
  · obtain ⟨j, hj⟩ := exists_units (k := k) hge
    rw [hj] at h ⊢
    have hle := mantissaOf_le_of_le hden h
    gcongr

theorem le_mantissaOf_mul (h : (k : ℚ) * 2 ^ e ≤ num / den) :
    (k : ℚ) * 2 ^ e ≤ mantissaOf num den * 2 ^ exponentOf num den := by
  rcases lt_or_ge e (exponentOf num den) with hlt | hge
  · have hlong := two_pow_mul_le_quotient hnum hden (he.trans_lt hlt)
    have hle : 2 ^ 52 ≤ mantissaOf num den :=
      le_mantissaOf_of_le hden (by exact_mod_cast hlong)
    calc (k : ℚ) * 2 ^ e ≤ 2 ^ 52 * 2 ^ exponentOf num den := (mul_zpow_lt hk hlt).le
      _ ≤ mantissaOf num den * 2 ^ exponentOf num den := by
        gcongr
        exact_mod_cast hle
  · obtain ⟨j, hj⟩ := exists_units (k := k) hge
    rw [hj] at h ⊢
    have hle := le_mantissaOf_of_le hden h
    gcongr

end

variable {num den : ℕ} {p q : ℚ}

/-- A quotient below a double is not too large for one. -/
theorem nearest_ne_infinite {s t : Bool} (hden : den ≠ 0) {k : ℕ} {e : ℤ} (hk : k < 2 ^ 53)
    (he : e ≤ greatestExponent) (h : (num : ℚ) / den ≤ k * 2 ^ e) :
    nearest s num den ≠ .infinite t := by
  intro hinfinite
  have hlarge := ((nearest_eq_infinite_iff hden).mp hinfinite).2
  rw [overflowBound_eq] at hlarge
  -- The greatest double is a whole unit below the next power of two, the bound half a unit.
  generalize hhalf : 2 ^ 970 = half at hlarge
  have hunit : (2 : ℚ) ^ greatestExponent = half * 2 := by
    have hexponent : greatestExponent = (970 : ℕ) + 1 := rfl
    rw [hexponent, zpow_add_one₀ two_ne_zero, zpow_natCast, ← hhalf, Nat.cast_pow, Nat.cast_ofNat]
  have hpos : (0 : ℚ) < half := by
    rw [← hhalf]
    positivity
  have hbound : ((2 ^ 54 - 1) * half : ℚ) ≤ num / den := by
    have hlarge' : (((2 ^ 54 - 1 : ℕ) * half * den : ℕ) : ℚ) ≤ num := Nat.cast_le.mpr hlarge
    rw [Nat.cast_mul, Nat.cast_mul, Nat.cast_sub (by decide)] at hlarge'
    rw [le_div_iff₀ (by positivity)]
    exact_mod_cast hlarge'
  have hk' : (k : ℚ) ≤ 2 ^ 53 - 1 := by
    have hle : (k : ℚ) + 1 ≤ 2 ^ 53 := by exact_mod_cast Nat.succ_le_iff.mpr hk
    linarith
  have hsmall : (k : ℚ) * 2 ^ e ≤ (2 ^ 53 - 1) * (half * 2) := by
    rw [← hunit]
    exact mul_le_mul hk' (zpow_le_zpow_right₀ one_le_two he) (by positivity) (by norm_num)
  linarith

/-- A quotient that is at most a double is rounded to at most that double. -/
theorem nearest_atMost {s : Bool} (hden : den ≠ 0) (hq : IsDouble q)
    (h : (signed s num : ℚ) / den ≤ q) : (nearest s num den).AtMost q := by
  by_cases hnum : num = 0
  · rw [hnum, signed_zero, Int.cast_zero, zero_div] at h
    rw [hnum]
    exact zero_atMost s h
  obtain ⟨n, e, hn, hlow, hhigh, rfl⟩ := hq
  cases s with
  | false =>
    rw [signed_false, Int.cast_natCast] at h
    have hpos : (0 : ℚ) < n * 2 ^ e := lt_of_lt_of_le (by positivity) h
    obtain ⟨k, rfl⟩ : ∃ k : ℕ, n = k := by
      refine Int.eq_ofNat_of_zero_le ?_
      exact_mod_cast (pos_of_mul_pos_left hpos (by positivity)).le
    rw [Int.cast_natCast] at h ⊢
    rcases nearest_cases den hnum with hinfinite | ⟨m, e', hfinite, hvalue⟩
    · exact absurd (hinfinite false) (nearest_ne_infinite hden hn hhigh h)
    · rw [hfinite, AtMost, signed_false, Int.cast_natCast, hvalue]
      exact mantissaOf_mul_le hnum hden hn hlow h
  | true =>
    rw [signed_true, Int.cast_neg, Int.cast_natCast, neg_div, neg_le] at h
    rcases nearest_cases den hnum with hinfinite | ⟨m, e', hfinite, hvalue⟩
    · rw [hinfinite]
      rfl
    · rw [hfinite, AtMost, signed_true, Int.cast_neg, Int.cast_natCast, neg_mul, hvalue, neg_le]
      rcases le_or_gt 0 n with hpos | hneg
      · have hbound : -((n : ℚ) * 2 ^ e) ≤ 0 := by
          rw [neg_nonpos]
          positivity
        exact hbound.trans (by positivity)
      · obtain ⟨k, rfl⟩ : ∃ k : ℕ, n = -k := ⟨n.natAbs, by omega⟩
        rw [Int.cast_neg, Int.cast_natCast, neg_mul, neg_neg] at h ⊢
        exact le_mantissaOf_mul hnum hden (by simpa using hn) hlow h

/-- A quotient of either sign, bounded below. -/
theorem atLeast_nearest_iff {s : Bool} :
    (nearest s num den).AtLeast q ↔ (nearest (!s) num den).AtMost (-q) := by
  have hfinite (m : ℕ) (e : ℤ) : (finite s m e).AtLeast q ↔ (finite (!s) m e).AtMost (-q) := by
    rw [AtLeast, AtMost, signed_not, Int.cast_neg, neg_mul, neg_le_neg_iff]
  by_cases hnum : num = 0
  · rw [hnum]
    exact hfinite 0 leastExponent
  · rcases nearest_cases den hnum with hinfinite | ⟨m, e, hcases, -⟩
    · rw [hinfinite, hinfinite, AtLeast, AtMost]
      cases s <;> simp
    · rw [hcases, hcases]
      exact hfinite m e

/-- A quotient that is at least a double is rounded to at least that double. -/
theorem nearest_atLeast {s : Bool} (hden : den ≠ 0) (hq : IsDouble q)
    (h : q ≤ (signed s num : ℚ) / den) : (nearest s num den).AtLeast q := by
  refine atLeast_nearest_iff.mpr (nearest_atMost hden hq.neg ?_)
  rw [signed_not, Int.cast_neg, neg_div]
  exact neg_le_neg h

/-- Is a double a number, rounded? No double lies between the two. -/
structure IsRounded (x : Binary64) (r : ℚ) : Prop where
  atMost : ∀ {q}, IsDouble q → r ≤ q → x.AtMost q
  atLeast : ∀ {q}, IsDouble q → q ≤ r → x.AtLeast q

theorem nearest_isRounded (s : Bool) (num : ℕ) {den : ℕ} (hden : den ≠ 0) :
    (nearest s num den).IsRounded (signed s num / den) :=
  ⟨nearest_atMost hden, nearest_atLeast hden⟩

/-! ## Arithmetic -/

theorem signed_mul (s : Bool) (m k : ℕ) : signed s (m * k) = signed s m * k := by
  cases s
  · exact Nat.cast_mul m k
  · rw [signed_true, signed_true, Nat.cast_mul, neg_mul]

theorem signed_natAbs (n : ℤ) : signed (decide (n < 0)) n.natAbs = n := by
  unfold signed
  split_ifs with h
  · rw [decide_eq_true_iff] at h
    omega
  · rw [decide_eq_true_iff] at h
    omega

theorem twoTo_eq_zpow {k : ℤ} (h : 0 ≤ k) : (twoTo k : ℚ) = 2 ^ k := by
  obtain ⟨n, rfl⟩ := Int.eq_ofNat_of_zero_le h
  simp [twoTo_natCast]

theorem ofScaled_isRounded (n e : ℤ) : (ofScaled n e).IsRounded (n * 2 ^ e) := by
  have hvalue : (signed (decide (n < 0)) (n.natAbs * twoTo e) : ℚ) / twoTo (-e) = n * 2 ^ e := by
    rw [signed_mul, signed_natAbs, ← twoTo_div_twoTo_neg, Int.cast_mul, Int.cast_natCast,
      mul_div_assoc]
  rw [← hvalue]
  exact nearest_isRounded _ _ (twoTo_ne_zero _)

theorem ofInt_isRounded (n : ℤ) : (ofInt n).IsRounded n := by
  have h := nearest_isRounded (decide (n < 0)) n.natAbs one_ne_zero
  rwa [signed_natAbs, Nat.cast_one, div_one] at h

theorem sub_isRounded (s t : Bool) (m n : ℕ) (d e : ℤ) :
    ((finite s m d).sub (finite t n e)).IsRounded (signed s m * 2 ^ d - signed t n * 2 ^ e) := by
  have hscale {k : ℤ} (h : min d e ≤ k) : (twoTo (k - min d e) : ℚ) * 2 ^ min d e = 2 ^ k := by
    rw [twoTo_eq_zpow (by omega), ← zpow_add₀ two_ne_zero, Int.sub_add_cancel]
  have htotal : (signed s m * 2 ^ d - signed t n * 2 ^ e : ℚ) =
      ((signed s m * twoTo (d - min d e) - signed t n * twoTo (e - min d e) : ℤ) : ℚ) *
        2 ^ min d e := by
    rw [← hscale (min_le_left d e), ← hscale (min_le_right d e)]
    push_cast
    ring
  by_cases hzero : m = 0 ∧ n = 0
  · have hsub : (finite s m d).sub (finite t n e) = zero (s && !t) := if_pos hzero
    rw [hsub, hzero.1, hzero.2]
    simp only [signed_zero, Int.cast_zero, zero_mul, sub_zero]
    exact ⟨fun _ => zero_atMost _, fun _ => zero_atLeast _⟩
  · have hsub : (finite s m d).sub (finite t n e) = ofScaled
        (signed s m * twoTo (d - min d e) - signed t n * twoTo (e - min d e)) (min d e) :=
      if_neg hzero
    rw [hsub, htotal]
    exact ofScaled_isRounded _ _

theorem mul_isRounded (s t : Bool) (m n : ℕ) (d e : ℤ) :
    ((finite s m d).mul (finite t n e)).IsRounded
      (signed s m * 2 ^ d * (signed t n * 2 ^ e)) := by
  have hsigned : signed (s != t) (m * n) = signed s m * signed t n := by
    cases s <;> cases t <;> simp [signed]
  have hvalue : (signed (s != t) (m * n * twoTo (d + e)) : ℚ) / twoTo (-(d + e)) =
      signed s m * 2 ^ d * (signed t n * 2 ^ e) := by
    rw [signed_mul, hsigned, Int.cast_mul, Int.cast_natCast, mul_div_assoc, twoTo_div_twoTo_neg,
      zpow_add₀ two_ne_zero]
    push_cast
    ring
  rw [← hvalue]
  exact nearest_isRounded _ _ (twoTo_ne_zero _)

variable {x y : Binary64} {a : ℚ}

/-- A difference is bounded by what bounds the first double and, the other way round, the second. -/
theorem sub_atMost (hx : x.AtMost p) (hy : y.AtLeast q) (h : IsDouble (p - q)) :
    (x.sub y).AtMost (p - q) := by
  cases x with
  | nan => exact hx.elim
  | infinite s =>
    obtain rfl : s = true := hx
    cases y with
    | nan => exact hy.elim
    | infinite t =>
      obtain rfl : t = false := hy
      rfl
    | finite t n e => rfl
  | finite s m d =>
    cases y with
    | nan => exact hy.elim
    | infinite t =>
      obtain rfl : t = false := hy
      rfl
    | finite t n e => exact (sub_isRounded s t m n d e).atMost h (sub_le_sub hx hy)

theorem sub_atLeast (hx : x.AtLeast p) (hy : y.AtMost q) (h : IsDouble (p - q)) :
    (x.sub y).AtLeast (p - q) := by
  cases x with
  | nan => exact hx.elim
  | infinite s =>
    obtain rfl : s = false := hx
    cases y with
    | nan => exact hy.elim
    | infinite t =>
      obtain rfl : t = true := hy
      rfl
    | finite t n e => rfl
  | finite s m d =>
    cases y with
    | nan => exact hy.elim
    | infinite t =>
      obtain rfl : t = true := hy
      rfl
    | finite t n e => exact (sub_isRounded s t m n d e).atLeast h (sub_le_sub hx hy)

/-- A double is rounded to itself. -/
theorem IsRounded.exists_eq (h : x.IsRounded a) (ha : IsDouble a) :
    ∃ s m e, x = .finite s m e ∧ (signed s m : ℚ) * 2 ^ e = a := by
  have hmost := h.atMost ha le_rfl
  have hleast := h.atLeast ha le_rfl
  cases x with
  | nan => exact hmost.elim
  | infinite s => exact Bool.noConfusion (Eq.trans (Eq.symm hmost) hleast)
  | finite s m e => exact ⟨s, m, e, rfl, le_antisymm hmost hleast⟩

/-- A positive double has the positive sign and a mantissa. -/
theorem eq_false_of_pos {t : Bool} {n : ℕ} {e : ℤ} (h : 0 < (signed t n : ℚ) * 2 ^ e) :
    t = false ∧ n ≠ 0 := by
  have hsigned : (0 : ℚ) < signed t n := pos_of_mul_pos_left h (by positivity)
  cases t with
  | false => exact ⟨rfl, by rintro rfl; simp [signed] at hsigned⟩
  | true =>
    rw [signed_true, Int.cast_neg, Int.cast_natCast, neg_pos] at hsigned
    exact absurd hsigned (not_lt.mpr n.cast_nonneg)

section

variable (hy : y.IsRounded a) (ha : IsDouble a) (hpos : 0 < a) (h : IsDouble (q * a))

include hy ha hpos h

/-- A product with a positive double is bounded as the other factor is. -/
theorem mul_atMost (hx : x.AtMost q) : (x.mul y).AtMost (q * a) := by
  obtain ⟨t, n, e, rfl, rfl⟩ := hy.exists_eq ha
  obtain ⟨rfl, hn⟩ := eq_false_of_pos hpos
  cases x with
  | nan => exact hx.elim
  | infinite s =>
    obtain rfl : s = true := hx
    rw [mul, if_neg hn]
    rfl
  | finite s m d =>
    exact (mul_isRounded s false m n d e).atMost h (mul_le_mul_of_nonneg_right hx hpos.le)

theorem mul_atLeast (hx : x.AtLeast q) : (x.mul y).AtLeast (q * a) := by
  obtain ⟨t, n, e, rfl, rfl⟩ := hy.exists_eq ha
  obtain ⟨rfl, hn⟩ := eq_false_of_pos hpos
  cases x with
  | nan => exact hx.elim
  | infinite s =>
    obtain rfl : s = false := hx
    rw [mul, if_neg hn]
    rfl
  | finite s m d =>
    exact (mul_isRounded s false m n d e).atLeast h (mul_le_mul_of_nonneg_right hx hpos.le)

end

/-! ## Places after the point -/

/-- The units of a number's last place are half a unit off at most. -/
theorem decimalUnits_error (s : Bool) (places m : ℕ) (e : ℤ) :
    |(signed s (decimalUnits places m e) : ℚ) - signed s m * 2 ^ e * 10 ^ places| ≤ 1 / 2 := by
  have hvalue : ((m * twoTo e * tenTo places : ℕ) : ℚ) / (twoTo (-e) : ℕ) =
      m * 2 ^ e * 10 ^ places := by
    rw [← twoTo_div_twoTo_neg, tenTo_natCast]
    push_cast
    ring
  have herror := roundHalfEven_error (m * twoTo e * tenTo places) (twoTo_ne_zero (-e))
  rw [hvalue, ← decimalUnits] at herror
  cases s with
  | false => exact_mod_cast herror
  | true =>
    rw [signed_true, signed_true, ← abs_neg]
    push_cast
    convert herror using 2
    ring

section

variable {places : ℕ} {j : ℤ} (hq : IsDouble q)

include hq

/-- A double that lies below half a unit more than a number of units is rounded to at most those
units. -/
theorem roundTo_atMost (hx : x.AtMost p) (hp : p * 10 ^ places < j + 1 / 2)
    (hj : (j : ℚ) ≤ q * 10 ^ places) : (x.roundTo places).AtMost q := by
  cases x with
  | nan => exact hx.elim
  | infinite s => exact hx
  | finite s m e =>
    have hunits : signed s (decimalUnits places m e) ≤ j := by
      have herror := (abs_le.mp (decimalUnits_error s places m e)).2
      have hscaled : (signed s m * 2 ^ e * 10 ^ places : ℚ) ≤ p * 10 ^ places :=
        mul_le_mul_of_nonneg_right hx (by positivity)
      have hlt : (signed s (decimalUnits places m e) : ℚ) < j + 1 := by linarith
      exact Int.lt_add_one_iff.mp (by exact_mod_cast hlt)
    refine nearest_atMost (Nat.pow_pos (by decide)).ne' hq ?_
    rw [tenTo_natCast, Nat.cast_pow, Nat.cast_ofNat, div_le_iff₀ (by positivity)]
    exact (Int.cast_le.mpr hunits).trans hj

theorem roundTo_atLeast (hx : x.AtLeast p) (hp : j - 1 / 2 < p * 10 ^ places)
    (hj : q * 10 ^ places ≤ j) : (x.roundTo places).AtLeast q := by
  cases x with
  | nan => exact hx.elim
  | infinite s => exact hx
  | finite s m e =>
    have hunits : j ≤ signed s (decimalUnits places m e) := by
      have herror := (abs_le.mp (decimalUnits_error s places m e)).1
      have hscaled : p * 10 ^ places ≤ (signed s m * 2 ^ e * 10 ^ places : ℚ) :=
        mul_le_mul_of_nonneg_right hx (by positivity)
      have hlt : (j : ℚ) < signed s (decimalUnits places m e) + 1 := by linarith
      exact Int.lt_add_one_iff.mp (by exact_mod_cast hlt)
    refine nearest_atLeast (Nat.pow_pos (by decide)).ne' hq ?_
    rw [tenTo_natCast, Nat.cast_pow, Nat.cast_ofNat, le_div_iff₀ (by positivity)]
    exact hj.trans (Int.cast_le.mpr hunits)

end

end Binary64

end WireAgent.Number
