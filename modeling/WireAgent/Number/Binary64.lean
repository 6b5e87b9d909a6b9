/-!
# Binary floating-point numbers

A `Binary64` is a double-precision number of the binary floating-point standard: not a number, one
of two infinities, or a signed mantissa times a power of two. Arithmetic is exact in the naturals
and rounded once: `nearest` picks the double next to a quotient, the one with the even mantissa on
a tie. Every finite number that `nearest` builds is in canonical form, with a mantissa of 53 bits
or the least exponent.
-/

namespace WireAgent.Number

/-- The quotient rounded to the nearest integer, to the even one on a tie. -/
def roundHalfEven (num den : Nat) : Nat :=
  let quotient := num / den
  let twice := 2 * (num % den)
  if twice < den then quotient
  else if den < twice then quotient + 1
  else if quotient % 2 = 0 then quotient else quotient + 1

/-- A double-precision number; `finite` stands for `mantissa * 2 ^ exponent` with its sign. -/
inductive Binary64 where
  | nan
  | infinite (negative : Bool)
  | finite (negative : Bool) (mantissa : Nat) (exponent : Int)
  deriving DecidableEq, Repr, Inhabited

namespace Binary64

/-- The exponent of the subnormal numbers. -/
def leastExponent : Int := -1074

/-- The exponent of the greatest finite numbers. -/
def greatestExponent : Int := 971

/-- Zero with a sign. -/
def zero (negative : Bool) : Binary64 := .finite negative 0 leastExponent

/-- `2 ^ k`, one for a negative `k`. -/
def twoTo (k : Int) : Nat := Nat.pow 2 k.toNat

/-- `10 ^ k`, one for a negative `k`. -/
def tenTo (k : Int) : Nat := Nat.pow 10 k.toNat

/-- The double nearest to `num / den`, with the given sign. -/
def nearest (negative : Bool) (num den : Nat) : Binary64 :=
  if num = 0 then zero negative
  else
    let guess : Int := (num.log2 : Int) - den.log2 - 52
    let exponent :=
      if num * twoTo (-guess) / (den * twoTo guess) < twoTo 52 then guess - 1 else guess
    let exponent := max exponent leastExponent
    let mantissa := roundHalfEven (num * twoTo (-exponent)) (den * twoTo exponent)
    let (mantissa, exponent) :=
      if mantissa = twoTo 53 then (twoTo 52, exponent + 1) else (mantissa, exponent)
    if greatestExponent < exponent then .infinite negative
    else .finite negative mantissa exponent

/-- The double nearest to an integer. -/
def ofInt (n : Int) : Binary64 := nearest (decide (n < 0)) n.natAbs 1

/-- The double nearest to an integer; none if the integer is too large for a finite one. -/
def ofInt? (n : Int) : Option Binary64 :=
  match ofInt n with
  | .infinite _ => none
  | x => some x

/-- The double nearest to a quotient of integers; none if it is too large for a finite one. -/
def quotient? (a b : Int) : Option Binary64 :=
  match nearest (decide (a < 0) != decide (b < 0)) a.natAbs b.natAbs with
  | .infinite _ => none
  | x => some x

/-- The mantissa with its sign. -/
def signed (negative : Bool) (mantissa : Nat) : Int :=
  if negative then -(mantissa : Int) else mantissa

/-- The double nearest to `n * 2 ^ exponent`. -/
def ofScaled (n : Int) (exponent : Int) : Binary64 :=
  nearest (decide (n < 0)) (n.natAbs * twoTo exponent) (twoTo (-exponent))

/-- The difference, rounded once. -/
def sub : Binary64 → Binary64 → Binary64
  | .nan, _ => .nan
  | _, .nan => .nan
  | .infinite s, .infinite t => if s = t then .nan else .infinite s
  | .infinite s, .finite .. => .infinite s
  | .finite .., .infinite t => .infinite (!t)
  | .finite s m d, .finite t n e =>
    let common := min d e
    let total := signed s m * twoTo (d - common) - signed t n * twoTo (e - common)
    if m = 0 ∧ n = 0 then zero (s && !t) else ofScaled total common

/-- The product, rounded once. -/
def mul : Binary64 → Binary64 → Binary64
  | .nan, _ => .nan
  | _, .nan => .nan
  | .infinite s, .infinite t => .infinite (s != t)
  | .infinite s, .finite t n _ => if n = 0 then .nan else .infinite (s != t)
  | .finite s m _, .infinite t => if m = 0 then .nan else .infinite (s != t)
  | .finite s m d, .finite t n e =>
    nearest (s != t) (m * n * twoTo (d + e)) (twoTo (-(d + e)))

/-- Why a double has no integer part. -/
inductive TruncationError
  | notANumber
  | infinity
  deriving DecidableEq, Repr

/-- The integer part, toward zero. -/
def truncate : Binary64 → Except TruncationError Int
  | .nan => .error .notANumber
  | .infinite _ => .error .infinity
  | .finite s m e => .ok (signed s (m * twoTo e / twoTo (-e)))

/-- Is the number finite and an integer? -/
def isIntegral : Binary64 → Bool
  | .finite _ m e => m * twoTo e % twoTo (-e) == 0
  | _ => false

/-- The value in units of `10 ^ -places`, rounded half to even. -/
def decimalUnits (places mantissa : Nat) (exponent : Int) : Nat :=
  roundHalfEven (mantissa * twoTo exponent * tenTo places) (twoTo (-exponent))

/-- The double nearest to the number written with `places` digits after the point. -/
def roundTo (places : Nat) : Binary64 → Binary64
  | .finite s m e => nearest s (decimalUnits places m e) (tenTo places)
  | x => x

/-- The double nearest to `digits * 10 ^ exponent`. -/
def ofDecimal (negative : Bool) (digits : Nat) (exponent : Int) : Binary64 :=
  if digits = 0 then zero negative
  else
    let size : Int := (Nat.toDigits 10 digits).length + exponent
    if 400 < size then .infinite negative
    else if size < -400 then zero negative
    else nearest negative (digits * tenTo exponent) (tenTo (-exponent))

end Binary64

end WireAgent.Number
