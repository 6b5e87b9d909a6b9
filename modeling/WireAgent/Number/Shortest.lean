import WireAgent.Number.Binary64
import WireAgent.Number.Digits

/-!
# The text of a floating-point number

`shortest` finds the fewest decimal digits that read back as the same double, and of the candidates
with that many digits the one nearest to it. `text` writes them: positionally from 0.0001 up to
below 10 ^ 16, with a point always, and otherwise with an exponent of a sign and at least two
digits. `fixed` writes a fixed number of digits after the point, rounded half to even on the exact
value.
-/

namespace WireAgent.Number

namespace Binary64

/-- The decimal exponent `k` of a positive value `mantissa * 2 ^ exponent`: the value is at least
`10 ^ k` and below `10 ^ (k + 1)`. -/
def magnitude (mantissa : Nat) (exponent : Int) : Int :=
  let scaled := mantissa * twoTo exponent * tenTo 350 / twoTo (-exponent)
  (decimal scaled).length - 351

/-- The reals that round to a double, in units of a quarter of its last place: the double itself and
the two ends of the interval, which belong to it iff its mantissa is even. -/
structure Interval where
  low : Nat
  centre : Nat
  high : Nat
  exponent : Int
  closed : Bool

/-- The interval of the double `mantissa * 2 ^ exponent`. The lower half is half as wide under the
least mantissa of an exponent. -/
def interval (mantissa : Nat) (exponent : Int) : Interval where
  low := 4 * mantissa - (if mantissa = twoTo 52 ∧ leastExponent < exponent then 1 else 2)
  centre := 4 * mantissa
  high := 4 * mantissa + 2
  exponent := exponent - 2
  closed := mantissa % 2 = 0

/-- `n` units of `2 ^ exponent`, in the common unit of powers of two and of `10 ^ place`. -/
def binaryUnits (i : Interval) (place : Int) (n : Nat) : Nat :=
  n * twoTo i.exponent * tenTo (-place)

/-- `n` units of `10 ^ place`, in the common unit of powers of two and of `10 ^ place`. -/
def placeUnits (i : Interval) (place : Int) (n : Nat) : Nat :=
  n * tenTo place * twoTo (-i.exponent)

/-- Does `n * 10 ^ place` read back as the double? -/
def readsBack (i : Interval) (place : Int) (n : Nat) : Bool :=
  let x := placeUnits i place n
  let low := binaryUnits i place i.low
  let high := binaryUnits i place i.high
  if i.closed then low ≤ x && x ≤ high else low < x && x < high

/-- The multiple of `10 ^ place` that reads back, if one of the two neighbours of the double does:
the nearer one, the even one on a tie. -/
def candidate (i : Interval) (place : Int) : Option Nat :=
  let centre := binaryUnits i place i.centre
  let below := centre / placeUnits i place 1
  match readsBack i place below, readsBack i place (below + 1) with
  | false, false => none
  | true, false => some below
  | false, true => some (below + 1)
  | true, true =>
    let down := centre - placeUnits i place below
    let up := placeUnits i place (below + 1) - centre
    if down < up || (down = up && below % 2 = 0) then some below else some (below + 1)

/-- The first of `tries` ever finer decimal grids that has a candidate, and the candidate. -/
def search (i : Interval) : Nat → Int → Nat × Int
  | 0, place => (binaryUnits i place i.centre / placeUnits i place 1, place)
  | tries + 1, place =>
    match candidate i place with
    | some n => (n, place)
    | none => search i tries (place - 1)

/-- The fewest digits of a positive double, and the power of ten of the last of them. -/
def shortest (mantissa : Nat) (exponent : Int) : List Char × Int :=
  let (n, place) := search (interval mantissa exponent) 17 (magnitude mantissa exponent)
  let digits := decimal n
  let kept := (digits.reverse.dropWhile (· = '0')).reverse
  (kept, place + (digits.length - kept.length : Nat))

/-- Digits with the point after the first `point` of them; zeros fill a gap on either side. -/
def positional (digits : List Char) (point : Int) : List Char :=
  if point ≤ 0 then '0' :: '.' :: List.replicate (-point).toNat '0' ++ digits
  else if digits.length ≤ point.toNat then
    digits ++ List.replicate (point.toNat - digits.length) '0' ++ ['.', '0']
  else digits.take point.toNat ++ '.' :: digits.drop point.toNat

/-- Digits with the point after the first and an exponent. -/
def scientific (digits : List Char) (exponent : Int) : List Char :=
  let mantissa := match digits with
    | first :: second :: rest => first :: '.' :: second :: rest
    | digits => digits
  mantissa ++ 'e' :: (if exponent < 0 then '-' else '+') :: padded 2 exponent.natAbs

/-- A sign in front of a text. -/
def withSign (negative : Bool) (cs : List Char) : String :=
  String.ofList (if negative then '-' :: cs else cs)

/-- The text of a double, in the fewest digits that read back. -/
def text : Binary64 → String
  | .nan => "nan"
  | .infinite s => withSign s ['i', 'n', 'f']
  | .finite s m e =>
    if m = 0 then withSign s ['0', '.', '0']
    else
      let (digits, place) := shortest m e
      let point := place + digits.length
      withSign s
        (if -4 < point ∧ point ≤ 16 then positional digits point else scientific digits (point - 1))

/-- The text of a double with `places` digits after the point. -/
def fixed (places : Nat) : Binary64 → String
  | .nan => "nan"
  | .infinite s => withSign s ['i', 'n', 'f']
  | .finite s m e =>
    let digits := padded (places + 1) (decimalUnits places m e)
    withSign s (positional digits (digits.length - places : Nat))

end Binary64

end WireAgent.Number
