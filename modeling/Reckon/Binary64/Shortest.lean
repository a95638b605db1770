import Reckon.Binary64
import Reckon.Numeral

/-!
# Shortest decimals

`Binary64.shortest` gives the fewest decimal digits that round to a number, and of those with as
few digits the ones nearest to it. `Binary64.text` writes them: with a decimal point and at least
one digit on either side of it while the first digit stands at most five places after the point or
fifteen places before its last one, and with an exponent otherwise.
-/

set_option autoImplicit false

namespace Reckon

namespace Binary64

/-- A power of ten. -/
def tenTo (n : Nat) : Nat := Nat.pow 10 n

/-- The power of ten of the first digit of `num / den`. -/
def magnitude (num den : Nat) : Int :=
  if den ≤ num then (Numeral.ofNat (num / den)).length - 1
  else -((Numeral.ofNat ((den - 1) / num)).length : Int)

/-- A number between the two midpoints to its neighbours, all in quarters of the unit in the last
place of the number, which is `2 ^ exponent`. -/
structure Interval where
  low : Nat
  mid : Nat
  high : Nat
  /-- The power of two of a quarter unit. -/
  exponent : Int
  /-- The midpoints round to the number, because its mantissa is even. -/
  closed : Bool

/-- The decimals that round to a number. Below the least mantissa of 53 bits the spacing halves. -/
def interval (x : Binary64) : Interval where
  low := 4 * x.mantissa - if 2 * x.mantissa = beyond ∧ leastExponent < x.exponent then 1 else 2
  mid := 4 * x.mantissa
  high := 4 * x.mantissa + 2
  exponent := x.exponent - 2
  closed := x.mantissa % 2 == 0

/-- `n` quarter units and `digits * 10 ^ power` as natural numbers of the same scale. -/
def Interval.compare (i : Interval) (n digits : Nat) (power : Int) : Nat × Nat :=
  ((n * tenTo (-power).toNat) <<< i.exponent.toNat,
    (digits * tenTo power.toNat) <<< (-i.exponent).toNat)

/-- Does `digits * 10 ^ power` round to the number? -/
def Interval.contains (i : Interval) (digits : Nat) (power : Int) : Bool :=
  let (low, d) := i.compare i.low digits power
  let (high, _) := i.compare i.high digits power
  if i.closed then low ≤ d && d ≤ high else low < d && d < high

/-- The decimal of a given power of ten that rounds to the number and is nearest to it. -/
def Interval.onGrid? (i : Interval) (power : Int) : Option Nat :=
  let (mid, unit) := i.compare i.mid 1 power
  let below := mid / unit
  let past := mid % unit
  match i.contains below power, i.contains (below + 1) power with
  | true, true =>
    some (if 2 * past < unit then below else if unit < 2 * past then below + 1
      else below + below % 2)
  | true, false => some below
  | false, true => some (below + 1)
  | false, false => none

/-- A number without its zeros at the end, and how many there were. -/
def dropZeros (n : Nat) : Nat × Nat :=
  if _h : n ≠ 0 ∧ n % 10 = 0 then
    let (m, zeros) := dropZeros (n / 10)
    (m, zeros + 1)
  else (n, 0)
termination_by n
decreasing_by omega

/-- The digits of the shortest decimal and the power of ten of the last one. -/
def shortest (x : Binary64) : Nat × Int :=
  let i := x.interval
  let (num, den) := x.toQuotient
  let first := magnitude num den
  let powers := (List.range 17).map fun (k : Nat) => first - (k : Int)
  match powers.findSome? fun p => (i.onGrid? p).map fun n => (n, p) with
  | some (n, p) =>
    let (n, zeros) := dropZeros n
    (n, p + zeros)
  | none => (0, 0)

/-- Digits with a decimal point after the first `point` of them, or before them all and after
zeros, if `point` is not positive. -/
def positional (digits : List Char) (point : Int) : List Char :=
  if point ≤ 0 then ['0', '.'] ++ List.replicate (-point).toNat '0' ++ digits
  else
    let n := point.toNat
    let whole := digits.take n ++ List.replicate (n - digits.length) '0'
    let part := digits.drop n
    whole ++ '.' :: if part.isEmpty then ['0'] else part

/-- Digits with a decimal point after the first one, and a power of ten. -/
def scientific (digits : List Char) (power : Int) : List Char :=
  let sign := if power < 0 then '-' else '+'
  let mantissa := match digits with
    | [] => []
    | [d] => [d]
    | d :: ds => d :: '.' :: ds
  mantissa ++ 'e' :: sign :: Numeral.ofNat power.natAbs

/-- The shortest decimal form. -/
def text (x : Binary64) : List Char :=
  if x.isZero then ['0', '.', '0']
  else
    let (n, power) := x.shortest
    let digits := Numeral.ofNat n
    let first := power + digits.length - 1
    if -5 ≤ first ∧ first ≤ 15 then positional digits (first + 1) else scientific digits first

end Binary64

end Reckon
