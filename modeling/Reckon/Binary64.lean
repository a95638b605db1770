/-!
# Binary floating point

The numbers that are not negative, of the 64-bit format: a mantissa of at most 53 bits times a
power of two. `Binary64.round` takes the number nearest to a quotient, a tie going to the even
mantissa; `mul?` and `div?` are the exact result, rounded. A result too large for the format is
`none`. All arithmetic is on natural numbers.
-/

set_option autoImplicit false

namespace Reckon

/-- The number `mantissa * 2 ^ exponent`. -/
structure Binary64 where
  mantissa : Nat
  exponent : Int
deriving DecidableEq, Repr

namespace Binary64

/-- The least exponent of the format. -/
def leastExponent : Int := -1074

/-- The greatest exponent of the format. -/
def greatestExponent : Int := 971

/-- The least number that is no mantissa, `2 ^ 53`. -/
def beyond : Nat := 9007199254740992

def zero : Binary64 := ⟨0, leastExponent⟩

def isZero (x : Binary64) : Bool := x.mantissa == 0

/-- The natural number nearest to `num / den`, a tie going to the even one. -/
def nearest (num den : Nat) : Nat :=
  let q := num / den
  let r := num % den
  if 2 * r < den then q else if den < 2 * r then q + 1 else q + q % 2

/-- `num * 2 ^ shift / den`, as a quotient of natural numbers. -/
def scaled (num den : Nat) (shift : Int) : Nat × Nat :=
  (num <<< shift.toNat, den <<< (-shift).toNat)

/-- The exponent of the 53-bit mantissas nearest to `num / den`, or the least one. -/
def exponentOf (num den : Nat) : Int :=
  let low : Int := (num.log2 : Int) - den.log2 - 53
  let (n, d) := scaled num den (-low)
  max leastExponent (if beyond ≤ n / d then low + 1 else low)

/-- The number nearest to `num * 2 ^ shift / den`, a tie going to the even mantissa. -/
def round (num den : Nat) (shift : Int) : Option Binary64 :=
  if num = 0 then some zero
  else
    let (n, d) := scaled num den shift
    let e := exponentOf n d
    let (n, d) := scaled n d (-e)
    let m := nearest n d
    let (m, e) := if m = beyond then (m / 2, e + 1) else (m, e)
    if e ≤ greatestExponent then some ⟨m, e⟩ else none

/-- The product, rounded. -/
def mul? (x y : Binary64) : Option Binary64 :=
  round (x.mantissa * y.mantissa) 1 (x.exponent + y.exponent)

/-- The quotient, rounded. -/
def div? (x y : Binary64) : Option Binary64 :=
  round x.mantissa y.mantissa (x.exponent - y.exponent)

/-- The number nearest to a natural number. -/
def ofNat? (n : Nat) : Option Binary64 := round n 1 0

/-- The number as a quotient of natural numbers. -/
def toQuotient (x : Binary64) : Nat × Nat := scaled x.mantissa 1 x.exponent

end Binary64

end Reckon
