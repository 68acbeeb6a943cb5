/-!
# Binary floating point, exactly

A finite binary64 number is an integer times a power of two. This module reads that integer and
power out of a float, and gives the float nearest to a quotient of natural numbers. Comparing,
rounding and printing are then integer arithmetic.
-/

namespace LayoutDesigner

/-- A power of two. -/
def twoTo (n : Nat) : Nat := Nat.pow 2 n

/-- A power of ten. -/
def tenTo (n : Nat) : Nat := Nat.pow 10 n

/-- The number `(-1)^negative · mantissa · 2^exponent`. The sign of zero is kept. -/
structure Dyadic where
  negative : Bool
  mantissa : Nat
  exponent : Int
  deriving DecidableEq, Repr

namespace Dyadic

/-- The numerator of the absolute value over `denominator`. -/
def numerator (d : Dyadic) : Nat := d.mantissa * twoTo d.exponent.toNat

/-- The power of two below the fraction bar. -/
def denominator (d : Dyadic) : Nat := twoTo (-d.exponent).toNat

/-- The numerator with its sign. -/
def signedNumerator (d : Dyadic) : Int :=
  if d.negative then -(d.numerator : Int) else d.numerator

/-- The greatest integer that is not above the number. -/
def floor (d : Dyadic) : Int := d.signedNumerator / (d.denominator : Int)

/-- The number with its fraction cut off. -/
def truncate (d : Dyadic) : Int :=
  if d.negative then -((d.numerator / d.denominator : Nat) : Int)
  else ((d.numerator / d.denominator : Nat) : Int)

/-- Whether the number is an integer. -/
def isInteger (d : Dyadic) : Bool := d.numerator % d.denominator == 0

/-- The order of the number and an integer. -/
def compareInt (d : Dyadic) (n : Int) : Ordering :=
  compare d.signedNumerator (n * (d.denominator : Int))

end Dyadic

namespace Number

/-- What a float holds: a number, an infinity of either sign, or no number. -/
inductive FloatClass where
  | finite (value : Dyadic)
  | infinite (negative : Bool)
  | nan

/-- Read a float by its bits: a sign, eleven bits of exponent and fifty-two of fraction. -/
def classify (x : Float) : FloatClass :=
  let bits := x.toBits.toNat
  let negative : Bool := bits ≥ twoTo 63
  let exponent : Nat := bits / twoTo 52 % twoTo 11
  let fraction : Nat := bits % twoTo 52
  if exponent = 0x7FF then
    if fraction = 0 then .infinite negative else .nan
  else if exponent = 0 then .finite ⟨negative, fraction, -1074⟩
  else .finite ⟨negative, fraction + twoTo 52, (exponent : Int) - 1075⟩

/-- `num / den` to the nearest natural number; a half goes to the even neighbour. -/
def roundQuotient (num den : Nat) : Nat :=
  let q := num / den
  let twice := 2 * (num % den)
  if twice < den then q
  else if twice > den then q + 1
  else if q % 2 = 0 then q else q + 1

/-- The exponent of the last bit that a float keeps of the positive quotient `num / den`. -/
def lastBit (num den : Nat) : Int :=
  let guess : Int := (num.log2 : Int) - den.log2
  let below : Bool :=
    if 0 ≤ guess then num < den * twoTo guess.toNat else num * twoTo (-guess).toNat < den
  max ((if below then guess - 1 else guess) - 52) (-1074)

/-- The bits of the float nearest to `num / den`, a tie going to the even mantissa; a quotient
beyond the greatest float gives infinity. -/
def nearestBits (num den : Nat) : Nat :=
  if num = 0 then 0
  else
    let exponent := lastBit num den
    let mantissa :=
      if 0 ≤ exponent then roundQuotient num (den * twoTo exponent.toNat)
      else roundQuotient (num * twoTo (-exponent).toNat) den
    let (mantissa, exponent) :=
      if mantissa = twoTo 53 then (twoTo 52, exponent + 1) else (mantissa, exponent)
    if exponent > 971 then 0x7FF * twoTo 52
    else if mantissa < twoTo 52 then mantissa
    else (exponent + 1075).toNat * twoTo 52 + (mantissa - twoTo 52)

/-- The float nearest to `num / den` with the given sign. -/
def nearestFloat (negative : Bool) (num den : Nat) : Float :=
  Float.ofBits (UInt64.ofNat (nearestBits num den + if negative then twoTo 63 else 0))

/-- The float nearest to an integer; `none` when that is beyond the greatest float. -/
def floatOfInt? (n : Int) : Option Float :=
  let bits := nearestBits n.natAbs 1
  if bits ≥ 0x7FF * twoTo 52 then none
  else some (Float.ofBits (UInt64.ofNat (bits + if n < 0 then twoTo 63 else 0)))

/-- Not a number. -/
def nan : Float := Float.ofBits 0x7FF8000000000000

/-- Positive infinity. -/
def infinity : Float := Float.ofBits 0x7FF0000000000000

end Number

end LayoutDesigner
