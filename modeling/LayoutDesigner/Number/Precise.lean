import LayoutDesigner.Number.Binary64
import LayoutDesigner.Text

/-!
# Numerals with a given number of digits

A quotient of natural numbers as a numeral with so many places after the point, with an exponent and
so many digits, or in the shorter of the two forms. The numeral is the nearest of its form to the
quotient, a tie going to the even last digit.
-/

namespace LayoutDesigner.Number

/-- How a numeral with a given number of digits is laid out. -/
inductive NumeralForm where
  /-- So many places after the point. -/
  | places
  /-- One digit before the point and an exponent. -/
  | scientific
  /-- So many digits in all, with an exponent only where it is far from zero. -/
  | general
  deriving DecidableEq, Repr

/-- The digits of a natural number, zeros in front of them up to `width`. -/
def paddedDigits (n width : Nat) : Text :=
  let digits := Text.ofNat n
  List.replicate (width - digits.length) ('0' : CodePoint) ++ digits

/-- `num / den · 10^shift` to the nearest natural number. -/
private def shifted (num den : Nat) (shift : Int) : Nat :=
  roundQuotient (num * tenTo shift.toNat) (den * tenTo (-shift).toNat)

/-- The decimal exponent of the leading digit of the positive quotient `num / den`. -/
private def leadOf (num den : Nat) : Int :=
  let guess : Int := ((Text.ofNat num).length : Int) - (Text.ofNat den).length
  if num * tenTo (-guess).toNat < den * tenTo guess.toNat then guess - 1 else guess

/-- The first `count` digits of a quotient and the decimal exponent of the first of them. Rounding up
may give the next power of ten. Zero has digits of zero. -/
def leadingDigits (num den count : Nat) : Text × Int :=
  if num = 0 then (List.replicate count ('0' : CodePoint), 0)
  else
    let lead := leadOf num den
    let n := shifted num den (count - 1 - lead)
    if n = tenTo count then (Text.ofNat (n / 10), lead + 1) else (Text.ofNat n, lead)

/-- A fraction after its point; without digits the point stays where it is wanted. -/
private def pointed (fraction : Text) (keepPoint : Bool) : Text :=
  if fraction.isEmpty && !keepPoint then [] else ("." : Text) ++ fraction

/-- The numeral with `places` digits after the point. -/
private def placesNumeral (num den places : Nat) (keepPoint : Bool) : Text :=
  let digits := paddedDigits (shifted num den places) (places + 1)
  let whole := digits.length - places
  digits.take whole ++ pointed (digits.drop whole) keepPoint

/-- Digits with an exponent of two digits at least. -/
private def withExponent (digits : Text) (lead : Int) (keepPoint : Bool) : Text :=
  digits.take 1 ++ pointed (digits.drop 1) keepPoint ++ ("e" : Text) ++
    (if lead < 0 then ("-" : Text) else "+") ++ paddedDigits lead.natAbs 2

/-- The digits without the zeros at their end. -/
private def withoutZeros (digits : Text) : Text :=
  (digits.reverse.dropWhile (· = ('0' : CodePoint))).reverse

/-- The numeral with `count` digits in all; zeros at the end of the fraction are left out unless
the point is to be kept. -/
private def generalNumeral (num den count : Nat) (keepPoint : Bool) : Text :=
  let (digits, lead) := leadingDigits num den count
  let kept (start : Nat) : Text :=
    if keepPoint then digits else digits.take start ++ withoutZeros (digits.drop start)
  if lead < -4 ∨ (count : Int) ≤ lead then withExponent (kept 1) lead keepPoint
  else if lead < 0 then
    let zeros := List.replicate (-lead - 1).toNat ('0' : CodePoint)
    ("0" : Text) ++ pointed (zeros ++ kept 0) keepPoint
  else
    let whole := lead.toNat + 1
    digits.take whole ++ pointed ((kept whole).drop whole) keepPoint

/-- The numeral of `num / den` in a form with a precision. `keepPoint` keeps the point, and in the
general form the zeros, that could be left out. -/
def preciseNumeral (form : NumeralForm) (num den precision : Nat) (keepPoint : Bool) : Text :=
  match form with
  | .places => placesNumeral num den precision keepPoint
  | .scientific =>
    let (digits, lead) := leadingDigits num den (precision + 1)
    withExponent digits lead keepPoint
  | .general => generalNumeral num den (max precision 1) keepPoint

/-- The numeral of a float without its sign in a form with a precision, and whether it is negative. -/
def preciseText (form : NumeralForm) (x : Float) (precision : Nat) (keepPoint : Bool) :
    Bool × Text :=
  match classify x with
  | .nan => (false, "nan")
  | .infinite negative => (negative, "inf")
  | .finite d =>
    (d.negative, preciseNumeral form d.numerator d.denominator precision keepPoint)

end LayoutDesigner.Number
