import LayoutDesigner.Number.Binary64
import LayoutDesigner.Text

/-!
# Decimal numerals of binary numbers

The shortest numeral of a float is the one with the fewest digits that reads back as the same
float, and of those the nearest to its value. A fixed numeral has a given number of places and is
the nearest of these, a tie going to the even last digit.
-/

namespace LayoutDesigner.Number

open LayoutDesigner

/-- The digits `digits`, read as an integer, times a power of ten. -/
structure Decimal where
  digits : Nat
  exponent : Int

/-- The open interval of reals that round to a positive float with mantissa `m`, in units of a
quarter of its last bit: the value is `4m`, the ends are half way to the neighbours. The ends belong
to it iff `m` is even. A float with the least mantissa of its binade has a nearer neighbour below. -/
private def bounds (m : Nat) (exponent : Int) : Nat × Nat :=
  (if m = twoTo 52 ∧ exponent > -1074 then 4 * m - 1 else 4 * m - 2, 4 * m + 2)

/-- `m · 2^e · 10^(-p)` as a quotient of natural numbers. -/
private def scaled (m : Nat) (e p : Int) : Nat × Nat :=
  (m * twoTo e.toNat * tenTo (-p).toNat, twoTo (-e).toNat * tenTo p.toNat)

/-- The point of the grid of multiples of `10^p` that rounds to the float `m · 2^e` and is nearest
to it, if there is one. -/
private def gridPoint? (m : Nat) (e p : Int) : Option Nat :=
  let (low, high) := bounds m e
  let (num, den) := scaled (4 * m) (e - 2) p
  let (lowNum, _) := scaled low (e - 2) p
  let (highNum, _) := scaled high (e - 2) p
  let within (k : Nat) : Bool :=
    if m % 2 = 0 then lowNum ≤ k * den && k * den ≤ highNum
    else lowNum < k * den && k * den < highNum
  let below := num / den
  let nearest := roundQuotient num den
  let other := if nearest = below then below + 1 else below
  if within nearest && nearest ≠ 0 then some nearest
  else if within other && other ≠ 0 then some other
  else none

/-- Try grids from coarse to fine; the finest grid always has a point. -/
private def searchGrid (m : Nat) (e : Int) : Nat → Int → Decimal
  | 0, p => ⟨(gridPoint? m e p).getD 0, p⟩
  | steps + 1, p =>
    match gridPoint? m e p with
    | some k => ⟨k, p⟩
    | none => searchGrid m e steps (p - 1)

/-- An exponent of ten that is not below that of the leading digit of `m · 2^e`. -/
private def leadingPlace (m : Nat) (e : Int) : Int :=
  ((m.log2 : Int) + e) * 30103 / 100000 + 1

/-- Move zeros at the end of the digits into the exponent. -/
private def dropZeros : Nat → Decimal → Decimal
  | 0, d => d
  | fuel + 1, d =>
    if d.digits % 10 = 0 ∧ d.digits ≠ 0 then dropZeros fuel ⟨d.digits / 10, d.exponent + 1⟩ else d

/-- The shortest decimal that rounds to the positive float `m · 2^e`. -/
def shortest (m : Nat) (e : Int) : Decimal :=
  dropZeros 20 (searchGrid m e 20 (leadingPlace m e))

/-- How a numeral without a fixed number of places is written. -/
structure NumeralStyle where
  /-- The least decimal exponent of the leading digit that is written positionally. -/
  leastPositional : Int
  /-- The first decimal exponent of the leading digit that is written with an exponent. -/
  firstScientific : Int
  /-- The least number of digits of an exponent. -/
  exponentWidth : Nat
  /-- What a positional integer is followed by. -/
  integerTail : Text

/-- Numerals are positional from a ten-thousandth up to ten to the sixteenth, an integer ends in
`.0`, and an exponent has a sign and two digits at least. -/
def plainStyle : NumeralStyle := ⟨-4, 16, 2, ".0"⟩

/-- The sign and digits of an exponent. -/
def exponentText (style : NumeralStyle) (e : Int) : Text :=
  let digits := Text.ofNat e.natAbs
  (if e < 0 then ("-" : Text) else "+") ++
    List.replicate (style.exponentWidth - digits.length) ('0' : CodePoint) ++ digits

/-- A positive decimal in the given style. -/
def Decimal.write (style : NumeralStyle) (d : Decimal) : Text :=
  let digits := Text.ofNat d.digits
  let lead : Int := (digits.length : Int) - 1 + d.exponent
  if lead < style.leastPositional ∨ style.firstScientific ≤ lead then
    let fraction := digits.drop 1
    digits.take 1 ++ (if fraction.isEmpty then [] else ("." : Text) ++ fraction) ++
      ("e" : Text) ++ exponentText style lead
  else if 0 ≤ d.exponent then
    digits ++ List.replicate d.exponent.toNat ('0' : CodePoint) ++ style.integerTail
  else if 0 ≤ lead then
    digits.take (lead + 1).toNat ++ ("." : Text) ++ digits.drop (lead + 1).toNat
  else
    ("0." : Text) ++ List.replicate (-lead - 1).toNat ('0' : CodePoint) ++ digits

/-- The shortest numeral of a float; `nan` and `inf` stand for what is no finite number. -/
def floatText (x : Float) : Text :=
  match classify x with
  | .nan => "nan"
  | .infinite negative => if negative then "-inf" else "inf"
  | .finite d =>
    let sign : Text := if d.negative then "-" else ""
    if d.mantissa = 0 then sign ++ ("0" : Text) ++ plainStyle.integerTail
    else sign ++ (shortest d.mantissa d.exponent).write plainStyle

/-- The numeral of a finite number with exactly two places. -/
def twoPlaces (d : Dyadic) : Text :=
  let hundredths := roundQuotient (d.numerator * 100) d.denominator
  (if d.negative then ("-" : Text) else "") ++
    Text.ofNat (hundredths / 100) ++ ("." : Text) ++
    Text.ofNat (hundredths % 100 / 10) ++ Text.ofNat (hundredths % 10)

end LayoutDesigner.Number
