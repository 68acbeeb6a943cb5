import LayoutDesigner.Number.Binary64
import LayoutDesigner.Text.Digit

/-!
# Reading numerals

A real numeral is an optional sign, digits with an optional point among them and an optional
exponent, or a word for infinity or for no number. The digits may be those of any script, an
underscore may stand between two digits, and blanks may surround the whole.
-/

namespace LayoutDesigner.Number

open LayoutDesigner

/-- The blanks that a numeral may be surrounded by: the ASCII ones among them are the space and the
five layout controls. -/
def isMargin (c : CodePoint) : Bool :=
  (0x09 ≤ c.val && c.val ≤ 0x0D) || c.val == 0x20 || (0x7F ≤ c.val && c.isBlank)

/-- The text without the blanks around it. -/
def trimMargin (t : Text) : Text :=
  ((t.dropWhile isMargin).reverse.dropWhile isMargin).reverse

/-- A digit of any script becomes the ASCII digit of the same value. -/
def asciiDigit (c : CodePoint) : CodePoint :=
  if c.val < 0x7F then c
  else
    match c.digitValue? with
    | some v => CodePoint.ofNat (0x30 + v)
    | none => c

/-- Remove the underscores; `none` when one does not stand between two digits. `afterDigit` tells
whether the code point before was a digit. -/
def dropUnderscores (afterDigit : Bool) : Text → Option Text
  | [] => some []
  | c :: rest =>
    if c = '_' then
      match rest with
      | d :: _ => if afterDigit && d.isAsciiDigit then dropUnderscores false rest else none
      | [] => none
    else (dropUnderscores c.isAsciiDigit rest).map (c :: ·)

/-- The digits at the start of a text, as a number and their count, and what follows. -/
def takeDigits (t : Text) : Nat × Nat × Text :=
  let digits := t.takeWhile CodePoint.isAsciiDigit
  (digits.foldl (fun n c => 10 * n + (c.val - 0x30)) 0, digits.length,
    t.dropWhile CodePoint.isAsciiDigit)

/-- An optional sign: whether it is a minus, and what follows. -/
def takeSign : Text → Bool × Text
  | [] => (false, [])
  | c :: rest =>
    if c = '-' then (true, rest) else if c = '+' then (false, rest) else (false, c :: rest)

/-- A decimal `digits · 10^exponent` with a sign, or a word for what is no finite number. -/
inductive Real where
  | decimal (negative : Bool) (digits : Nat) (exponent : Int)
  | infinite (negative : Bool)
  | nan
  deriving DecidableEq

/-- The exponent of a numeral, from its mark to its end; no mark is exponent zero. -/
def readExponent? (t : Text) : Option Int :=
  match t with
  | [] => some 0
  | mark :: rest =>
    if mark = 'e' ∨ mark = 'E' then
      let (negative, rest) := takeSign rest
      let (n, count, rest) := takeDigits rest
      if count = 0 ∨ rest ≠ [] then none
      else some (if negative then -(n : Int) else n)
    else none

/-- The digits, point and exponent of a numeral without its sign. -/
def readUnsigned? (negative : Bool) (t : Text) : Option Real :=
  let (whole, wholeCount, rest) := takeDigits t
  let (fraction, fractionCount, rest) :=
    match rest with
    | c :: after => if c = '.' then takeDigits after else (0, 0, rest)
    | [] => (0, 0, rest)
  if wholeCount + fractionCount = 0 then none
  else
    (readExponent? rest).map fun e =>
      .decimal negative (whole * tenTo fractionCount + fraction) (e - fractionCount)

/-- Read a real numeral. -/
def readReal? (t : Text) : Option Real :=
  match dropUnderscores false ((trimMargin t).map asciiDigit) with
  | none => none
  | some t =>
    let (negative, rest) := takeSign t
    let word := rest.lowerAscii
    if word = ("inf" : Text) ∨ word = ("infinity" : Text) then some (.infinite negative)
    else if word = ("nan" : Text) then some .nan
    else readUnsigned? negative rest

/-- The number of decimal digits of `n`, one for zero. -/
def digitCount (n : Nat) : Nat := (Text.ofNat n).length

/-- The float nearest to a real numeral. Exponents that leave no doubt are settled without
computing the power of ten. -/
def Real.toFloat : Real → Float
  | .nan => Number.nan
  | .infinite negative => if negative then -infinity else infinity
  | .decimal negative digits exponent =>
    let lead : Int := (digitCount digits : Int) + exponent
    if digits = 0 ∨ lead < -400 then nearestFloat negative 0 1
    else if lead > 400 then if negative then -infinity else infinity
    else nearestFloat negative (digits * tenTo exponent.toNat) (tenTo (-exponent).toNat)

/-- Read an integer numeral: an optional sign and digits, with the same freedom of blanks, scripts
and underscores as a real numeral. -/
def readInt? (t : Text) : Option Int :=
  match dropUnderscores false ((trimMargin t).map asciiDigit) with
  | none => none
  | some t =>
    let (negative, rest) := takeSign t
    let (n, count, rest) := takeDigits rest
    if count = 0 ∨ rest ≠ [] then none else some (if negative then -(n : Int) else n)

end LayoutDesigner.Number
