import LayoutDesigner.Arith
import LayoutDesigner.Number.Shortest
import LayoutDesigner.Number.Numeral

/-!
# Integers mixed with binary floats

A number is an integer of any size or a binary64 float. Integers stay exact among themselves; as
soon as a float takes part, the result is a float. Comparisons across the two are exact.
-/

namespace LayoutDesigner

/-- An integer or a float. -/
inductive Number where
  | int (n : Int)
  | real (x : Float)
  deriving DecidableEq

namespace Number

/-- The float nearest to the number. -/
def toFloat : Number → Except Fault Float
  | .int n =>
    match floatOfInt? n with
    | some x => .ok x
    | none => .error .integerTooLarge
  | .real x => .ok x

/-- Apply an operation on integers to integers, and one on floats where a float takes part. -/
def combine (onInts : Int → Int → Int) (onFloats : Float → Float → Float) (a b : Number) :
    Except Fault Number :=
  match a, b with
  | .int m, .int n => .ok (.int (onInts m n))
  | a, b => do
    let x ← a.toFloat
    let y ← b.toFloat
    return .real (onFloats x y)

/-- The real quotient. The quotient of integers is that of their exact values. -/
def quotient (a b : Number) : Except Fault Number :=
  match a, b with
  | .int m, .int n =>
    if n = 0 then .error .divisionByZero
    else
      let bits := nearestBits m.natAbs n.natAbs
      if bits ≥ 0x7FF * twoTo 52 then .error .quotientTooLarge
      else .ok (.real (nearestFloat (decide (m < 0) != decide (n < 0)) m.natAbs n.natAbs))
  | a, b => do
    let x ← a.toFloat
    let y ← b.toFloat
    if y == 0 then .error .divisionByZero else return .real (x / y)

/-- The order of an integer and a float; `none` where the float is no number. -/
def compareIntFloat (n : Int) (x : Float) : Option Ordering :=
  match classify x with
  | .finite d => some (d.compareInt n).swap
  | .infinite negative => some (if negative then .gt else .lt)
  | .nan => none

/-- The order of two numbers; `none` where one is no number. -/
def order (a b : Number) : Option Ordering :=
  match a, b with
  | .int m, .int n => some (compare m n)
  | .int m, .real y => compareIntFloat m y
  | .real x, .int n => (compareIntFloat n x).map Ordering.swap
  | .real x, .real y =>
    if x < y then some .lt else if y < x then some .gt else if x == y then some .eq else none

/-- The integer part. -/
def integerPart : Number → Except Fault Int
  | .int n => .ok n
  | .real x =>
    match classify x with
    | .finite d => .ok d.truncate
    | .infinite _ => .error .integerOfInfinity
    | .nan => .error .integerOfNan

/-- The greatest integer not above the number, zero where there is none. -/
def floor : Number → Int
  | .int n => n
  | .real x =>
    match classify x with
    | .finite d => d.floor
    | _ => 0

/-- Whether the value is an integer. -/
def isWhole : Number → Bool
  | .int _ => true
  | .real x =>
    match classify x with
    | .finite d => d.isInteger
    | _ => false

/-- The shortest numeral; a float always shows that it is one. -/
def text : Number → Text
  | .int n => Text.ofInt n
  | .real x => floatText x

/-- The numeral in a script: an integer below ten to the fifteenth has no point. -/
def scriptText : Number → Text
  | .int n => Text.ofInt n
  | .real x =>
    match classify x with
    | .finite d =>
      if d.isInteger ∧ d.truncate.natAbs < tenTo 15 then Text.ofInt d.truncate else floatText x
    | _ => floatText x

/-- The numeral with exactly two places. -/
def placesText : Number → Text
  | .int n => Text.ofInt n ++ (".00" : Text)
  | .real x =>
    match classify x with
    | .finite d => Number.twoPlaces d
    | _ => floatText x

/-- The float of a decimal constant. -/
def ofDecimal (digits : Int) (places : Nat) : Float :=
  nearestFloat (decide (digits < 0)) digits.natAbs (tenTo places)

instance : Arith Number where
  ofInt := .int
  ofDecimal digits places := .real (ofDecimal digits places)
  add := combine (· + ·) (· + ·)
  sub := combine (· - ·) (· - ·)
  mul := combine (· * ·) (· * ·)
  div := quotient
  lt a b := a.order b == some .lt
  le a b := a.order b == some .lt || a.order b == some .eq
  same a b := a.order b == some .eq
  toReal a := a.toFloat.map .real
  isFinite
    | .int _ => true
    | .real x => x.isFinite
  isWhole := isWhole
  floorHalf
    | .int n => n
    | .real x => (Number.real (x + 0.5)).floor
  truncate := integerPart
  ofNumeral? t := (readReal? t).map fun r => .real r.toFloat
  numeral := text
  scriptNumeral := scriptText
  twoPlaces := placesText

end Number

end LayoutDesigner
