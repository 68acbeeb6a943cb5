import LayoutDesigner.Proofs.Rational

/-!
# Exact arithmetic with infinities

A document can hold the infinities and what is no number, as floats know them. Beside the rationals
these make an arithmetic in which nothing is rounded and nothing a document holds is lost.
-/

namespace LayoutDesigner

/-- A rational, an infinity, or what is no number. -/
inductive Extended where
  | finite (q : ℚ)
  | infinite (negative : Bool)
  | nan
  deriving DecidableEq

namespace Extended

/-- The number is below zero; what is no number is not. -/
def isNegative : Extended → Bool
  | finite q => q < 0
  | infinite negative => negative
  | nan => false

/-- The number with its sign turned. -/
def neg : Extended → Extended
  | finite q => finite (-q)
  | infinite negative => infinite !negative
  | nan => nan

/-- The sum of two numbers; infinities of opposite signs have none. -/
def add : Extended → Extended → Extended
  | finite a, finite b => finite (a + b)
  | infinite s, infinite t => if s = t then infinite s else nan
  | infinite s, finite _ => infinite s
  | finite _, infinite t => infinite t
  | _, _ => nan

/-- The product; that of an infinity and zero is no number. -/
def mul : Extended → Extended → Extended
  | finite a, finite b => finite (a * b)
  | nan, _ => nan
  | _, nan => nan
  | a, b => if a = finite 0 ∨ b = finite 0 then nan else infinite (a.isNegative != b.isNegative)

/-- The quotient; that of two infinities is no number. -/
def div (a b : Extended) : Except Fault Extended :=
  match a, b with
  | _, finite q => if q = 0 then .error .divisionByZero else .ok (mul a (finite q⁻¹))
  | finite _, infinite _ => .ok (finite 0)
  | _, _ => .ok nan

/-- Strictly less; never where an operand is no number. -/
def lt : Extended → Extended → Bool
  | finite a, finite b => a < b
  | infinite s, infinite t => s && !t
  | infinite s, finite _ => s
  | finite _, infinite t => !t
  | _, _ => false

/-- Equal in value; never where an operand is no number. -/
def same (a b : Extended) : Bool := a ≠ nan && a = b

/-- The numeral of a number. -/
def text : Extended → Text
  | finite q => Exact.text q
  | infinite negative => if negative then "-inf" else "inf"
  | nan => "nan"

/-- The number of a numeral. -/
def ofReal : Number.Real → Extended
  | .decimal negative digits exponent =>
    finite ((if negative then -(digits : ℚ) else digits) * (10 : ℚ) ^ exponent)
  | .infinite negative => infinite negative
  | .nan => nan

end Extended

open Extended in
instance : Arith Extended where
  ofInt n := finite n
  ofDecimal digits places := finite (digits / 10 ^ places)
  add a b := .ok (a.add b)
  sub a b := .ok (a.add b.neg)
  mul a b := .ok (a.mul b)
  div := div
  lt := lt
  le a b := a.lt b || a.same b
  same := same
  toReal := .ok
  isFinite
    | finite _ => true
    | _ => false
  isWhole
    | finite q => q.den = 1
    | _ => false
  floorHalf
    | finite q => ⌊q + 1 / 2⌋
    | _ => 0
  truncate
    | finite q => .ok (q.num.tdiv q.den)
    | infinite _ => .error .integerOfInfinity
    | nan => .error .integerOfNan
  ofNumeral? t := (Number.readReal? t).map ofReal
  numeral := text
  scriptNumeral
    | finite q => Arith.scriptNumeral q
    | v => v.text
  twoPlaces
    | finite q => Exact.twoPlaces q
    | v => v.text

namespace Extended

instance : Arith.Lawful Extended where
  isReal_toReal _ := rfl
  isReal_ofDecimal _ _ := rfl
  isReal_ofNumeral _ := rfl
  fits_ofInt _ := ⟨_, rfl⟩
  fits_floorHalf _ := ⟨_, rfl⟩
  add_ok _ _ := ⟨_, rfl⟩
  sub_ok _ _ := ⟨_, rfl⟩
  mul_ok _ _ := ⟨_, rfl⟩
  isReal_add _ _ := rfl
  isReal_sub _ _ := rfl
  isReal_mul _ _ := rfl
  isReal_div _ := rfl

/-- No number is written as nothing. -/
theorem text_ne_nil (v : Extended) : v.text ≠ [] := by
  cases v with
  | finite q => exact Exact.text_ne_nil q
  | infinite negative => cases negative <;> exact List.cons_ne_nil _ _
  | nan => exact List.cons_ne_nil _ _

/-- Integers and decimals are the rationals that they are. -/
instance : Arith.Faithful Extended where
  lt_ofInt := Arith.OrdersInts.lt_ofInt (α := ℚ)
  toReal_eq _ := rfl
  isFinite_ofInt _ := rfl
  isFinite_ofDecimal _ _ := rfl
  lt_ofDecimal := Arith.Faithful.lt_ofDecimal (α := ℚ)
  isWhole_ofInt := Arith.Faithful.isWhole_ofInt (α := ℚ)
  floorHalf_ofInt := Exact.floor_int_add_half
  numeral_ne_nil := text_ne_nil

end Extended

end LayoutDesigner
