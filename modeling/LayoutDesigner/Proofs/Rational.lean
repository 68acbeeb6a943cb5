import LayoutDesigner.Number.Numeral
import LayoutDesigner.Proofs.Faithful
import LayoutDesigner.Proofs.Numerals
import Mathlib.Algebra.Order.Floor.Ring
import Mathlib.Data.Rat.Floor

/-!
# Exact arithmetic

Layouts can be measured in rationals. Then nothing is rounded but where a computation asks for the
nearest integer, and nothing that is measured is too large.
-/

namespace LayoutDesigner

namespace Exact

/-- The least number of decimal places with which a rational can be written, if there is one. -/
def places? (q : ℚ) : Option Nat :=
  (List.range (q.den + 1)).find? fun places => 10 ^ places % q.den = 0

/-- A number of units of the last of some decimal places, one at least. -/
def fixed (negative : Bool) (units places : Nat) : Text :=
  let fraction := Text.ofNat (units % 10 ^ places)
  (if negative then ("-" : Text) else []) ++ Text.ofNat (units / 10 ^ places) ++ ("." : Text) ++
    List.replicate (places - fraction.length) ('0' : CodePoint) ++ fraction

/-- A rational as its decimal where that ends, else as a quotient. -/
def text (q : ℚ) : Text :=
  if q.den = 1 then Text.ofInt q.num
  else
    match places? q with
    | some places => fixed (decide (q < 0)) (q * 10 ^ places).num.natAbs places
    | none => Text.ofInt q.num ++ ("/" : Text) ++ Text.ofNat q.den

/-- A rational with exactly two places, a tie going to the even last digit. -/
def twoPlaces (q : ℚ) : Text :=
  fixed (decide (q < 0)) (Number.roundQuotient (q.num.natAbs * 100) q.den) 2

/-- The rational that a numeral stands for; infinity and what is no number are none. -/
def ofReal? : Number.Real → Option ℚ
  | .decimal negative digits exponent =>
    some ((if negative then -(digits : ℚ) else digits) * (10 : ℚ) ^ exponent)
  | .infinite _ => none
  | .nan => none

end Exact

instance : Arith ℚ where
  ofInt n := n
  ofDecimal digits places := digits / 10 ^ places
  add a b := .ok (a + b)
  sub a b := .ok (a - b)
  mul a b := .ok (a * b)
  div a b := if b = 0 then .error .divisionByZero else .ok (a / b)
  lt a b := decide (a < b)
  le a b := decide (a ≤ b)
  same a b := decide (a = b)
  toReal := .ok
  isFinite _ := true
  isWhole a := a.den = 1
  floorHalf a := ⌊a + 1 / 2⌋
  truncate a := .ok (a.num.tdiv a.den)
  ofNumeral? t := (Number.readReal? t).bind Exact.ofReal?
  numeral := Exact.text
  scriptNumeral a := if a.den = 1 ∧ a.num.natAbs < 10 ^ 15 then Text.ofInt a.num else Exact.text a
  twoPlaces := Exact.twoPlaces

instance : Arith.Lawful ℚ where
  isReal_toReal _ := rfl
  isReal_ofDecimal _ _ := rfl
  isReal_ofNumeral _ := rfl
  fits_ofInt _ := ⟨_, rfl⟩
  fits_floorHalf _ := ⟨_, rfl⟩
  add_ok _ _ := ⟨_, rfl⟩
  sub_ok _ _ := ⟨_, rfl⟩
  mul_ok _ _ := ⟨_, rfl⟩
  isReal_add _ _ := rfl
  isReal_sub _ _ := rfl
  isReal_mul _ _ := rfl
  isReal_div _ := rfl

namespace Exact

variable {a b v low high : ℚ} {n : Int}

@[simp] theorem ofInt_eq (n : Int) : (Arith.ofInt n : ℚ) = n := rfl

@[simp] theorem floorHalf_eq (a : ℚ) : Arith.floorHalf a = ⌊a + 1 / 2⌋ := rfl

@[simp] theorem add_eq (a b : ℚ) : Arith.add a b = .ok (a + b) := rfl

@[simp] theorem sub_eq (a b : ℚ) : Arith.sub a b = .ok (a - b) := rfl

@[simp] theorem mul_eq (a b : ℚ) : Arith.mul a b = .ok (a * b) := rfl

@[simp] theorem zero_eq : (Arith.zero : ℚ) = 0 := by
  simp [Arith.zero, Arith.ofDecimal]

@[simp] theorem one_eq : (Arith.one : ℚ) = 1 := by
  simp [Arith.one, Arith.ofDecimal]

@[simp] theorem half_eq : (Arith.half : ℚ) = 1 / 2 := by
  norm_num [Arith.half, Arith.ofDecimal]

@[simp] theorem clamp_eq (v low high : ℚ) : Arith.clamp v low high = max low (min high v) := by
  simp only [Arith.clamp, Arith.max, Arith.min, Arith.lt, decide_eq_true_eq]
  rcases lt_or_ge v high with under | beyond
  · rw [if_pos under, min_eq_right under.le]
    rcases lt_or_ge low v with above | below
    · rw [if_pos above, max_eq_right above.le]
    · rw [if_neg (not_lt.mpr below), max_eq_left below]
  · rw [if_neg (not_lt.mpr beyond), min_eq_left beyond]
    rcases lt_or_ge low high with above | below
    · rw [if_pos above, max_eq_right above.le]
    · rw [if_neg (not_lt.mpr below), max_eq_left below]

@[simp] theorem roundHalfUp_eq (a : ℚ) : roundHalfUp a = .ok ⌊a + 1 / 2⌋ := rfl

@[simp] theorem toNumber_num (a : ℚ) (default : Value ℚ) : (Value.num a).toNumber default = .ok a := rfl

/-- The nearest integer to an integer is the integer. -/
@[simp] theorem floor_int_add_half (n : Int) : ⌊(n : ℚ) + 1 / 2⌋ = n := by
  rw [Int.floor_intCast_add]
  norm_num

/-- Every rational has a numeral. -/
theorem text_ne_nil (q : ℚ) : text q ≠ [] := by
  rw [text]
  split
  · exact Text.ofInt_ne_nil q.num
  · split
    · simp [fixed, Text.ofNat_ne_nil]
    · simp [Text.ofNat_ne_nil]

end Exact

instance : Arith.Faithful ℚ where
  lt_ofInt m n := by
    change decide ((m : ℚ) < n) = decide (m < n)
    simp
  toReal_eq _ := rfl
  isFinite_ofInt _ := rfl
  isFinite_ofDecimal _ _ := rfl
  lt_ofDecimal m n p q := by
    have crossed : (m : ℚ) / 10 ^ p < n / 10 ^ q ↔ (m : ℚ) * 10 ^ q < n * 10 ^ p :=
      div_lt_div_iff₀ (by positivity) (by positivity)
    exact decide_eq_decide.mpr (crossed.trans (by exact_mod_cast Iff.rfl))
  isWhole_ofInt n := by simp [Arith.isWhole]
  floorHalf_ofInt := Exact.floor_int_add_half
  numeral_ne_nil := Exact.text_ne_nil

/-- The fractions are what is between zero and one. -/
theorem Exact.isFraction_iff {v : ℚ} : Arith.IsFraction v ↔ 0 ≤ v ∧ v ≤ 1 := by
  simp only [Arith.IsFraction, Exact.clamp_eq, Exact.zero_eq, Exact.one_eq]
  refine ⟨fun ⟨_, same⟩ => ?_, fun ⟨low, high⟩ => ⟨rfl, by rw [min_eq_right high, max_eq_right low]⟩⟩
  rw [← same]
  exact ⟨le_max_left .., max_le zero_le_one (min_le_left ..)⟩

end LayoutDesigner
