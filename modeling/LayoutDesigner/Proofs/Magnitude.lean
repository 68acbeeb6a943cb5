import LayoutDesigner.Number
import LayoutDesigner.Proofs.Edit
import Mathlib.Algebra.Order.Ring.Int
import Mathlib.Data.Nat.Log
import Mathlib.Tactic.Positivity.Finset

/-!
# Numbers that fit

An operation on numbers fails only where an integer is beyond the reals or a divisor is zero. So
operations on numbers that fit return, and what takes part in them as a real makes the outcome one.
The laws are stated for any numbers and hold of integers mixed with binary floats.
-/

namespace LayoutDesigner

namespace Arith

variable {α : Type} [Arith α]

/-- There is a real for the number. -/
def Fits (a : α) : Prop := ∃ r, toReal a = .ok r

instance {a : α} : Decidable (Fits a) :=
  decidable_of_iff ((toReal a).toOption.isSome = true) (by unfold Fits; cases toReal a <;> simp [Except.toOption])

/-- The number is a real. -/
def IsReal (a : α) : Prop := toReal a = .ok a

/-- A real fits. -/
theorem IsReal.fits {a : α} (isReal : IsReal a) : Fits a := ⟨a, isReal⟩

/-- What is known of operations on numbers that fit. -/
class Lawful (α : Type) [Arith α] : Prop where
  isReal_toReal {a r : α} : toReal a = .ok r → IsReal r
  isReal_ofDecimal (digits : Int) (places : Nat) : IsReal (ofDecimal digits places : α)
  isReal_ofNumeral {t : Text} {a : α} : ofNumeral? t = some a → IsReal a
  fits_ofInt {n : Int} : n.natAbs ≤ 2 ^ 53 → Fits (ofInt n : α)
  fits_floorHalf {a : α} : IsReal a → Fits (ofInt (floorHalf a) : α)
  add_ok {a b : α} : Fits a → Fits b → ∃ c, add a b = .ok c
  sub_ok {a b : α} : Fits a → Fits b → ∃ c, sub a b = .ok c
  mul_ok {a b : α} : Fits a → Fits b → ∃ c, mul a b = .ok c
  isReal_add {a b c : α} : add a b = .ok c → IsReal a ∨ IsReal b → IsReal c
  isReal_sub {a b c : α} : sub a b = .ok c → IsReal a ∨ IsReal b → IsReal c
  isReal_mul {a b c : α} : mul a b = .ok c → IsReal a ∨ IsReal b → IsReal c
  isReal_div {a b c : α} : div a b = .ok c → IsReal c

end Arith

namespace Number

/-- The greatest float. -/
def greatest : Nat := (twoTo 53 - 1) * twoTo 971

/-- A power of two is positive. -/
theorem twoTo_pos (n : Nat) : 0 < twoTo n := Nat.pow_pos (by decide)

/-- The power of a sum is the product of the powers. -/
theorem twoTo_add (m n : Nat) : twoTo (m + n) = twoTo m * twoTo n := Nat.pow_add 2 m n

/-- Powers of two grow with their exponents. -/
theorem twoTo_le {m n : Nat} (le : m ≤ n) : twoTo m ≤ twoTo n := Nat.pow_le_pow_right (by decide) le

/-- A quotient that is exact is not rounded. -/
theorem roundQuotient_of_dvd {num den : Nat} (positive : 0 < den) (exact : num % den = 0) :
    roundQuotient num den = num / den := by
  rw [roundQuotient, exact, if_pos (by omega)]

/-- Rounding a quotient adds one at most. -/
theorem roundQuotient_le (num den : Nat) : roundQuotient num den ≤ num / den + 1 := by
  rw [roundQuotient]
  split_ifs <;> omega

/-- The last bit of an integer is fifty-two below its first. -/
theorem lastBit_one {num : Nat} (positive : num ≠ 0) : lastBit num 1 = (num.log2 : Int) - 52 := by
  have first : ¬num < twoTo num.log2 := not_lt.mpr (Nat.log2_self_le positive)
  have guess : ((num.log2 : Int) - (Nat.log2 1 : Int)) = num.log2 := Int.sub_zero _
  simp only [lastBit, guess, Int.natCast_nonneg, if_true, Int.toNat_natCast, Nat.one_mul, first]
  simp only [decide_false, Bool.false_eq_true, if_false]
  omega

/-- The greatest number is below the power that has no mantissa. -/
theorem greatest_lt : greatest < twoTo (53 + 971) := by
  rw [twoTo_add, greatest]
  exact Nat.mul_lt_mul_of_pos_right (Nat.sub_lt (twoTo_pos 53) (by decide)) (twoTo_pos 971)

/-- No number up to the greatest has more than 1024 binary places. -/
theorem log2_lt {num : Nat} (bounded : num ≤ greatest) (positive : num ≠ 0) : num.log2 < 1024 := by
  by_contra large
  have power : twoTo (53 + 971) ≤ num := (twoTo_le (not_lt.mp large)).trans (Nat.log2_self_le positive)
  exact absurd (power.trans bounded) (not_le.mpr greatest_lt)

/-- An integer up to the greatest float has a mantissa that needs no further exponent than floats
have. -/
theorem mantissa_bounds {num : Nat} (bounded : num ≤ greatest) (positive : num ≠ 0) :
    let exponent := lastBit num 1
    let mantissa :=
      if 0 ≤ exponent then roundQuotient num (1 * twoTo exponent.toNat)
      else roundQuotient (num * twoTo (-exponent).toNat) 1
    exponent ≤ 971 ∧ mantissa ≤ twoTo 53 ∧ (exponent = 971 → mantissa < twoTo 53) := by
  have few := log2_lt bounded positive
  have upper : num < twoTo (num.log2 + 1) := Nat.lt_log2_self
  simp only [lastBit_one positive, Nat.one_mul]
  refine ⟨by omega, ?_, ?_⟩
  · split
    · next notNegative =>
        refine (roundQuotient_le _ _).trans ?_
        rw [Nat.succ_le_iff, Nat.div_lt_iff_lt_mul (twoTo_pos _), ← twoTo_add]
        refine lt_of_lt_of_le upper (twoTo_le ?_)
        omega
    · next negative =>
        rw [roundQuotient_of_dvd Nat.one_pos (Nat.mod_one _), Nat.div_one]
        have whole : twoTo 53 = twoTo (num.log2 + 1) * twoTo (-((num.log2 : Int) - 52)).toNat := by
          rw [← twoTo_add]
          congr 1
          omega
        rw [whole]
        exact Nat.mul_le_mul_right _ upper.le
  · intro isLast
    rw [if_pos (by omega), isLast]
    change roundQuotient num (twoTo 971) < twoTo 53
    rcases Nat.lt_or_ge (num / twoTo 971) (twoTo 53 - 1) with less | most
    · refine lt_of_le_of_lt (roundQuotient_le num (twoTo 971)) ?_
      exact Nat.lt_sub_iff_add_lt.mp less
    · have isGreatest : num = greatest := by
        refine le_antisymm bounded ?_
        exact (Nat.mul_le_mul_right _ most).trans (Nat.div_mul_le_self num (twoTo 971))
      rw [isGreatest, greatest, roundQuotient_of_dvd (twoTo_pos 971) (Nat.mul_mod_left _ _),
        Nat.mul_div_cancel _ (twoTo_pos 971)]
      exact Nat.sub_lt (twoTo_pos 53) (by decide)

/-- Integers up to the greatest float have a finite float nearest to them. -/
theorem nearestBits_lt {num : Nat} (bounded : num ≤ greatest) :
    nearestBits num 1 < 0x7FF * twoTo 52 := by
  rw [nearestBits]
  by_cases isZero : num = 0
  · rw [if_pos isZero]
    exact Nat.mul_pos (by decide) (twoTo_pos 52)
  · rw [if_neg isZero]
    obtain ⟨small, mantissaSmall, last⟩ := mantissa_bounds bounded isZero
    dsimp only at small mantissaSmall last ⊢
    generalize (if 0 ≤ lastBit num 1 then roundQuotient num (1 * twoTo (lastBit num 1).toNat)
      else roundQuotient (num * twoTo (-lastBit num 1).toNat) 1) = mantissa at mantissaSmall last ⊢
    generalize lastBit num 1 = exponent at small last ⊢
    have twice : twoTo 53 = twoTo 52 * 2 := twoTo_add 52 1
    have positive := twoTo_pos 52
    by_cases carry : mantissa = twoTo 53
    · have notLast : exponent ≠ 971 := fun isLast => (last isLast).ne carry
      rw [if_pos carry]
      dsimp only
      rw [if_neg (by omega), if_neg (by omega), Nat.sub_self, Nat.add_zero]
      exact Nat.mul_lt_mul_of_pos_right (by omega) positive
    · rw [if_neg carry]
      dsimp only
      rw [if_neg (by omega)]
      split
      · next short => exact lt_of_lt_of_le short (Nat.le_mul_of_pos_left _ (by decide))
      · next long =>
          have exponentSmall : (exponent + 1075).toNat * twoTo 52 ≤ 2046 * twoTo 52 :=
            Nat.mul_le_mul_right _ (by omega)
          generalize (exponent + 1075).toNat * twoTo 52 = high at exponentSmall ⊢
          generalize twoTo 52 = unit at *
          omega

/-- An integer up to the greatest number fits. -/
theorem fits_int {n : Int} (bounded : n.natAbs ≤ greatest) : Arith.Fits (Number.int n) := by
  have finite : ¬nearestBits n.natAbs 1 ≥ 0x7FF * twoTo 52 := not_le.mpr (nearestBits_lt bounded)
  have found : floatOfInt? n = some (Float.ofBits (UInt64.ofNat
      (nearestBits n.natAbs 1 + if n < 0 then twoTo 63 else 0))) := by
    rw [floatOfInt?, if_neg finite]
  exact ⟨.real _, by simp only [Arith.toReal, toFloat, found]; rfl⟩

/-- What a float holds is no greater than the greatest float. -/
theorem numerator_le {x : Float} {d : Dyadic} (finite : classify x = .finite d) :
    d.numerator ≤ greatest := by
  have fraction : x.toBits.toNat % twoTo 52 < twoTo 52 := Nat.mod_lt _ (twoTo_pos 52)
  have exponent : x.toBits.toNat / twoTo 52 % twoTo 11 < 2048 := Nat.mod_lt _ (by decide)
  have twice : twoTo 53 = twoTo 52 * 2 := twoTo_add 52 1
  rw [classify] at finite
  generalize x.toBits.toNat % twoTo 52 = low at fraction finite
  generalize x.toBits.toNat / twoTo 52 % twoTo 11 = high at exponent finite
  have bound : ∀ {mantissa : Nat} {e : Int}, mantissa < twoTo 53 → e ≤ 971 →
      mantissa * twoTo e.toNat ≤ greatest := by
    intro mantissa e small eSmall
    exact Nat.mul_le_mul (by omega) (twoTo_le (by omega))
  split_ifs at finite with special zero
  · obtain rfl := FloatClass.finite.inj finite
    have small : low < twoTo 53 := by omega
    exact bound small (by norm_num)
  · obtain rfl := FloatClass.finite.inj finite
    have small : low + twoTo 52 < twoTo 53 := by omega
    have exponentSmall : (high : Int) - 1075 ≤ 971 := by omega
    exact bound small exponentSmall

/-- The integer part of a dyadic number is no larger than its numerator. -/
theorem natAbs_floor_le (d : Dyadic) : d.floor.natAbs ≤ d.numerator := by
  refine (Int.natAbs_ediv_le_natAbs _ _).trans ?_
  rw [Dyadic.signedNumerator]
  split <;> simp

/-- A float is a real. -/
theorem isReal_real (x : Float) : Arith.IsReal (Number.real x) := rfl

/-- A number that is a real is a float. -/
theorem eq_real_of_isReal {a : Number} (isReal : Arith.IsReal a) : ∃ x, a = .real x := by
  cases a with
  | real x => exact ⟨x, rfl⟩
  | int n =>
      simp only [Arith.IsReal, Arith.toReal, toFloat] at isReal
      cases found : floatOfInt? n with
      | none => simp [found, Except.map] at isReal
      | some x => simp [found, Except.map] at isReal

/-- A number that fits has a float. -/
theorem exists_toFloat {a : Number} (fits : Arith.Fits a) : ∃ x, a.toFloat = .ok x := by
  obtain ⟨r, isReal⟩ := fits
  cases found : a.toFloat with
  | ok x => exact ⟨x, rfl⟩
  | error fault => simp [Arith.toReal, found, Except.map] at isReal

section

variable {onInts : Int → Int → Int} {onFloats : Float → Float → Float} {a b c : Number}

/-- Numbers that fit can be combined. -/
theorem combine_ok (left : Arith.Fits a) (right : Arith.Fits b) :
    ∃ c, combine onInts onFloats a b = .ok c := by
  obtain ⟨x, isLeft⟩ := exists_toFloat left
  obtain ⟨y, isRight⟩ := exists_toFloat right
  cases a with
  | real x => exact ⟨.real (onFloats x y), by simp only [combine, isRight]; rfl⟩
  | int m =>
      cases b with
      | int n => exact ⟨.int (onInts m n), rfl⟩
      | real y => exact ⟨.real (onFloats x y), by simp only [combine, isLeft]; rfl⟩

/-- What is combined of two numbers is a real where one of them is. -/
theorem isReal_combine (done : combine onInts onFloats a b = .ok c)
    (takesPart : Arith.IsReal a ∨ Arith.IsReal b) : Arith.IsReal c := by
  have floats : ∀ {left right : Except Fault Float},
      (do let x ← left; let y ← right; return Number.real (onFloats x y)) = .ok c →
        Arith.IsReal c := by
    intro left right done
    obtain ⟨x, -, rest⟩ := bind_eq_ok.mp done
    obtain ⟨y, -, last⟩ := bind_eq_ok.mp rest
    obtain rfl := Except.ok.inj last
    exact isReal_real _
  cases a with
  | real x => exact floats done
  | int m =>
      cases b with
      | real y => exact floats done
      | int n =>
          rcases takesPart with isReal | isReal <;> obtain ⟨x, same⟩ := eq_real_of_isReal isReal <;>
            cases same

end

/-- A quotient is a real. -/
theorem isReal_quotient {a b c : Number} (done : quotient a b = .ok c) : Arith.IsReal c := by
  have floats : ∀ {left right : Except Fault Float},
      (do
        let x ← left
        let y ← right
        if y == 0 then .error .divisionByZero else return Number.real (x / y)) = .ok c →
          Arith.IsReal c := by
    intro left right done
    obtain ⟨x, -, rest⟩ := bind_eq_ok.mp done
    obtain ⟨y, -, last⟩ := bind_eq_ok.mp rest
    split_ifs at last
    obtain rfl := Except.ok.inj last
    exact isReal_real _
  cases a with
  | real x => exact floats done
  | int m =>
      cases b with
      | real y => exact floats done
      | int n =>
          simp only [quotient] at done
          split_ifs at done
          obtain rfl := Except.ok.inj done
          exact isReal_real _

instance : Arith.Lawful Number where
  isReal_toReal {a r} done := by
    simp only [Arith.toReal] at done
    cases found : a.toFloat with
    | error fault => simp [found, Except.map] at done
    | ok x =>
        rw [found] at done
        obtain rfl := Except.ok.inj done
        exact isReal_real _
  isReal_ofDecimal _ _ := isReal_real _
  isReal_ofNumeral {t a} done := by
    obtain ⟨r, -, rfl⟩ := Option.map_eq_some_iff.mp done
    exact isReal_real _
  fits_ofInt {n} small := by
    refine fits_int (small.trans ?_)
    have wide : twoTo 53 ≤ (twoTo 53 - 1) * 2 := by decide
    exact wide.trans (Nat.mul_le_mul_left _ (twoTo_le (by decide : 1 ≤ 971)))
  fits_floorHalf {a} isReal := by
    obtain ⟨x, rfl⟩ := eq_real_of_isReal isReal
    refine fits_int ?_
    simp only [Arith.floorHalf, floor]
    split
    · next d finite => exact (natAbs_floor_le d).trans (numerator_le finite)
    · exact Nat.zero_le _
  add_ok := combine_ok
  sub_ok := combine_ok
  mul_ok := combine_ok
  isReal_add := isReal_combine
  isReal_sub := isReal_combine
  isReal_mul := isReal_combine
  isReal_div := isReal_quotient

end Number

end LayoutDesigner
