import LayoutDesigner.Proofs.Measured

/-!
# Arithmetic that keeps integers and decimals

Where every number is a real and nothing is rounded, a number of a document is read as what it is, or
as the default where it is not finite. The rationals are such numbers, and so are the rationals
together with the infinities and with what is no number.
-/

namespace LayoutDesigner

variable {α : Type} [Arith α]

namespace Arith

/-- Integers are ordered as integers. -/
class OrdersInts (α : Type) [Arith α] : Prop where
  lt_ofInt (m n : Int) : lt (ofInt m : α) (ofInt n) = decide (m < n)

instance : OrdersInts Number where
  lt_ofInt m n := by
    change (some (compare m n) == some .lt) = decide (m < n)
    rw [Bool.eq_iff_iff]
    simp [Int.compare_eq_lt]

section

variable [OrdersInts α]

/-- Different integers are different numbers. -/
theorem ofInt_inj {m n : Int} : (ofInt m : α) = ofInt n ↔ m = n := by
  refine ⟨fun same => ?_, fun same => same ▸ rfl⟩
  have below := OrdersInts.lt_ofInt (α := α) m n
  have above := OrdersInts.lt_ofInt (α := α) n m
  have irreflexive := OrdersInts.lt_ofInt (α := α) m m
  rw [← same] at below above
  rw [irreflexive] at below above
  simp only [lt_self_iff_false, decide_false, Bool.false_eq, decide_eq_false_iff_not, not_lt] at below above
  omega

/-- An integer is clamped as integers are. -/
theorem clamp_ofInt (v low high : Int) :
    clamp (ofInt v : α) (ofInt low) (ofInt high) = ofInt (Max.max low (Min.min high v)) := by
  have lesser : Arith.min (ofInt high : α) (ofInt v) = ofInt (Min.min high v) := by
    simp only [Arith.min, OrdersInts.lt_ofInt, decide_eq_true_eq]
    split <;> congr 1 <;> omega
  rw [clamp, lesser, Arith.max, OrdersInts.lt_ofInt]
  simp only [decide_eq_true_eq]
  split <;> congr 1 <;> omega

end

/-- Integers are known as whole as well. -/
class KnowsInts (α : Type) [Arith α] : Prop extends OrdersInts α where
  isWhole_ofInt (n : Int) : isWhole (ofInt n : α)

instance : KnowsInts Number where
  isWhole_ofInt _ := rfl

/-- Every number is a real, and integers and decimals are kept as they are. -/
class Faithful (α : Type) [Arith α] : Prop extends Lawful α, OrdersInts α where
  toReal_eq (a : α) : toReal a = .ok a
  isFinite_ofInt (n : Int) : isFinite (ofInt n : α)
  isFinite_ofDecimal (digits : Int) (places : Nat) : isFinite (ofDecimal digits places : α)
  lt_ofDecimal (m n : Int) (p q : Nat) :
    lt (ofDecimal m p : α) (ofDecimal n q) = decide (m * 10 ^ q < n * 10 ^ p)
  isWhole_ofInt (n : Int) : isWhole (ofInt n : α)
  floorHalf_ofInt (n : Int) : floorHalf (ofInt n : α) = n
  numeral_ne_nil (a : α) : numeral a ≠ []

instance [Faithful α] : KnowsInts α where
  isWhole_ofInt := Faithful.isWhole_ofInt

/-- Every number has a numeral. -/
class HasNumerals (α : Type) [Arith α] : Prop where
  numeral_ne_nil (a : α) : numeral a ≠ []

instance [Faithful α] : HasNumerals α where
  numeral_ne_nil := Faithful.numeral_ne_nil

/-- The number is finite, and keeping it between zero and one leaves it as it is. -/
def IsFraction (v : α) : Prop := isFinite v ∧ clamp v zero one = v

variable [Faithful α] {v : α}

/-- Where arithmetic is faithful, each number fits. -/
theorem fits (v : α) : Fits v := ⟨v, Faithful.toReal_eq v⟩

/-- Zero is less than one. -/
theorem zero_lt_one : lt (zero : α) one = true := by
  rw [zero, one, Faithful.lt_ofDecimal]
  decide

/-- One is a fraction. -/
theorem isFraction_one : IsFraction (one : α) := by
  refine ⟨Faithful.isFinite_ofDecimal 1 0, ?_⟩
  simp [clamp, Arith.max, Arith.min, zero_lt_one]

/-- A half is a fraction. -/
theorem isFraction_half : IsFraction (half : α) := by
  have above : lt (zero : α) half = true := by
    rw [zero, half, Faithful.lt_ofDecimal]
    decide
  have below : lt (half : α) one = true := by
    rw [half, one, Faithful.lt_ofDecimal]
    decide
  refine ⟨Faithful.isFinite_ofDecimal 5 1, ?_⟩
  simp [clamp, Arith.max, Arith.min, above, below]

/-- A finite number that was kept between zero and one. -/
theorem isFraction_clamp (finite : isFinite v) : IsFraction (clamp v zero one) := by
  have notSelf : ∀ digits : Int, lt (ofDecimal digits 0 : α) (ofDecimal digits 0) = false := fun digits => by
    simp [Faithful.lt_ofDecimal]
  have zeroFinite : isFinite (zero : α) := Faithful.isFinite_ofDecimal 0 0
  have oneFinite : isFinite (one : α) := Faithful.isFinite_ofDecimal 1 0
  have zeroLeast : lt (zero : α) zero = false := notSelf 0
  by_cases below : lt v one
  · by_cases above : lt zero v
    · have same : clamp v zero one = v := by simp [clamp, Arith.max, Arith.min, below, above]
      rw [same]
      exact ⟨finite, same⟩
    · have least : clamp v zero one = zero := by simp [clamp, Arith.max, Arith.min, below, above]
      rw [least]
      exact ⟨zeroFinite, by simp [clamp, Arith.max, Arith.min, zero_lt_one, zeroLeast]⟩
  · have most : clamp v zero one = one := by simp [clamp, Arith.max, Arith.min, below, zero_lt_one]
    rw [most]
    exact isFraction_one

end Arith

open Arith

variable [Faithful α]

/-- The measures of every typed node fit. -/
theorem Node.isMeasured_of_plain {n : Node α} (plain : n.unchecked = []) : n.IsMeasured :=
  ⟨plain, Faithful.toReal_eq _, Faithful.toReal_eq _, fits _, fits _, fits _, fits _⟩

/-- A number is read as itself if it is finite, and else as the default. -/
theorem Value.toNumber_num (a default : α) :
    (Value.num a).toNumber (.num default) = .ok (if isFinite a then a else default) := by
  simp only [Value.toNumber, Value.asReal, Faithful.toReal_eq]
  split <;> rfl

/-- What is read with a finite default is finite. -/
theorem Value.isFinite_toNumber {v : Value α} {default x : α} (finite : isFinite default)
    (read : v.toNumber (.num default) = .ok x) : isFinite x := by
  have fallback : ∀ {y : α}, (Value.num default).asReal = .ok y → isFinite y := by
    intro y read
    rw [Value.asReal, Faithful.toReal_eq] at read
    exact Except.ok.inj read ▸ finite
  rw [Value.toNumber.eq_def] at read
  split at read
  · next b =>
      obtain rfl := Except.ok.inj read
      cases b <;> exact Faithful.isFinite_ofDecimal _ 0
  · split at read
    · split at read
      · next isFinite => exact Except.ok.inj read ▸ isFinite
      · exact fallback read
    · exact fallback read
    · exact fallback read
    · cases read

end LayoutDesigner
