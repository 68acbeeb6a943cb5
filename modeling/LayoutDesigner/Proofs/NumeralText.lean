import LayoutDesigner.Proofs.Numerals
import LayoutDesigner.Proofs.Rational

/-!
# What numerals are made of

In a script a number is made of digits, letters, signs, points and bars, whatever the number is. So a
number neither begins a literal nor ends a line.
-/

namespace LayoutDesigner

/-- An ASCII letter, a digit, an underscore, a sign, a point or a bar. -/
def CodePoint.isNumeralPoint (c : CodePoint) : Bool :=
  c.isAsciiWord || c == ('+' : CodePoint) || c == ('-' : CodePoint) || c == ('.' : CodePoint) ||
    c == ('/' : CodePoint)

namespace Text

variable {t rest : Text}

/-- A text of such code points. -/
def IsNumeral (t : Text) : Prop := ∀ c ∈ t, c.isNumeralPoint

instance : Decidable t.IsNumeral := decidable_of_iff (t.all CodePoint.isNumeralPoint) List.all_eq_true

/-- Two numerals together are one. -/
theorem IsNumeral.append (first : t.IsNumeral) (second : rest.IsNumeral) : (t ++ rest).IsNumeral :=
  List.forall_mem_append.mpr ⟨first, second⟩

/-- A part of a numeral is one. -/
theorem IsNumeral.subset (numeral : t.IsNumeral) (part : rest ⊆ t) : rest.IsNumeral :=
  fun c member => numeral c (part member)

/-- A natural number is written as a numeral. -/
theorem isNumeral_ofNat (n : Nat) : (ofNat n).IsNumeral := by
  intro c member
  simp [CodePoint.isNumeralPoint, CodePoint.isAsciiWord, mem_ofNat member]

/-- An integer is written as a numeral. -/
theorem isNumeral_ofInt (n : Int) : (ofInt n).IsNumeral := by
  intro c member
  rcases mem_ofInt member with digit | rfl
  · simp [CodePoint.isNumeralPoint, CodePoint.isAsciiWord, digit]
  · decide

/-- Zeros are a numeral. -/
theorem isNumeral_zeros (count : Nat) : IsNumeral (List.replicate count ('0' : CodePoint)) := by
  intro c member
  rw [List.eq_of_mem_replicate member]
  decide

/-- A choice between numerals is one. -/
theorem isNumeral_ite (condition : Prop) [Decidable condition] (first : t.IsNumeral) (second : rest.IsNumeral) :
    (if condition then t else rest).IsNumeral := by
  split
  · exact first
  · exact second

end Text

/-- The numerals of a script are numerals for all numbers. -/
class Arith.WritesNumerals (α : Type) [Arith α] : Prop where
  isNumeral_numeral (a : α) : (Arith.numeral a).IsNumeral
  isNumeral_scriptNumeral (a : α) : (Arith.scriptNumeral a).IsNumeral
  isNumeral_twoPlaces (a : α) : (Arith.twoPlaces a).IsNumeral

namespace Exact

/-- A number with fixed places is written as a numeral. -/
theorem isNumeral_fixed (negative : Bool) (units places : Nat) : (fixed negative units places).IsNumeral :=
  ((((Text.isNumeral_ite _ (by decide) (by decide)).append (Text.isNumeral_ofNat _)).append (by decide)).append
    (Text.isNumeral_zeros _)).append (Text.isNumeral_ofNat _)

/-- An exact number is written as a numeral. -/
theorem isNumeral_text (q : ℚ) : (text q).IsNumeral := by
  rw [text]
  split
  · exact Text.isNumeral_ofInt _
  · split
    · exact isNumeral_fixed _ _ _
    · exact ((Text.isNumeral_ofInt _).append (by decide)).append (Text.isNumeral_ofNat _)

end Exact

instance : Arith.WritesNumerals ℚ where
  isNumeral_numeral := Exact.isNumeral_text
  isNumeral_scriptNumeral q := by
    change (if q.den = 1 ∧ q.num.natAbs < 10 ^ 15 then Text.ofInt q.num else Exact.text q).IsNumeral
    exact Text.isNumeral_ite _ (Text.isNumeral_ofInt _) (Exact.isNumeral_text q)
  isNumeral_twoPlaces _ := Exact.isNumeral_fixed _ _ _

namespace Number

/-- A decimal number is written as a numeral. -/
theorem isNumeral_write (d : Decimal) : (d.write plainStyle).IsNumeral := by
  have digits : (Text.ofNat d.digits).IsNumeral := Text.isNumeral_ofNat _
  have start (count : Nat) : Text.IsNumeral ((Text.ofNat d.digits).take count) :=
    digits.subset (List.take_subset ..)
  have tail (count : Nat) : Text.IsNumeral ((Text.ofNat d.digits).drop count) :=
    digits.subset (List.drop_subset ..)
  have exponent (e : Int) : (exponentText plainStyle e).IsNumeral :=
    ((Text.isNumeral_ite _ (by decide) (by decide)).append (Text.isNumeral_zeros _)).append
      (Text.isNumeral_ofNat _)
  have fraction : Text.IsNumeral (if ((Text.ofNat d.digits).drop 1).isEmpty then [] else
      ("." : Text) ++ (Text.ofNat d.digits).drop 1) :=
    Text.isNumeral_ite _ (by decide) (Text.IsNumeral.append (by decide) (tail 1))
  simp only [Decimal.write]
  split
  · exact (((start 1).append fraction).append (by decide)).append (exponent _)
  · split
    · exact (digits.append (Text.isNumeral_zeros _)).append (by decide)
    · split
      · exact ((start _).append (by decide)).append (tail _)
      · exact (Text.IsNumeral.append (by decide) (Text.isNumeral_zeros _)).append digits

/-- A float is written as a numeral. -/
theorem isNumeral_floatText (x : Float) : (floatText x).IsNumeral := by
  rw [floatText]
  split
  · decide
  · exact Text.isNumeral_ite _ (by decide) (by decide)
  · next d _ =>
      have sign : (if d.negative then ("-" : Text) else "").IsNumeral :=
        Text.isNumeral_ite _ (by decide) (by decide)
      dsimp only
      split
      · exact (sign.append (by decide)).append (by decide)
      · exact sign.append (isNumeral_write _)

/-- A float to two places is written as a numeral. -/
theorem isNumeral_twoPlaces (d : Dyadic) : (twoPlaces d).IsNumeral :=
  ((((Text.isNumeral_ite _ (by decide) (by decide)).append (Text.isNumeral_ofNat _)).append (by decide)).append
    (Text.isNumeral_ofNat _)).append (Text.isNumeral_ofNat _)

end Number

instance : Arith.WritesNumerals Number where
  isNumeral_numeral a := by
    cases a with
    | int n => exact Text.isNumeral_ofInt n
    | real x => exact Number.isNumeral_floatText x
  isNumeral_scriptNumeral a := by
    change (Number.scriptText a).IsNumeral
    rw [Number.scriptText.eq_def]
    split
    · exact Text.isNumeral_ofInt _
    · split
      · exact Text.isNumeral_ite _ (Text.isNumeral_ofInt _) (Number.isNumeral_floatText _)
      · exact Number.isNumeral_floatText _
  isNumeral_twoPlaces a := by
    change (Number.placesText a).IsNumeral
    rw [Number.placesText.eq_def]
    split
    · exact (Text.isNumeral_ofInt _).append (by decide)
    · split
      · exact Number.isNumeral_twoPlaces _
      · exact Number.isNumeral_floatText _

end LayoutDesigner
