import LayoutDesigner.Text
import Mathlib.Data.List.Basic

/-!
# Numerals of integers

An integer can be read back from its numeral, and a numeral holds nothing but digits and a minus
sign.
-/

namespace LayoutDesigner

/-- Different characters are different code points. -/
theorem CodePoint.ofChar_injective : Function.Injective CodePoint.ofChar := by
  intro a b same
  apply Char.ext
  have sameCode : (CodePoint.ofChar a).val = (CodePoint.ofChar b).val := congrArg Fin.val same
  exact UInt32.toNat_inj.mp sameCode

namespace Text

/-- Different strings are different texts. -/
theorem ofString_injective : Function.Injective ofString := by
  intro a b same
  exact String.toList_inj.mp (List.map_injective_iff.mpr CodePoint.ofChar_injective same)

/-- No natural number is written as nothing. -/
theorem ofNat_ne_nil (n : Nat) : ofNat n ≠ [] := by
  intro none
  have digits : (toString n).toList = [] := List.map_eq_nil_iff.mp none
  simp at digits

/-- No integer is written as nothing. -/
theorem ofInt_ne_nil (n : Int) : ofInt n ≠ [] := by
  cases n with
  | ofNat n => exact ofNat_ne_nil n
  | negSucc n => simp [ofInt, ofNat_ne_nil]

/-- Different natural numbers have different numerals. -/
theorem ofNat_injective : Function.Injective ofNat := by
  intro m n same
  have digits : Nat.toDigits 10 m = Nat.toDigits 10 n := by
    simpa using congrArg String.toList (ofString_injective same)
  simpa using congrArg (fun digits => Nat.ofDigitChars 10 digits 0) digits

/-- A numeral of a natural number is made of digits. -/
theorem mem_ofNat {n : Nat} {c : CodePoint} (member : c ∈ ofNat n) : c.isAsciiDigit := by
  obtain ⟨digit, isDigit, rfl⟩ := List.mem_map.mp member
  have decimal : digit.isDigit := by
    refine Nat.isDigit_of_mem_toDigits (b := 10) (n := n) (by omega) (by omega) ?_
    simpa using isDigit
  simp only [Char.isDigit, Bool.and_eq_true, decide_eq_true_eq] at decimal
  obtain ⟨low, high⟩ := decimal
  have low' : 48 ≤ digit.toNat := UInt32.le_iff_toNat_le.mp low
  have high' : digit.toNat ≤ 57 := UInt32.le_iff_toNat_le.mp high
  simp [CodePoint.isAsciiDigit, CodePoint.ofChar, low', high']

/-- The characters of an integer's numeral. -/
theorem mem_ofInt {n : Int} {c : CodePoint} (member : c ∈ ofInt n) :
    c.isAsciiDigit ∨ c = ('-' : Char) := by
  cases n with
  | ofNat n => exact .inl (mem_ofNat member)
  | negSucc n =>
      rcases List.mem_append.mp member with sign | digit
      · exact .inr (List.mem_singleton.mp sign)
      · exact .inl (mem_ofNat digit)

/-- Different integers have different numerals. -/
theorem ofInt_injective : Function.Injective ofInt := by
  -- The numeral of a natural number has no minus sign.
  have unsigned : ∀ m n : Nat, ofNat m ≠ "-" ++ ofNat n := by
    intro m n same
    have sign : ((ofString "-").head (by decide)) ∈ ofNat m := by simp [same, ofString]
    exact absurd (mem_ofNat sign) (by decide)
  intro m n same
  cases m with
  | ofNat m =>
      cases n with
      | ofNat n => exact congrArg Int.ofNat (ofNat_injective same)
      | negSucc n => exact absurd same (unsigned m (n + 1))
  | negSucc m =>
      cases n with
      | ofNat n => exact absurd same.symm (unsigned n (m + 1))
      | negSucc n =>
          have next : m + 1 = n + 1 := ofNat_injective (List.append_cancel_left same)
          exact congrArg Int.negSucc (Nat.succ.inj next)

end Text

end LayoutDesigner
