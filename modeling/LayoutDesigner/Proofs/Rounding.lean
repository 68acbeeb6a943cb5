import Mathlib.Algebra.Order.Round
import Mathlib.Data.Rat.Floor
import Mathlib.Tactic.Linarith

/-!
# Rounding into a range

A number is rounded half up and then kept in a range. The ends of the range are not rounded, so what
comes out is an integer or an end. When it is rounded into the range again an integer stays, and an end
stays where rounding it leads out of the range.
-/

namespace LayoutDesigner

/-- The number is an integer. -/
def IsWhole (v : ℚ) : Prop := ∃ k : ℤ, v = k

/-- A number, rounded half up and kept between two ends. -/
def roundedInto (low high v : ℚ) : ℚ := max low (min high ⌊v + 1 / 2⌋)

/-- The numbers of a range that rounding into it leaves alone: the integers, the lower end where it is
rounded down and the upper end where it is rounded up. -/
inductive Rests (low high v : ℚ) : Prop where
  | whole (isWhole : IsWhole v)
  | atLow (isLow : v = low) (down : Int.fract v < 1 / 2)
  | atHigh (isHigh : v = high) (up : 1 / 2 ≤ Int.fract v)

variable {low high v w : ℚ}

/-- A whole number has no fraction. -/
theorem IsWhole.fract_eq_zero (whole : IsWhole v) : Int.fract v = 0 := by
  obtain ⟨k, rfl⟩ := whole
  exact Int.fract_intCast k

/-- Rounding into bounds is rounding to the nearest integer and then clamping. -/
theorem roundedInto_eq_round (low high v : ℚ) : roundedInto low high v = max low (min high (round v)) := by
  rw [roundedInto, round_eq]

/-- Rounding keeps the order. -/
theorem round_mono (le : v ≤ w) : round v ≤ round w := by
  rw [round_eq, round_eq]
  exact Int.floor_mono (by linarith)

/-- Rounding goes down below the half. -/
theorem round_le_iff : (round v : ℚ) ≤ v ↔ Int.fract v < 1 / 2 := by
  rw [round]
  split
  · next down => exact iff_of_true (Int.floor_le v) (by linarith)
  · next up =>
      refine iff_of_false (fun under => ?_) (by linarith)
      have whole : IsWhole v := ⟨⌈v⌉, le_antisymm (Int.le_ceil v) under⟩
      rw [whole.fract_eq_zero] at up
      norm_num at up

/-- Rounding goes up from the half on. -/
theorem le_round_of_half_le_fract (up : 1 / 2 ≤ Int.fract v) : v ≤ round v := by
  rw [round, if_neg (by linarith)]
  exact Int.le_ceil v

/-- What is rounded into bounds is not below the low one. -/
theorem low_le_roundedInto : low ≤ roundedInto low high v := le_max_left ..

/-- What is rounded into bounds that are in order is not above the high one. -/
theorem roundedInto_le (ordered : low ≤ high) : roundedInto low high v ≤ high :=
  max_le ordered (min_le_left ..)

/-- What rounding into a range gives is left alone by rounding into the range, if the number was in
it: then no end is reached but by rounding towards it. -/
theorem rests_roundedInto (above : low ≤ v) (below : v ≤ high) : Rests low high (roundedInto low high v) := by
  rw [roundedInto_eq_round]
  rcases le_or_gt (round v : ℚ) low with under | past
  · rw [max_eq_left ((min_le_right ..).trans under)]
    have monotone : (round low : ℚ) ≤ round v := by exact_mod_cast round_mono above
    exact .atLow rfl (round_le_iff.mp (monotone.trans under))
  · rcases le_or_gt high (round v : ℚ) with beyond | inside
    · rw [min_eq_left beyond, max_eq_right (above.trans below)]
      have monotone : (round v : ℚ) ≤ round high := by exact_mod_cast round_mono below
      by_cases down : Int.fract high < 1 / 2
      · exact .whole ⟨round high, le_antisymm (beyond.trans monotone) (round_le_iff.mpr down)⟩
      · exact .atHigh rfl (not_lt.mp down)
    · rw [min_eq_right inside.le, max_eq_right past.le]
      exact .whole ⟨round v, rfl⟩

/-- A number of the range is left alone exactly where it rests. -/
theorem roundedInto_eq_self_iff (above : low ≤ v) (below : v ≤ high) :
    roundedInto low high v = v ↔ Rests low high v := by
  constructor
  · intro same
    exact same ▸ rests_roundedInto above below
  · intro rests
    rw [roundedInto_eq_round]
    cases rests with
    | whole isWhole =>
        obtain ⟨k, rfl⟩ := isWhole
        rw [round_intCast, min_eq_right below, max_eq_right above]
    | atLow isLow down =>
        subst isLow
        exact max_eq_left ((min_le_right ..).trans (round_le_iff.mpr down))
    | atHigh isHigh up =>
        subst isHigh
        rw [min_eq_left (le_round_of_half_le_fract up), max_eq_right above]

/-- Rounding into a range a number of it moves it by a half at most. -/
theorem abs_roundedInto_sub_le (above : low ≤ v) (below : v ≤ high) : |roundedInto low high v - v| ≤ 1 / 2 := by
  have near := abs_le.mp (abs_sub_round v)
  rw [roundedInto_eq_round, abs_le]
  constructor
  · have under : v - 1 / 2 ≤ min high (round v) := le_min (by linarith) (by linarith)
    linarith [le_max_right low (min high (round v : ℚ))]
  · rw [sub_le_iff_le_add]
    exact max_le (by linarith) ((min_le_right ..).trans (by linarith))

/-- Between integer ends the result is an integer. -/
theorem isWhole_roundedInto (low high : ℤ) (v : ℚ) : IsWhole (roundedInto low high v) :=
  ⟨max low (min high ⌊v + 1 / 2⌋), by push_cast [roundedInto]; rfl⟩

/-- An integer of the range stays. -/
theorem IsWhole.roundedInto_eq (whole : IsWhole v) (above : low ≤ v) (below : v ≤ high) :
    roundedInto low high v = v := (roundedInto_eq_self_iff above below).mpr (.whole whole)

end LayoutDesigner
