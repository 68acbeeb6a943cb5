import LayoutDesigner.Proofs.Housed

/-!
# Clamping again

A node that was clamped is in its parent's box, and its sides stay when it is clamped again. Its place
is rounded again. Where the anchor is held by an end of its range that is no integer, rounding may
lead back into the range; then the node moves once more, by a half at most, and stays there.
-/

namespace LayoutDesigner

namespace Node

variable {n : Node ℚ} {least : ℚ} {room : ℚ × ℚ}

/-- Where the anchor is at an integer of its side, it comes to an integer of the room. -/
theorem isWhole_clamped {width side anchor place : ℚ} (isRoom : IsWhole width) (isSide : IsWhole side)
    (whole : IsWhole (anchor * side)) :
    IsWhole (roundedInto (anchor * side) (width - (1 - anchor) * side) place) := by
  obtain ⟨long, rfl⟩ := isRoom
  obtain ⟨wide, rfl⟩ := isSide
  obtain ⟨low, isLow⟩ := whole
  have isHigh : (long : ℚ) - (1 - anchor) * wide = ((long - wide + low : ℤ) : ℚ) := by
    push_cast
    linarith
  rw [isLow, isHigh]
  exact isWhole_roundedInto ..

/-- A node in a box whose sides are integers rests after it was clamped. -/
theorem boxedFrom_boxedFrom (roomy : HasRoom least room) (housed : n.HousedIn least room) (width : IsWhole n.w)
    (height : IsWhole n.h) : (n.boxedFrom least room).boxedFrom least room = n.boxedFrom least room := by
  have shape := boxedFrom_of_housed housed width height
  refine (boxedFrom_eq_self_iff (housedIn_boxedFrom roomy n) (by rwa [shape]) (by rwa [shape])).mpr ?_
  rw [shape]
  exact ⟨rests_roundedInto housed.x.low housed.x.high, rests_roundedInto housed.y.low housed.y.high⟩

/-- It keeps its sides when it is clamped, and moves by a half at most. -/
theorem boxedFrom_near (housed : n.HousedIn least room) (width : IsWhole n.w) (height : IsWhole n.h) :
    (n.boxedFrom least room).w = n.w ∧ (n.boxedFrom least room).h = n.h ∧
      |(n.boxedFrom least room).x - n.x| ≤ 1 / 2 ∧ |(n.boxedFrom least room).y - n.y| ≤ 1 / 2 := by
  rw [boxedFrom_of_housed housed width height]
  exact ⟨rfl, rfl, abs_roundedInto_sub_le housed.x.low housed.x.high,
    abs_roundedInto_sub_le housed.y.low housed.y.high⟩

/-- **Clamping again.** In a box of integer sides with room for a node, clamping a node a second time
keeps its sides and moves it by a half at most on either axis; a third time changes nothing. The second
time changes nothing exactly where both places rest, as they do where the anchor is at integers of the
sides. -/
theorem clampIn_again (n : Node ℚ) (plain : n.unchecked = []) (least width height : ℤ) (wide : least ≤ width)
    (high : least ≤ height) :
    ∃ a b, clampIn (.int width) (.int height) (.int least) n = .ok () a ∧
      clampIn (.int width) (.int height) (.int least) a = .ok () b ∧
      clampIn (.int width) (.int height) (.int least) b = .ok () b ∧
      b.w = a.w ∧ b.h = a.h ∧ |b.x - a.x| ≤ 1 / 2 ∧ |b.y - a.y| ≤ 1 / 2 ∧
      (b = a ↔ RestsIn width a.anchorX a.w a.x ∧ RestsIn height a.anchorY a.h a.y) ∧
      (IsWhole (a.anchorX * a.w) → IsWhole (a.anchorY * a.h) → b = a) := by
  let room : ℚ × ℚ := (width, height)
  have clamps : ∀ m : Node ℚ, m.unchecked = [] →
      clampIn (.int width) (.int height) (.int least) m = .ok () (m.boxedFrom least room) :=
    fun m plain => clampIn_from least plain room
  have roomy : HasRoom least room := ⟨Int.cast_le.mpr wide, Int.cast_le.mpr high⟩
  obtain ⟨a, isA⟩ : ∃ a, a = n.boxedFrom least room := ⟨_, rfl⟩
  have plainA : a.unchecked = [] := by rw [isA]; exact plain
  have placeX : a.x = roundedInto (a.anchorX * a.w) (width - (1 - a.anchorX) * a.w) n.x := by rw [isA]; rfl
  have placeY : a.y = roundedInto (a.anchorY * a.h) (height - (1 - a.anchorY) * a.h) n.y := by rw [isA]; rfl
  have sideX : IsWhole a.w := by rw [isA]; exact isWhole_roundedInto ..
  have sideY : IsWhole a.h := by rw [isA]; exact isWhole_roundedInto ..
  have housed : a.HousedIn least room := by rw [isA]; exact housedIn_boxedFrom roomy n
  have stays := boxedFrom_eq_self_iff housed sideX sideY
  obtain ⟨sameW, sameH, nearX, nearY⟩ := boxedFrom_near housed sideX sideY
  have first := clamps n plain
  have third := clamps (a.boxedFrom least room) plainA
  rw [← isA] at first
  rw [boxedFrom_boxedFrom roomy housed sideX sideY] at third
  refine ⟨a, a.boxedFrom least room, first, clamps a plainA, third, sameW, sameH, nearX, nearY, stays,
    fun wholeX wholeY => stays.mpr ⟨.whole ?_, .whole ?_⟩⟩
  · rw [placeX]
    exact isWhole_clamped ⟨width, rfl⟩ sideX wholeX
  · rw [placeY]
    exact isWhole_clamped ⟨height, rfl⟩ sideY wholeY

/-- A frame of odd width that is held by an edge at a half is moved by the second call and stays at the
third. -/
theorem clampIn_again_odd :
    (square .frame "n1" root (1 / 2) 25 0).unchecked = [] ∧ (20 : ℤ) ≤ 980 ∧ (20 : ℤ) ≤ 620 ∧
      ∃ a b, clampIn (.int 980) (.int 620) (.int 20) (square .frame "n1" root (1 / 2) 25 0) = .ok () a ∧
        clampIn (.int 980) (.int 620) (.int 20) a = .ok () b ∧
        clampIn (.int 980) (.int 620) (.int 20) b = .ok () b ∧
        b.w = a.w ∧ b.h = a.h ∧ |b.x - a.x| ≤ 1 / 2 ∧ |b.y - a.y| ≤ 1 / 2 ∧
        (b = a ↔ RestsIn (980 : ℤ) a.anchorX a.w a.x ∧ RestsIn (620 : ℤ) a.anchorY a.h a.y) ∧
        (IsWhole (a.anchorX * a.w) → IsWhole (a.anchorY * a.h) → b = a) :=
  ⟨rfl, by decide, by decide, clampIn_again _ rfl 20 980 620 (by decide) (by decide)⟩

/-- A side of 25 held at its middle by the edge of the surface is at 12.5, and then at 13. -/
theorem clampIn_moves_odd : ∃ a b,
    clampIn (.int 980) (.int 620) (.int 20) (square .frame "n1" root (1 / 2) 25 0) = .ok () a ∧
      clampIn (.int 980) (.int 620) (.int 20) a = .ok () b ∧ a.x = 25 / 2 ∧ b.x = 13 :=
  ⟨_, _, clampIn_from (20 : ℤ) rfl ((980 : ℤ), (620 : ℤ)), clampIn_from (20 : ℤ) rfl ((980 : ℤ), (620 : ℤ)),
    by decide +kernel, by decide +kernel⟩

end Node

end LayoutDesigner
