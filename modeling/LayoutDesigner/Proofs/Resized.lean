import LayoutDesigner.Handle
import LayoutDesigner.Proofs.Housed

/-!
# The edges that a handle drags

Along each axis a handle names one end of a side or neither. A resize drags the named ends of a box
and keeps the others, and then clamps the node. A box with integer edges inside the parent keeps its
sides then, and its place where the anchor comes to rest.
-/

namespace LayoutDesigner

/-- The two ends of a side. -/
structure Span where
  low : ℤ
  high : ℤ
  deriving DecidableEq, Repr

/-- Which end of a side a handle names. -/
inductive Grip where
  | neither | low | high
  deriving DecidableEq, Repr

/-- The end of the horizontal side that a handle names. -/
def Handle.across : Handle → Grip
  | .nw | .w | .sw => .low
  | .ne | .e | .se => .high
  | .n | .s => .neither

/-- The end of the vertical side that a handle names. -/
def Handle.down : Handle → Grip
  | .nw | .n | .ne => .low
  | .sw | .s | .se => .high
  | .w | .e => .neither

namespace Span

/-- How long the side is. -/
def length (span : Span) : ℤ := span.high - span.low

/-- The named end moves by a distance. -/
def pull (span : Span) (distance : ℤ) : Grip → Span
  | .neither => span
  | .low => ⟨span.low + distance, span.high⟩
  | .high => ⟨span.low, span.high + distance⟩

/-- The named end moves by a distance, and stops where it is `least` away from the other one. -/
def drag (span : Span) (least distance : ℤ) : Grip → Span
  | .neither => span
  | .low => ⟨min (span.low + distance) (span.high - least), span.high⟩
  | .high => ⟨span.low, max (span.high + distance) (span.low + least)⟩

/-- The side is between zero and the end of a room. -/
def IsInside (span : Span) (room : ℤ) : Prop := 0 ≤ span.low ∧ span.high ≤ room

instance (span : Span) (room : ℤ) : Decidable (span.IsInside room) := inferInstanceAs (Decidable (_ ∧ _))

variable {span : Span} {least distance : ℤ}

/-- A dragged span is no shorter than the least length. -/
theorem least_le_length_drag (long : least ≤ span.length) (grip : Grip) :
    least ≤ (span.drag least distance grip).length := by
  cases grip <;> simp only [drag, length] at long ⊢ <;> omega

end Span

/-- A box with integer edges. -/
structure Box where
  across : Span
  down : Span
  deriving DecidableEq, Repr

namespace Box

/-- The edges that a handle names move by a distance, and stop `least` away from the opposite ones. -/
def drag (box : Box) (least dx dy : ℤ) (handle : Handle) : Box :=
  ⟨box.across.drag least dx handle.across, box.down.drag least dy handle.down⟩

/-- The box is inside a parent's. -/
def IsInside (box : Box) (width height : ℤ) : Prop := box.across.IsInside width ∧ box.down.IsInside height

instance (box : Box) (width height : ℤ) : Decidable (box.IsInside width height) :=
  inferInstanceAs (Decidable (_ ∧ _))

/-- No side of the box is shorter than `least`. -/
def IsLarge (box : Box) (least : ℤ) : Prop := least ≤ box.across.length ∧ least ≤ box.down.length

instance (box : Box) (least : ℤ) : Decidable (box.IsLarge least) := inferInstanceAs (Decidable (_ ∧ _))

end Box

/-- The name of a handle tells which edges it moves. -/
theorem Edges.ofHandle_name (handle : Handle) :
    Edges.ofHandle (.str handle.name : Value ℚ) = .ok
      ⟨handle.across = .low, handle.across = .high, handle.down = .low, handle.down = .high⟩ := by
  cases handle <;> rfl

/-- The ends of a dragged span are those of the pulled one. -/
theorem dragSide_span (span : Span) (distance : ℤ) (grip : Grip) :
    dragSide (span.low : ℚ) span.length (.int distance) (grip = .low) (grip = .high) =
      .ok (((span.pull distance grip).low : ℚ), ((span.pull distance grip).high : ℚ)) := by
  have high : (span.low : ℚ) + span.length = span.high := by simp [Span.length]
  cases grip <;> simp [dragSide, dragEnd, Span.pull, high] <;> rfl

/-- A side that is too short is widened from the edge that stays. -/
theorem pinSide_num (low high least : ℚ) (moveLow : Bool) :
    pinSide low high (.num least) moveLow = .ok (if high - low < least then
      if moveLow then (high - least, high) else (low, low + least) else (low, high)) := by
  have less : Arith.lt (high - low) least = decide (high - low < least) := rfl
  change (if Arith.lt (high - low) least then
    if moveLow then Except.ok (high - least, high) else .ok (low, low + least) else .ok (low, high)) = _
  simp only [less, decide_eq_true_eq, apply_ite (Except.ok (ε := Fault))]

/-- A pulled span that is widened is the dragged one. -/
theorem pinSide_span {span : Span} {least : ℤ} (long : least ≤ span.length) (distance : ℤ) (grip : Grip) :
    pinSide ((span.pull distance grip).low : ℚ) (span.pull distance grip).high (.int least) (grip = .low) =
      .ok (((span.drag least distance grip).low : ℚ), ((span.drag least distance grip).high : ℚ)) := by
  refine (pinSide_num _ _ (least : ℚ) _).trans (congrArg _ ?_)
  have apart : (least : ℚ) ≤ span.high - span.low := by exact_mod_cast long
  cases grip with
  | neither => exact if_neg (not_lt.mpr apart)
  | low =>
      push_cast [Span.pull, Span.drag]
      split
      · next close => rw [if_pos (by simp), min_eq_right (by linarith)]
      · next far => rw [min_eq_left (by linarith)]
  | high =>
      push_cast [Span.pull, Span.drag]
      split
      · next close => rw [if_neg (by simp), max_eq_right (by linarith)]
      · next far => rw [max_eq_left (by linarith)]

/-- A dragged side moves the ends that the handle names. -/
theorem dragSide_num (low side distance : ℚ) (moveLow moveHigh : Bool) :
    dragSide low side (.num distance) moveLow moveHigh =
      .ok (if moveLow then low + distance else low, if moveHigh then low + side + distance else low + side) := by
  cases moveLow <;> cases moveHigh <;> rfl

/-- The ends of a side after a drag by a distance: the named ones move, and stop `least` away from the
opposite ones. -/
def draggedSide (least low side distance : ℚ) (moveLow moveHigh : Bool) : ℚ × ℚ :=
  let newLow := if moveLow then low + distance else low
  let newHigh := if moveHigh then low + side + distance else low + side
  if newHigh - newLow < least then
    if moveLow then (newHigh - least, newHigh) else (newLow, newLow + least)
  else (newLow, newHigh)

/-- A span that is dragged by a side ends where the dragged span does. -/
theorem draggedSide_span {span : Span} {least : ℤ} (long : least ≤ span.length) (distance : ℤ) (grip : Grip) :
    draggedSide least span.low span.length distance (grip = .low) (grip = .high) =
      (((span.drag least distance grip).low : ℚ), ((span.drag least distance grip).high : ℚ)) := by
  have pulled := (dragSide_num span.low span.length (distance : ℚ) (grip = .low) (grip = .high)).symm.trans
    (dragSide_span span distance grip)
  obtain ⟨low, high⟩ := Prod.mk.inj (Except.ok.inj pulled)
  have pinned := pinSide_span long distance grip
  rw [← low, ← high] at pinned
  exact Except.ok.inj ((pinSide_num _ _ (least : ℚ) _).symm.trans pinned)

namespace Node

variable {n : Node ℚ}

/-- The node spans a box, held at its anchor. -/
def spanning (n : Node ℚ) (box : Box) : Node ℚ :=
  { n with
    w := box.across.length
    h := box.down.length
    x := box.across.low + n.anchorX * box.across.length
    y := box.down.low + n.anchorY * box.down.length }

/-- A node that spans a box inside its parent's is in its parent's box. -/
theorem housedIn_spanning {box : Box} {least width height : ℤ} (large : box.IsLarge least)
    (inside : box.IsInside width height) : (n.spanning box).HousedIn least (width, height) := by
  have housed : ∀ {span : Span} {room : ℤ} (anchor : ℚ), least ≤ span.length → span.IsInside room →
      Housed least room anchor span.length (span.low + anchor * span.length) := by
    intro span room anchor long inside
    have low : (0 : ℚ) ≤ span.low := Int.cast_nonneg inside.1
    have high : (span.high : ℚ) ≤ room := Int.cast_le.mpr inside.2
    have ends : (span.length : ℚ) = span.high - span.low := by simp [Span.length]
    exact ⟨Int.cast_le.mpr long, by linarith, by linarith, by linarith⟩
  exact ⟨housed n.anchorX large.1 inside.1, housed n.anchorY large.2 inside.2⟩

/-- The node between dragged edges, with rounded sides and held at its anchor. -/
def resized (n : Node ℚ) (start : Geometry ℚ) (edges : Edges) (least dx dy : ℚ) : Node ℚ :=
  let across := draggedSide least (start.x - n.anchorX * start.w) start.w dx edges.left edges.right
  let down := draggedSide least (start.y - n.anchorY * start.h) start.h dy edges.top edges.bottom
  let w : ℚ := ⌊across.2 - across.1 + 1 / 2⌋
  let h : ℚ := ⌊down.2 - down.1 + 1 / 2⌋
  { n with w, h, x := across.1 + n.anchorX * w, y := down.1 + n.anchorY * h }

/-- Resizing changes the place and the sides of a node alone. -/
theorem Reshaped.resized (n : Node ℚ) (start : Geometry ℚ) (edges : Edges) (least dx dy : ℚ) :
    Reshaped n (n.resized start edges least dx dy) :=
  ⟨fun _ => rfl, fun plain => plain⟩

section

variable {start : Geometry ℚ} {handle : Value ℚ} {edges : Edges}

/-- A resized node is the node with its new sides and its new place. -/
theorem setAll_resized (plain : n.unchecked = []) (start : Geometry ℚ) (edges : Edges) (least dx dy : ℚ) :
    n.resized start edges least dx dy = (((n.setW (n.resized start edges least dx dy).w).setH
      (n.resized start edges least dx dy).h).setX (n.resized start edges least dx dy).x).setY
      (n.resized start edges least dx dy).y := by
  simp [resized, setW, setH, setX, setY, checked, plain, Unchecked.without]

/-- Resizing a typed node drags the edges that the handle names, and clamps the node. -/
theorem applyResize_from (plain : n.unchecked = []) (typed : start.unchecked = []) (least dx dy : ℚ) (room : ℚ × ℚ)
    (readable : Edges.ofHandle handle = .ok edges) :
    applyResize start (.num dx) (.num dy) handle (.arr [.num room.1, .num room.2]) (.num least) n =
      .ok () ((n.resized start edges least dx dy).boxedFrom least room) := by
  refine Edit.eq_of_ends ?_
  unfold applyResize
  simp only [Edit.ends_bind, Edit.ends_get, Edit.ends_modify, typed, plain]
  refine Edit.ends_lift_ok rfl (Edit.ends_lift_ok rfl ?_)
  refine Edit.ends_lift_ok rfl (Edit.ends_lift_ok rfl (Edit.ends_lift_ok rfl (Edit.ends_lift_ok rfl ?_)))
  refine Edit.ends_lift_ok readable ?_
  refine Edit.ends_lift_ok (dragSide_num ..) (Edit.ends_lift_ok (dragSide_num ..) ?_)
  refine Edit.ends_lift_ok (pinSide_num ..) (Edit.ends_lift_ok (pinSide_num ..) ?_)
  refine Edit.ends_lift_ok rfl (Edit.ends_lift_ok (Exact.roundHalfUp_eq _) ?_)
  refine Edit.ends_lift_ok rfl (Edit.ends_lift_ok (Exact.roundHalfUp_eq _) ?_)
  refine Edit.ends_lift_ok rfl (Edit.ends_lift_ok rfl (Edit.ends_lift_ok rfl (Edit.ends_lift_ok rfl ?_)))
  have clamped := clampIn_from (n := n.resized start edges least dx dy) least plain room
  rw [setAll_resized plain] at clamped ⊢
  exact Edit.ends_lift_ok rfl ((Edit.ends_of_ok clamped).mpr rfl)

/-- Where the handle cannot be read, resizing fails before it changes anything. -/
theorem applyResize_unreadable {fault : Fault} (plain : n.unchecked = []) (typed : start.unchecked = []) (dx dy : ℚ)
    (parentSize least : Value ℚ) (unreadable : Edges.ofHandle handle = .error fault) :
    applyResize start (.num dx) (.num dy) handle parentSize least n = .error fault n := by
  refine Edit.eq_of_ends ?_
  unfold applyResize
  simp only [Edit.ends_bind, Edit.ends_get, typed, plain]
  refine Edit.ends_lift_ok rfl (Edit.ends_lift_ok rfl ?_)
  refine Edit.ends_lift_ok rfl (Edit.ends_lift_ok rfl (Edit.ends_lift_ok rfl (Edit.ends_lift_ok rfl ?_)))
  rw [unreadable, Edit.ends_lift]
  exact ⟨fun _ returns => (by cases returns), fun _ failed => congrArg (EStateM.Result.error · n) (Except.error.inj failed)⟩

end

/-- A node that spanned a box spans the dragged one after a resize. -/
theorem resized_spanning {box : Box} {least : ℤ} (large : box.IsLarge least) (dx dy : ℤ) (handle : Handle) :
    n.resized (n.spanning box).geometry
      ⟨handle.across = .low, handle.across = .high, handle.down = .low, handle.down = .high⟩ least dx dy =
      n.spanning (box.drag least dx dy handle) := by
  have corner : ∀ low anchor side : ℚ, low + anchor * side - anchor * side = low := fun _ _ _ => by ring
  have whole : ∀ span : Span, ⌊(span.high : ℚ) - span.low + 1 / 2⌋ = span.length := fun span => by
    rw [← Int.cast_sub, Exact.floor_int_add_half, Span.length]
  simp only [resized, spanning, geometry, corner, draggedSide_span large.1, draggedSide_span large.2, whole, Box.drag]

/-- Resizing a node that spanned a box makes it span the dragged one, and clamps it. -/
theorem applyResize_num (plain : n.unchecked = []) {box : Box} {least : ℤ} (large : box.IsLarge least) (dx dy : ℤ)
    (handle : Handle) (room : ℚ × ℚ) :
    applyResize (n.spanning box).geometry (.int dx) (.int dy) (.str handle.name) (.arr [.num room.1, .num room.2])
      (.int least) n = .ok () ((n.spanning (box.drag least dx dy handle)).boxedFrom least room) := by
  have typed : (n.spanning box).geometry.unchecked = [] := by simp [geometry, spanning, plain]
  rw [← resized_spanning large]
  exact applyResize_from plain typed least dx dy room (Edges.ofHandle_name handle)

/-- The corner of a plain node is off its place by the part of its sides that the anchor says. -/
theorem localTopLeft_num (plain : n.unchecked = []) :
    n.localTopLeft = .ok (n.x - n.anchorX * n.w, n.y - n.anchorY * n.h) := by
  rw [localTopLeft, needNumbers_plain plain]
  rfl

/-- Where a side starts after its anchor was rounded into the room. -/
theorem corner_of_housed {least room anchor side low : ℚ} (housed : Housed least room anchor side (low + anchor * side)) :
    |roundedInto (anchor * side) (room - (1 - anchor) * side) (low + anchor * side) - anchor * side - low| ≤ 1 / 2 ∧
      (roundedInto (anchor * side) (room - (1 - anchor) * side) (low + anchor * side) - anchor * side = low ↔
        RestsIn room anchor side (low + anchor * side)) := by
  constructor
  · have near := abs_roundedInto_sub_le housed.low housed.high
    rwa [sub_sub, add_comm (anchor * side) low]
  · rw [sub_eq_iff_eq_add, RestsIn, roundedInto_eq_self_iff housed.low housed.high]

/-- **Resizing moves the named edges.** A node that spans a box of integer edges is resized by a handle
and an integer distance, in a parent of integer sides. If the dragged box is inside the parent, the
resize returns, and the node has the sides of the dragged box and starts where that starts, but for a
half at most. On either axis it starts exactly there where the place of the anchor rests. -/
theorem applyResize_drags (n : Node ℚ) (plain : n.unchecked = []) (box after : Box) (handle : Handle)
    (dx dy least width height : ℤ) (large : box.IsLarge least) (drags : box.drag least dx dy handle = after)
    (inside : after.IsInside width height) :
    ∃ m x y, applyResize (n.spanning box).geometry (.int dx) (.int dy) (.str handle.name)
        (.arr [.int width, .int height]) (.int least) n = .ok () m ∧
      m.localTopLeft = .ok (x, y) ∧ m.w = after.across.length ∧ m.h = after.down.length ∧
      |x - after.across.low| ≤ 1 / 2 ∧ |y - after.down.low| ≤ 1 / 2 ∧
      (x = after.across.low ↔ RestsIn width n.anchorX m.w (after.across.low + n.anchorX * m.w)) ∧
      (y = after.down.low ↔ RestsIn height n.anchorY m.h (after.down.low + n.anchorY * m.h)) := by
  have largeAfter : after.IsLarge least :=
    drags ▸ ⟨Span.least_le_length_drag large.1 _, Span.least_le_length_drag large.2 _⟩
  have housed : (n.spanning after).HousedIn least (width, height) := housedIn_spanning largeAfter inside
  have ran := applyResize_num plain large dx dy handle (width, height)
  rw [drags, boxedFrom_of_housed housed ⟨_, rfl⟩ ⟨_, rfl⟩] at ran
  obtain ⟨nearX, restsX⟩ := corner_of_housed housed.x
  obtain ⟨nearY, restsY⟩ := corner_of_housed housed.y
  exact ⟨_, _, _, ran, localTopLeft_num plain, rfl, rfl, nearX, nearY, restsX, restsY⟩

/-- A square with its anchor in the middle is dragged at its right edge. -/
theorem applyResize_drags_right :
    ∃ m x y, applyResize ((square .frame "n1" root (1 / 2) 40 0).spanning ⟨⟨100, 126⟩, ⟨80, 120⟩⟩).geometry
        (.int 10) (.int 0) (.str Handle.e.name) (.arr [.int 980, .int 620]) (.int 20)
        (square .frame "n1" root (1 / 2) 40 0) = .ok () m ∧
      m.localTopLeft = .ok (x, y) ∧ m.w = ((36 : ℤ) : ℚ) ∧ m.h = ((40 : ℤ) : ℚ) ∧
      |x - ((100 : ℤ) : ℚ)| ≤ 1 / 2 ∧ |y - ((80 : ℤ) : ℚ)| ≤ 1 / 2 ∧
      (x = ((100 : ℤ) : ℚ) ↔ RestsIn (980 : ℤ) (1 / 2) m.w (((100 : ℤ) : ℚ) + 1 / 2 * m.w)) ∧
      (y = ((80 : ℤ) : ℚ) ↔ RestsIn (620 : ℤ) (1 / 2) m.h (((80 : ℤ) : ℚ) + 1 / 2 * m.h)) :=
  applyResize_drags (square .frame "n1" root (1 / 2) 40 0) rfl ⟨⟨100, 126⟩, ⟨80, 120⟩⟩ ⟨⟨100, 136⟩, ⟨80, 120⟩⟩ .e
    10 0 20 980 620 (by decide) (by decide) (by decide)

/-- The right edge of a box is dragged from 126 to 125, and the left edge goes from 100 to 100.5. -/
theorem applyResize_moves_left :
    Box.drag ⟨⟨100, 126⟩, ⟨80, 120⟩⟩ 20 (-1) 0 .e = ⟨⟨100, 125⟩, ⟨80, 120⟩⟩ ∧
      Box.IsInside ⟨⟨100, 125⟩, ⟨80, 120⟩⟩ 980 620 ∧
      ∃ m, applyResize ((square .frame "n1" root (1 / 2) 40 0).spanning ⟨⟨100, 126⟩, ⟨80, 120⟩⟩).geometry
          (.int (-1)) (.int 0) (.str Handle.e.name) (.arr [.int 980, .int 620]) (.int 20)
          (square .frame "n1" root (1 / 2) 40 0) = .ok () m ∧
        m.w = 25 ∧ m.localTopLeft = .ok (201 / 2, 80) :=
  ⟨by decide, by decide, _, applyResize_num rfl (by decide) (-1) 0 .e ((980 : ℤ), (620 : ℤ)), by decide +kernel,
    (localTopLeft_num rfl).trans (congrArg _ (by decide +kernel))⟩

end Node

end LayoutDesigner
