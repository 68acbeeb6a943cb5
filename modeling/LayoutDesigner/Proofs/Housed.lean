import LayoutDesigner.Proofs.Settling
import Mathlib.Tactic.MkIffOfInductiveProp

/-!
# Clamping a tree

Clamping a subtree puts every node of it inside the box that its parent was left with, whatever the
geometry was. The tree may have any shape and any kinds of nodes. A box that was clamped has sides of
the least length at least, so there is room in it for its children.
-/

namespace LayoutDesigner

/-- A side of `least` length or more is in a room, held at its anchor. -/
@[mk_iff]
structure Housed (least room anchor side place : ℚ) : Prop where
  least : least ≤ side
  most : side ≤ room
  low : anchor * side ≤ place
  high : place ≤ room - (1 - anchor) * side

instance (least room anchor side place : ℚ) : Decidable (Housed least room anchor side place) :=
  decidable_of_iff' _ (housed_iff ..)

/-- The place of an anchor is left alone by rounding it into the range in which its side is in the room. -/
def RestsIn (room anchor side place : ℚ) : Prop := Rests (anchor * side) (room - (1 - anchor) * side) place

/-- A box has room for sides of `least` length. -/
def HasRoom (least : ℚ) (room : ℚ × ℚ) : Prop := least ≤ room.1 ∧ least ≤ room.2

instance (least : ℚ) (room : ℚ × ℚ) : Decidable (HasRoom least room) := inferInstanceAs (Decidable (_ ∧ _))

variable {least room anchor side place v : ℚ}

/-- A side is not longer than the room, so the range of its anchor is not empty. -/
theorem anchorLow_le (most : side ≤ room) : anchor * side ≤ room - (1 - anchor) * side := by linarith

/-- What is in a room of the least length is any side after it was rounded into it. -/
theorem housed_roundedInto (roomy : least ≤ room) (fits : side = roundedInto least room v) :
    Housed least room anchor side (roundedInto (anchor * side) (room - (1 - anchor) * side) place) := by
  have most : side ≤ room := fits ▸ roundedInto_le roomy
  exact ⟨fits ▸ low_le_roundedInto, most, low_le_roundedInto, roundedInto_le (anchorLow_le most)⟩

namespace Node

variable {n : Node ℚ} {room : ℚ × ℚ}

/-- The node is inside a box of the given sides. -/
structure HousedIn (least : ℚ) (n : Node ℚ) (room : ℚ × ℚ) : Prop where
  x : Housed least room.1 n.anchorX n.w n.x
  y : Housed least room.2 n.anchorY n.h n.y

/-- A node of a kind, with its sides alike and its anchor on the diagonal. -/
def square (kind : Kind) (id parent : Text) (anchor side place : ℚ) : Node ℚ where
  id := id
  kind := kind
  name := kind.name
  parent := parent
  x := place
  y := place
  w := side
  h := side
  anchorX := anchor
  anchorY := anchor
  z := 1
  bgColor := Rgb.white
  bgAlpha := 1
  border := false
  text := []
  textColor := Rgb.white
  textScaled := false
  font := defaultFont
  image := []
  canvasW := 0
  canvasH := 0
  scrollbarThickness := 8
  extensions := []

/-- The sides of a boxed node are at least of the least length. -/
theorem hasRoom_boxedFrom (least : ℚ) (n : Node ℚ) (room : ℚ × ℚ) :
    HasRoom least ((n.boxedFrom least room).w, (n.boxedFrom least room).h) :=
  ⟨low_le_roundedInto, low_le_roundedInto⟩

/-- A boxed node is housed in a box that has room. -/
theorem housedIn_boxedFrom (roomy : HasRoom least room) (n : Node ℚ) :
    (n.boxedFrom least room).HousedIn least room :=
  ⟨housed_roundedInto roomy.1 rfl, housed_roundedInto roomy.2 rfl⟩

/-- Of a node in a box whose sides are integers only the place is rounded. -/
theorem boxedFrom_of_housed (housed : n.HousedIn least room) (width : IsWhole n.w) (height : IsWhole n.h) :
    n.boxedFrom least room = { n with
      x := roundedInto (n.anchorX * n.w) (room.1 - (1 - n.anchorX) * n.w) n.x
      y := roundedInto (n.anchorY * n.h) (room.2 - (1 - n.anchorY) * n.h) n.y } := by
  have sameW : roundedInto least room.1 n.w = n.w := width.roundedInto_eq housed.x.least housed.x.most
  have sameH : roundedInto least room.2 n.h = n.h := height.roundedInto_eq housed.y.least housed.y.most
  simp only [boxedFrom, sameW, sameH]

/-- So the node stays exactly where both places rest. -/
theorem boxedFrom_eq_self_iff (housed : n.HousedIn least room) (width : IsWhole n.w) (height : IsWhole n.h) :
    n.boxedFrom least room = n ↔
      RestsIn room.1 n.anchorX n.w n.x ∧ RestsIn room.2 n.anchorY n.h n.y := by
  rw [boxedFrom_of_housed housed width height, RestsIn, RestsIn,
    ← roundedInto_eq_self_iff housed.x.low housed.x.high, ← roundedInto_eq_self_iff housed.y.low housed.y.high]
  constructor
  · intro same
    exact ⟨congrArg Node.x same, congrArg Node.y same⟩
  · rintro ⟨sameX, sameY⟩
    rw [sameX, sameY]

end Node

namespace Store

/-- What a node hangs under: the root itself for the root, else its parent. -/
def HangsUnder (s : Store ℚ) (id base : Text) : Prop := id = root ∧ base = root ∨ s.parent? id = some base

variable {s t : Store ℚ} {id base : Text} {n m : Node ℚ}

/-- The parent of what is within a node is within it too, or is what the node hangs under. -/
theorem HangsUnder.parent_cases (hangs : s.HangsUnder id base) (rooted : s.IsRooted) (member : n ∈ s.nodes)
    (within : s.IsWithin n.id id) : n.parent ∈ s.ids ∧ s.IsWithin n.parent id ∨ n.parent = base := by
  have link := parent?_of_mem rooted.distinct member
  have known := rooted.parent_known member
  rcases hangs with ⟨rfl, rfl⟩ | link'
  · exact known.symm.imp_left fun isNode => ⟨isNode, .inr (rooted.leadsUp_root isNode)⟩
  · rcases within with same | leads
    · rw [same, link', Option.some_inj] at link
      exact .inr link.symm
    · have inside : s.IsWithin n.parent id := (leadsUp_of_parent? link).mp leads
      refine .inl ⟨known.resolve_left fun isRoot => rooted.unreserved ?_, inside⟩
      rcases inside with same | above
      · exact isRoot ▸ same ▸ mem_ids_of_parent? link'
      · exact isRoot ▸ above.mem_ids

/-- What a node hangs under keeps its box, as it is not within the node. -/
theorem BoxedWithin.room_base (boxed : BoxedWithin least s t id) (rooted : s.IsRooted) (reshaped : Reshaped s t)
    (hangs : s.HangsUnder id base) : t.room base = s.room base := by
  by_cases isRoot : base = root
  · exact isRoot ▸ room_root_congr reshaped.width reshaped.height
  · have link : s.parent? id = some base := hangs.resolve_left fun both => isRoot both.2
    obtain ⟨p, found⟩ := exists_find? ((rooted.mem_of_leadsUp (.single link)).resolve_left isRoot)
    obtain rfl := id_of_find? found
    have stays := (boxed p (mem_of_find? found)).2 (rooted.not_isWithin_parent link)
    exact room_congr (stays.trans found.symm) reshaped.width reshaped.height

/-- There is room in the boxes of all that is within a node: the box of a parent that was clamped has
the least sides, and what the node hangs under had room. -/
theorem BoxedWithin.hasRoom (boxed : BoxedWithin least s t id) (rooted : s.IsRooted) (plain : t.IsPlain)
    (reshaped : Reshaped s t) (hangs : s.HangsUnder id base) (roomy : HasRoom least (s.room base))
    (member : n ∈ s.nodes) (within : s.IsWithin n.id id) : HasRoom least (t.room n.parent) := by
  rcases hangs.parent_cases rooted member within with ⟨isNode, inside⟩ | isBase
  · obtain ⟨p, found⟩ := exists_find? isNode
    have sameId := id_of_find? found
    have found' := (boxed p (mem_of_find? found)).1 (sameId ▸ inside)
    have notRoot : n.parent ≠ root := fun isRoot => rooted.unreserved (isRoot ▸ isNode)
    rw [room_of_find? notRoot (sameId ▸ found') (plain _ (mem_of_find? found'))]
    exact Node.hasRoom_boxedFrom ..
  · rwa [isBase, boxed.room_base rooted reshaped hangs]

/-- So all that is within a node is in the box of its parent. -/
theorem BoxedWithin.housedIn (boxed : BoxedWithin least s t id) (rooted : s.IsRooted) (plain : t.IsPlain)
    (reshaped : Reshaped s t) (hangs : s.HangsUnder id base) (roomy : HasRoom least (s.room base))
    (member : m ∈ t.nodes) (within : s.IsWithin m.id id) : m.HousedIn least (t.room m.parent) := by
  have distinct : t.ids.Nodup := reshaped.ids ▸ rooted.distinct
  obtain ⟨n, isNode, same⟩ := mem_ids.mp (reshaped.ids ▸ id_mem_ids member)
  have found := (boxed n isNode).1 (same ▸ within)
  rw [same, find?_of_mem distinct member, Option.some_inj] at found
  have holds := boxed.hasRoom rooted plain reshaped hangs roomy isNode (same ▸ within)
  rw [found]
  exact Node.housedIn_boxedFrom holds n

/-- Clamping a subtree returns, puts all that is within the node inside the box of its parent and
changes nothing else, if there is room where the node hangs. -/
theorem housed_clampSubtree (rooted : s.IsRooted) (numeric : s.IsNumeric) (hangs : s.HangsUnder id base)
    (roomy : HasRoom least (s.room base)) :
    ∃ t, clampSubtree id (.num least) s = .ok () t ∧ Reshaped s t ∧
      (∀ m ∈ t.nodes, s.IsWithin m.id id → m.HousedIn least (t.room m.parent)) ∧
      ∀ m ∈ s.nodes, ¬s.IsWithin m.id id → t.find? m.id = some m := by
  have known : id = root ∨ id ∈ s.ids := hangs.imp And.left mem_ids_of_parent?
  obtain ⟨_, t, ran, reshaped, boxed⟩ := (boxed_clampSubtree rooted numeric known).ok
  have plain := (numeric.reshaped reshaped).plain
  exact ⟨t, ran, reshaped, fun m member => boxed.housedIn rooted plain reshaped hangs roomy member,
    fun m member => (boxed m member).2⟩

/-- **Clamping establishes containment.** In a tree of typed nodes of any geometry, clamping everything
below a surface with room for a node puts every node inside the box of its parent. Clamping what is
within one node, where there is room in the box of its parent, puts this node and all below it inside
the boxes of their parents and leaves every other node as it is. -/
theorem clampSubtree_contains (s : Store ℚ) (rooted : s.IsRooted) (numeric : s.IsNumeric) (least : ℚ) :
    (HasRoom least (s.room root) →
      ∃ t, clampSubtree root (.num least) s = .ok () t ∧ Reshaped s t ∧
        ∀ m ∈ t.nodes, m.HousedIn least (t.room m.parent)) ∧
    ∀ n ∈ s.nodes, HasRoom least (s.room n.parent) →
      ∃ t, clampSubtree n.id (.num least) s = .ok () t ∧ Reshaped s t ∧
        (∀ m ∈ t.nodes, s.IsWithin m.id n.id → m.HousedIn least (t.room m.parent)) ∧
        ∀ m ∈ s.nodes, ¬s.IsWithin m.id n.id → t.find? m.id = some m := by
  constructor
  · intro roomy
    obtain ⟨t, ran, reshaped, inside, -⟩ := housed_clampSubtree rooted numeric (.inl ⟨rfl, rfl⟩) roomy
    refine ⟨t, ran, reshaped, fun m member => inside m member (.inr ?_)⟩
    exact rooted.leadsUp_root (reshaped.ids ▸ id_mem_ids member)
  · intro n member roomy
    exact housed_clampSubtree rooted numeric (.inr (parent?_of_mem rooted.distinct member)) roomy

/-- A label to the left of the surface, with a frame in it that is wider than both. -/
def sprawling : Store ℚ where
  canvasW := .num (981 / 2)
  canvasH := .num 310
  nodes := [.square .frame "wide" "sign" (1 / 3) 1000 (2000 / 3), .square .textLabel "sign" root (1 / 2) 300 (-50)]

/-- The whole store is clamped, and then the subtree of the wide frame alone. -/
theorem clampSubtree_contains_sprawling :
    (∃ t, clampSubtree root (.num 20) sprawling = .ok () t ∧ Reshaped sprawling t ∧
      ∀ m ∈ t.nodes, m.HousedIn 20 (t.room m.parent)) ∧
    ∃ t, clampSubtree "wide" (.num 20) sprawling = .ok () t ∧ Reshaped sprawling t ∧
      (∀ m ∈ t.nodes, sprawling.IsWithin m.id "wide" → m.HousedIn 20 (t.room m.parent)) ∧
      ∀ m ∈ sprawling.nodes, ¬sprawling.IsWithin m.id "wide" → t.find? m.id = some m := by
  have sign : sprawling.Grounded "sign" := .step (by decide : sprawling.parent? "sign" = some root) .atRoot
  have wide : sprawling.Grounded "wide" := .step (by decide : sprawling.parent? "wide" = some "sign") sign
  have rooted : sprawling.IsRooted := by
    refine ⟨by decide, by decide, fun n member => ?_⟩
    simp only [sprawling, List.mem_cons, List.not_mem_nil, or_false] at member
    rcases member with rfl | rfl
    · exact wide
    · exact sign
  have numeric : sprawling.IsNumeric := ⟨by simp [sprawling, Node.square, IsPlain], ⟨_, rfl⟩, ⟨_, rfl⟩⟩
  obtain ⟨all, one⟩ := clampSubtree_contains sprawling rooted numeric 20
  exact ⟨all (by decide +kernel), one _ List.mem_cons_self (by decide +kernel)⟩

end Store

end LayoutDesigner
