import LayoutDesigner.Proofs.MeasuredStore
import LayoutDesigner.Proofs.Rational
import LayoutDesigner.Proofs.Rounding

/-!
# Settling nodes in their parents

Over the rationals clamping a node computes a box from the node and from the sides of its parent.
Clamping everything below the root leaves every node in the box that its parent's last sides give.
All sides that were clamped are integers, so clamping again only changes those that do not fit.
-/

namespace LayoutDesigner

namespace Node

/-- A side, rounded and kept between the least side and the parent's. -/
def boxedSide (room side : ℚ) : ℚ := max leastSide (min room ⌊side + 1 / 2⌋)

/-- The place of an anchor, rounded and kept where the box is inside the parent's. -/
def boxedPlace (room anchor side place : ℚ) : ℚ :=
  max (anchor * side) (min (room - (1 - anchor) * side) ⌊place + 1 / 2⌋)

/-- The node inside a box of the given sides, with no side below `least`. -/
def boxedFrom (least : ℚ) (n : Node ℚ) (room : ℚ × ℚ) : Node ℚ :=
  let w := roundedInto least room.1 n.w
  let h := roundedInto least room.2 n.h
  { n with
    w, h
    x := roundedInto (n.anchorX * w) (room.1 - (1 - n.anchorX) * w) n.x
    y := roundedInto (n.anchorY * h) (room.2 - (1 - n.anchorY) * h) n.y }

/-- The node inside a box of the given sides. -/
def boxed (n : Node ℚ) (room : ℚ × ℚ) : Node ℚ :=
  let w := boxedSide room.1 n.w
  let h := boxedSide room.2 n.h
  { n with
    w, h, x := boxedPlace room.1 n.anchorX w n.x, y := boxedPlace room.2 n.anchorY h n.y }

end Node

namespace Node

variable {n : Node ℚ}

/-- The usual box is that of the usual least side. -/
theorem boxed_eq (n : Node ℚ) (room : ℚ × ℚ) : n.boxed room = n.boxedFrom leastSide room := rfl

/-- Putting a node into a box changes its place and its sides alone. -/
theorem Reshaped.boxedFrom (n : Node ℚ) (least : ℚ) (room : ℚ × ℚ) : Reshaped n (n.boxedFrom least room) :=
  ⟨fun _ => rfl, fun plain => plain⟩

/-- A number is rounded into bounds that are numbers. -/
theorem roundInto_num (v low high : ℚ) :
    roundInto v (.num low) (.num high) = .ok (roundedInto low high v) := by
  simp only [roundInto, Value.int, Exact.roundHalfUp_eq]
  change (do (← Value.clamp (.num ((⌊v + 1 / 2⌋ : ℤ) : ℚ)) (.num low) (.num high)).asOperand) = _
  rw [Value.clamp_num, Exact.clamp_eq]
  rfl

/-- The places that an anchor may take in a room that is a number range between two numbers. -/
theorem anchorRange_num (anchor side room : ℚ) :
    anchorRange anchor side (.num room) = .ok (anchor * side, room - (1 - anchor) * side) := by
  have one : ((1 : ℤ) : ℚ) = 1 := by norm_num
  simp only [anchorRange, Exact.mul_eq, Exact.sub_eq, Exact.ofInt_eq, one]
  rfl

/-- Clamping a typed node gives the node inside the box. -/
theorem clampIn_from (least : ℚ) (plain : n.unchecked = []) (room : ℚ × ℚ) :
    clampIn (.num room.1) (.num room.2) (.num least) n = .ok () (n.boxedFrom least room) := by
  refine Edit.eq_of_ends ?_
  unfold clampIn
  simp only [Edit.ends_bind, Edit.ends_get, Edit.ends_modify]
  refine Edit.ends_lift_ok (roundInto_num ..) (Edit.ends_lift_ok (roundInto_num ..) ?_)
  refine Edit.ends_lift_ok (needNumbers_plain (by simp [setW, setH, checked, plain, Unchecked.without]) _) ?_
  refine Edit.ends_lift_ok (anchorRange_num ..) (Edit.ends_lift_ok (anchorRange_num ..) ?_)
  refine Edit.ends_lift_ok (roundInto_num ..) (Edit.ends_lift_ok (roundInto_num ..) ?_)
  simp [Node.boxedFrom, setW, setH, setX, setY, checked, plain, Unchecked.without]

/-- Clamping a plain node puts it into its box. -/
theorem clampIn_num (plain : n.unchecked = []) (room : ℚ × ℚ) :
    clampIn (.num room.1) (.num room.2) (.int leastSide) n = .ok () (n.boxed room) := by
  rw [boxed_eq]
  exact clampIn_from (leastSide : ℤ) plain room

end Node

/-- What a side is after clamping: an integer that is not below the least side. -/
def IsSide (v : ℚ) : Prop := ∃ k : ℤ, leastSide ≤ k ∧ v = k

/-- Both sides of the node are as clamping leaves them. -/
structure Node.IsSized (n : Node ℚ) : Prop where
  w : IsSide n.w
  h : IsSide n.h

/-- A box between sides that were clamped is sized. -/
theorem Node.isSized_boxed {room : ℚ × ℚ} (width : IsSide room.1) (height : IsSide room.2) (n : Node ℚ) :
    (n.boxed room).IsSized := by
  have between : ∀ {room side : ℚ}, IsSide room → IsSide (boxedSide room side) := by
    rintro _ side ⟨k, -, rfl⟩
    refine ⟨max leastSide (min k ⌊side + 1 / 2⌋), le_max_left .., ?_⟩
    push_cast [boxedSide]
    rfl
  exact ⟨between width, between height⟩

namespace Store

/-- The nodes are typed, and the sides of the surface are numbers. -/
structure IsNumeric (s : Store ℚ) : Prop where
  plain : s.IsPlain
  canvasW : ∃ v, s.canvasW = .num v
  canvasH : ∃ v, s.canvasH = .num v

/-- The nodes are typed, and the surface has sides as clamping leaves them. -/
structure IsExact (s : Store ℚ) : Prop where
  plain : s.IsPlain
  canvasW : ∃ v, s.canvasW = .num v ∧ IsSide v
  canvasH : ∃ v, s.canvasH = .num v ∧ IsSide v

/-- All sides are as clamping leaves them. -/
structure IsSized (s : Store ℚ) : Prop extends s.IsExact where
  nodes : ∀ n ∈ s.nodes, n.IsSized

/-- The sides of a parent's box. -/
def room (s : Store ℚ) (parent : Text) : ℚ × ℚ :=
  ((s.parentSize parent).1.number?.getD 0, (s.parentSize parent).2.number?.getD 0)

variable {s t : Store ℚ} {id parent : Text} {n m : Node ℚ} {least : ℚ} {done : List Text}

/-- The room of a parent goes by its node and the surface alone. -/
theorem room_congr (same : t.find? parent = s.find? parent) (width : t.canvasW = s.canvasW)
    (height : t.canvasH = s.canvasH) : t.room parent = s.room parent := by
  simp only [room, parentSize, same, width, height]

/-- The box of the root is the surface. -/
theorem room_root_congr (width : t.canvasW = s.canvasW) (height : t.canvasH = s.canvasH) :
    t.room root = s.room root := by
  simp only [room, parentSize, if_true, width, height]

/-- The room of a plain node is its own size. -/
theorem room_of_find? (notRoot : parent ≠ root) (found : s.find? parent = some n)
    (plain : n.unchecked = []) : s.room parent = (n.w, n.h) := by
  simp [room, parentSize, notRoot, found, Node.written, plain, Unchecked.value?, Value.number?]

/-- An exact store is numeric. -/
theorem IsExact.isNumeric (exact : s.IsExact) : s.IsNumeric where
  plain := exact.plain
  canvasW := exact.canvasW.imp fun _ isWidth => isWidth.1
  canvasH := exact.canvasH.imp fun _ isHeight => isHeight.1

/-- A numeric store is measured. -/
theorem IsNumeric.isMeasured (numeric : s.IsNumeric) : s.IsMeasured :=
  isMeasured_of_plain numeric.plain (numeric.canvasW.elim fun _ isWidth => isWidth ▸ Value.isMeasure_num.mpr (Arith.fits _))
    (numeric.canvasH.elim fun _ isHeight => isHeight ▸ Value.isMeasure_num.mpr (Arith.fits _))

/-- In a numeric store the room of each parent is of two numbers. -/
theorem IsNumeric.parentSize_eq (numeric : s.IsNumeric) (parent : Text) :
    s.parentSize parent = (.num (s.room parent).1, .num (s.room parent).2) := by
  obtain ⟨width, isWidth⟩ := numeric.canvasW
  obtain ⟨height, isHeight⟩ := numeric.canvasH
  rw [room, parentSize]
  split
  · simp [isWidth, isHeight, Value.number?]
  · split
    · next p found =>
        simp [Node.written, numeric.plain p (mem_of_find? found), Unchecked.value?, Value.number?]
    · simp [isWidth, isHeight, Value.number?]

/-- Clamping a node of a store puts it into its box. -/
theorem clampNode_from (numeric : s.IsNumeric) (found : s.find? id = some n) :
    clampNode id (.num least) s = .ok () (s.put (n.boxedFrom least (s.room n.parent))) := by
  simp only [clampNode, found, numeric.parentSize_eq, onNode]
  rw [Node.clampIn_from least (numeric.plain n (mem_of_find? found))]

/-- A change of places and sides alone leaves a store numeric. -/
theorem IsNumeric.reshaped (numeric : s.IsNumeric) (reshaped : Reshaped s t) : t.IsNumeric where
  plain := reshaped.isPlain numeric.plain
  canvasW := reshaped.width ▸ numeric.canvasW
  canvasH := reshaped.height ▸ numeric.canvasH

/-- The listed nodes are in the boxes that their parents' sides give; the others are as they were. -/
def Settled (least : ℚ) (s t : Store ℚ) (done : List Text) : Prop :=
  ∀ n ∈ s.nodes, t.find? n.id = some (if n.id ∈ done then n.boxedFrom least (t.room n.parent) else n)

/-- One more node is put into its box. No node that was clamped before is below it, so their boxes
stay. -/
theorem settled_clampNode {base : Text} {rest : List Text} (rooted : IsRooted s)
    (numeric : s.IsNumeric) (sweep : Sweep s base done (id :: rest)) (reshaped : Reshaped s t)
    (soFar : Settled least s t done) :
    (clampNode id (.num least)).Ends t (fun _ u => Settled least s u (done ++ [id])) fun _ _ => False := by
  obtain ⟨n, found⟩ := exists_find? sweep.next_leads.mem_ids
  obtain rfl := id_of_find? found
  have isNode := mem_of_find? found
  have here : t.find? n.id = some n := by rw [soFar n isNode, if_neg sweep.next_notMem]
  rw [Edit.ends_of_ok (clampNode_from (numeric.reshaped reshaped) here)]
  have find? : ∀ other, (t.put (n.boxedFrom least (t.room n.parent))).find? other =
      if other = n.id then some (n.boxedFrom least (t.room n.parent)) else t.find? other :=
    find?_put (m := n.boxedFrom least (t.room n.parent)) here
  have sameElsewhere : ∀ {other : Text}, other ≠ n.id →
      (t.put (n.boxedFrom least (t.room n.parent))).room other = t.room other := by
    intro other differs
    refine room_congr ?_ rfl rfl
    rw [find?, if_neg differs]
  intro k member
  have link := parent?_of_mem rooted.distinct member
  rw [find?]
  by_cases same : k.id = n.id
  · obtain rfl := eq_of_id_eq rooted.distinct member isNode same
    rw [if_pos rfl, if_pos (List.mem_append_right _ (List.mem_singleton_self _)),
      sameElsewhere (rooted.parent_ne link)]
  · have stays : k.id ∈ done ++ [n.id] ↔ k.id ∈ done := by simp [same]
    rw [if_neg same, soFar k member]
    by_cases isDone : k.id ∈ done
    · have above : k.parent ≠ n.id := fun isChild =>
        sweep.fresh (sweep.next_ne rooted) (isChild ▸ link) (List.mem_append_left _ isDone)
      rw [if_pos isDone, if_pos (stays.mpr isDone), sameElsewhere above]
    · rw [if_neg isDone, if_neg (mt stays.mp isDone)]

/-- What is within a node is in the boxes that their parents' sides give; the others are as they were. -/
def BoxedWithin (least : ℚ) (s t : Store ℚ) (id : Text) : Prop :=
  ∀ n ∈ s.nodes, (s.IsWithin n.id id → t.find? n.id = some (n.boxedFrom least (t.room n.parent))) ∧
    (¬s.IsWithin n.id id → t.find? n.id = some n)

/-- Clamping a node and everything below it puts exactly these nodes into the boxes that their
parents' sides give; clamping below the root puts all. -/
theorem boxed_clampSubtree (rooted : IsRooted s) (numeric : s.IsNumeric) (known : id = root ∨ id ∈ s.ids) :
    (clampSubtree id (.num least)).Ends s (fun _ t => Reshaped s t ∧ BoxedWithin least s t id)
      fun _ _ => False := by
  have unsettled : Settled least s s [] := fun n member => by
    simpa using find?_of_mem rooted.distinct member
  refine ((ends_clampSubtree_of (fun done t => Settled least s t done) rooted numeric.plain known unsettled
    fun _ sweep reshaped soFar => settled_clampNode rooted numeric sweep reshaped soFar).and
      (keeps_clampSubtree s)).mono ?_ fun _ _ fails => fails.1
  rintro _ t ⟨⟨all, -, met, settled⟩, reshaped⟩
  refine ⟨reshaped, fun n member => ⟨fun within => ?_, fun apart => ?_⟩⟩
  · rw [settled n member, if_pos ((met n.id).mpr ⟨id_mem_ids member, within⟩)]
  · rw [settled n member, if_neg fun isMet => apart ((met n.id).mp isMet).2]

/-- Clamping everything below the root puts every node into the box that its parent's sides give. -/
theorem settled_clampSubtree (forest : IsForest s) (numeric : s.IsNumeric) :
    ∃ t, clampSubtree root (.int leastSide) s = .ok () t ∧ Reshaped s t ∧
      ∀ n ∈ s.nodes, t.find? n.id = some (n.boxed (t.room n.parent)) := by
  obtain ⟨_, t, ran, reshaped, boxed⟩ := (boxed_clampSubtree forest.isRooted numeric (.inl rfl)).ok
  refine ⟨t, ran, reshaped, fun n member => ?_⟩
  rw [Node.boxed_eq]
  exact (boxed n member).1 (.inr (forest.leadsUp_root (id_mem_ids member)))

end Store

end LayoutDesigner
