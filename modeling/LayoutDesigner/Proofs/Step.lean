import LayoutDesigner.Proofs.Fitted
import LayoutDesigner.Proofs.Moored
import LayoutDesigner.Proofs.Resized

/-!
# One step of a drag

A step of a drag starts from the measures that were captured when the drag began. It overwrites what the
steps before it made of the dragged node, and a resize puts everything below the node back before it
clamps. So where a step leads is told by the store at the beginning and by the distance, and compared with
that store only the dragged node, or in a resize what is within it, can have other measures.
-/

namespace LayoutDesigner

variable {α : Type}

namespace Store

variable {s t u : Store α} {id : Text} {n k : Node α} {touched : Text → Prop}

/-- The stores differ at most in the positions and sizes of nodes that are touched. -/
def ReshapedIn (touched : Text → Prop) (s t : Store α) : Prop :=
  Pointwise (fun n m => Node.Reshaped n m ∧ (¬touched n.id → m = n)) s t

namespace ReshapedIn

/-- What is reshaped in some nodes is reshaped. -/
theorem reshaped (related : ReshapedIn touched s t) : Reshaped s t := related.mono fun _ _ step => step.1

/-- What is reshaped is so in some nodes where all others are still. -/
theorem of_reshaped (reshaped : Reshaped s t) (distinct : s.ids.Nodup)
    (still : ∀ n ∈ s.nodes, ¬touched n.id → t.find? n.id = some n) : ReshapedIn touched s t := by
  refine (Pointwise.with_mem reshaped).mono fun n m ⟨step, isNode, isNode'⟩ => ⟨step, fun apart => ?_⟩
  have found := still n isNode apart
  rw [← step.id, find?_of_mem (reshaped.ids ▸ distinct) isNode'] at found
  exact Option.some.inj found

/-- What is reshaped in some nodes is so in more. -/
theorem widen {wider : Text → Prop} (related : ReshapedIn touched s t) (more : ∀ id, touched id → wider id) :
    ReshapedIn wider s t :=
  related.mono fun n _ step => ⟨step.1, fun apart => step.2 fun holds => apart (more n.id holds)⟩

/-- Two changes of some nodes are one of them. -/
theorem trans (first : ReshapedIn touched s t) (second : ReshapedIn touched t u) : ReshapedIn touched s u :=
  Pointwise.trans (fun first second => ⟨trans_of Node.Reshaped first.1 second.1, fun apart =>
    (second.2 (first.1.id ▸ apart)).trans (first.2 apart)⟩) first second

/-- Putting a node in its own place changes nothing else. -/
theorem put_one (found : s.find? n.id = some n) (step : Node.Reshaped n k) : ReshapedIn (· = n.id) s (s.put k) :=
  Pointwise.put (fun n => ⟨refl_of Node.Reshaped n, fun _ => rfl⟩) (step.id.symm ▸ found)
    ⟨step, fun other => absurd rfl other⟩

/-- Where no node is touched, the store stays. -/
theorem eq_of_none (related : ReshapedIn touched s t) (none : ∀ id, ¬touched id) : t = s := by
  have nodes : t.nodes = s.nodes := by
    simpa using related.map_eq (f := fun n => n) fun n _ step => step.2 (none n.id)
  cases s
  cases t
  cases related.width
  cases related.height
  cases nodes
  rfl

/-- A node that is not touched is found as it was. -/
theorem find?_eq (related : ReshapedIn touched s t) (apart : ¬touched id) : t.find? id = s.find? id := by
  have found := Pointwise.find? (fun _ _ step => step.1.id) related id
  generalize isNode : s.find? id = n?, t.find? id = m? at found ⊢
  cases found with
  | none => rfl
  | some step => rw [step.2 ((id_of_find? isNode).symm ▸ apart)]

/-- Nodes that are not touched stay. -/
theorem steady (related : ReshapedIn touched s t) : Steady (fun id => ¬touched id) s t :=
  related.mono fun n m step => ⟨step.1.id, step.1.plain, fun apart => by rw [step.2 apart]⟩

/-- Putting one node into both stores makes up for a difference there. -/
theorem put (related : ReshapedIn touched s t) (distinct : s.ids.Nodup) (member : k.id ∈ s.ids) :
    ReshapedIn (fun id => touched id ∧ id ≠ k.id) (s.put k) (t.put k) := by
  have ids := related.reshaped.ids
  rw [put_eq_modifyNode distinct member, put_eq_modifyNode (ids ▸ distinct) (ids ▸ member)]
  refine ⟨related.width, related.height, ?_⟩
  simp only [modifyNode, List.forall₂_map_left_iff, List.forall₂_map_right_iff]
  refine related.nodes.imp ?_
  rintro n m ⟨reshaped, still⟩
  rw [reshaped.id]
  split
  · exact ⟨refl_of Node.Reshaped k, fun _ => rfl⟩
  · next other => exact ⟨reshaped, fun apart => still fun holds => apart ⟨holds, other⟩⟩

/-- Putting touched nodes back to the measures that they had in the one store makes up for all differences. -/
theorem restore_eq {starts : List (Text × Geometry α)} (related : ReshapedIn (· ∈ starts.map Prod.fst) s t)
    (plain : s.IsPlain) (had : s.All fun n => ∀ entry ∈ starts, n.id = entry.1 → entry.2 = n.geometry) :
    Stage.restore starts t = s := by
  induction starts generalizing t with
  | nil => exact related.eq_of_none fun _ => List.not_mem_nil
  | cons entry rest ih =>
      refine ih ⟨related.width, related.height, ?_⟩ fun n isNode other inRest =>
        had n isNode other (List.mem_cons_of_mem _ inRest)
      simp only [modifyNode, List.forall₂_map_right_iff]
      refine related.with_mem.nodes.imp ?_
      rintro n m ⟨⟨reshaped, still⟩, isNode, _⟩
      rw [reshaped.id]
      split
      · next here =>
          have back : m.setGeometry entry.2 = n := by
            rw [had n isNode entry List.mem_cons_self here, reshaped.rest, Node.setGeometry_geometry (plain n isNode)]
          rw [back]
          exact ⟨refl_of Node.Reshaped n, fun _ => rfl⟩
      · next other =>
          refine ⟨reshaped, fun apart => still fun listed => ?_⟩
          rw [List.map_cons, List.mem_cons] at listed
          exact listed.elim other apart

end ReshapedIn

/-- What a drag of a node leaves of a store: a move changes at most where the node is, and a resize where
what is within the node is, and how large. -/
structure DragsOnly (s : Store α) (id : Text) (resizing : Bool) (t : Store α) : Prop where
  move : resizing = false → Pointwise (fun n m => (∃ x y, m = { n with x, y }) ∧ (n.id ≠ id → m = n)) s t
  resize : resizing = true →
    Pointwise (fun n m => (∃ x y w h, m = { n with x, y, w, h }) ∧ (¬s.IsWithin n.id id → m = n)) s t

namespace DragsOnly

variable {resizing : Bool}

/-- Nothing is dragged where nothing moves. -/
theorem refl (s : Store α) (id : Text) (resizing : Bool) : DragsOnly s id resizing s where
  move _ := Pointwise.refl (fun _ => ⟨⟨_, _, rfl⟩, fun _ => rfl⟩) s
  resize _ := Pointwise.refl (fun _ => ⟨⟨_, _, _, _, rfl⟩, fun _ => rfl⟩) s

/-- A move drags the one node. -/
theorem reshapedIn_move (drags : DragsOnly s id false t) : ReshapedIn (· = id) s t := by
  refine (drags.move rfl).mono ?_
  rintro n _ ⟨⟨x, y, rfl⟩, elsewhere⟩
  exact ⟨⟨fun _ => rfl, fun plain => plain⟩, elsewhere⟩

/-- A moved node makes up for all that moving it changed. -/
theorem put_eq (drags : DragsOnly s id false t) (distinct : s.ids.Nodup) (member : id ∈ s.ids) (sameId : k.id = id) :
    t.put k = s.put k :=
  (drags.reshapedIn_move.put distinct (sameId ▸ member)).eq_of_none fun _ ⟨here, other⟩ => other (here.trans sameId.symm)

/-- A drag changes the nodes of one subtree. -/
theorem reshapedIn (drags : DragsOnly s id resizing t) : ReshapedIn (s.IsWithin · id) s t := by
  cases resizing with
  | false => exact drags.reshapedIn_move.widen fun _ here => .inl here
  | true =>
      refine (drags.resize rfl).mono ?_
      rintro n _ ⟨⟨x, y, w, h, rfl⟩, outside⟩
      exact ⟨⟨fun _ => rfl, fun plain => plain⟩, outside⟩

/-- A change of the nodes of one subtree is a resize. -/
theorem of_reshapedIn (related : ReshapedIn (s.IsWithin · id) s t) (plain : s.IsPlain) : DragsOnly s id true t where
  move isMove := by cases isMove
  resize _ := related.with_mem.mono fun n m ⟨⟨reshaped, outside⟩, isNode, _⟩ =>
    ⟨⟨_, _, _, _, reshaped.eq_of_plain (plain n isNode) (reshaped.plain (plain n isNode))⟩, outside⟩

end DragsOnly

end Store

/-- What a drag captured of a node of a store, and where it resizes, of everything below the node. -/
structure Gesture.Captures (g : Gesture α) (s : Store α) (n : Node α) : Prop where
  isNode : n ∈ s.nodes
  nodeId : g.nodeId = n.id
  parent : g.parent = n.parent
  start : g.start = n.geometry
  descendants : g.resizing = true → g.descendantStarts =
    (s.descendants n.id).filterMap fun id => (s.find? id).map fun d => (id, d.geometry)

namespace Gesture.Captures

open Store

variable {s t : Store α} {g : Gesture α} {n m k : Node α}

/-- A captured box is typed where its node is. -/
theorem typed (captures : g.Captures s n) (plain : n.unchecked = []) : g.start.unchecked = [] := by
  simp [captures.start, Node.geometry, plain]

/-- What was captured of below the node: the measures of what is below it. -/
theorem mem_starts (captures : g.Captures s n) (forest : s.IsForest) (resizing : g.resizing = true) {entry : Text × Geometry α} :
    entry ∈ g.descendantStarts ↔ ∃ d ∈ s.nodes, s.LeadsUp d.id n.id ∧ entry = (d.id, d.geometry) := by
  rw [captures.descendants resizing, List.mem_filterMap]
  constructor
  · rintro ⟨id, below, isEntry⟩
    obtain ⟨d, found, rfl⟩ := Option.map_eq_some_iff.mp isEntry
    obtain rfl := id_of_find? found
    exact ⟨d, mem_of_find? found, forest.isBelow_iff.mp (List.mem_filter.mp below).2, rfl⟩
  · rintro ⟨d, isNode, below, rfl⟩
    refine ⟨d.id, List.mem_filter.mpr ⟨id_mem_ids isNode, forest.isBelow_iff.mpr below⟩, ?_⟩
    rw [find?_of_mem forest.distinct isNode, Option.map_some]

/-- In a forest the captured boxes of a resize are those of the nodes below. -/
theorem mem_ids_starts (captures : g.Captures s n) (forest : s.IsForest) (resizing : g.resizing = true) {id : Text} :
    id ∈ g.descendantStarts.map Prod.fst ↔ s.LeadsUp id n.id := by
  rw [List.mem_map]
  constructor
  · rintro ⟨entry, listed, rfl⟩
    obtain ⟨d, -, below, rfl⟩ := (captures.mem_starts forest resizing).mp listed
    exact below
  · intro below
    obtain ⟨d, found⟩ := exists_find? below.mem_ids
    obtain rfl := id_of_find? found
    exact ⟨_, (captures.mem_starts forest resizing).mpr ⟨d, mem_of_find? found, below, rfl⟩, rfl⟩

/-- A step of a resize puts everything back but the node itself. -/
theorem restore_put (captures : g.Captures s n) (forest : s.IsForest) (plain : s.IsPlain) (resizing : g.resizing = true)
    (typed : k.unchecked = []) (sameId : k.id = n.id) (related : ReshapedIn (s.IsWithin · n.id) s t) :
    Stage.restore g.descendantStarts (t.put k) = s.put k := by
  have member : k.id ∈ s.ids := sameId ▸ id_mem_ids captures.isNode
  have had : s.All fun d => ∀ entry ∈ g.descendantStarts, d.id = entry.1 → entry.2 = d.geometry := by
    intro d isNode' entry listed here
    obtain ⟨d', isNode'', -, rfl⟩ := (captures.mem_starts forest resizing).mp listed
    rw [eq_of_id_eq forest.distinct isNode' isNode'' here]
  refine ReshapedIn.restore_eq ((related.put forest.distinct member).widen fun id ⟨within, other⟩ => ?_)
    (All.put plain typed) (had.put fun entry listed here => ?_)
  · exact (captures.mem_ids_starts forest resizing).mpr (within.resolve_left (sameId ▸ other))
  · have below := (captures.mem_ids_starts forest resizing).mp (List.mem_map_of_mem listed)
    rw [← here, sameId] at below
    exact absurd below forest.not_leadsUp_self

end Gesture.Captures

/-- The node a distance away from where it started. -/
def Node.shifted (n : Node ℚ) (start : Geometry ℚ) (dx dy : ℚ) : Node ℚ := (n.setX (start.x + dx)).setY (start.y + dy)

/-- A shift changes the place and the sides of a node alone. -/
theorem Node.Reshaped.shifted (n : Node ℚ) (start : Geometry ℚ) (dx dy : ℚ) : Reshaped n (n.shifted start dx dy) :=
  trans_of Reshaped (.setX n _) (.setY _ _)

/-- Moving a typed node puts it a distance away from its start, and clamps it. -/
theorem Node.applyMove_num {n : Node ℚ} {start : Geometry ℚ} (plain : n.unchecked = []) (typed : start.unchecked = [])
    (least dx dy : ℚ) (room : ℚ × ℚ) :
    applyMove start (.num dx) (.num dy) (.arr [.num room.1, .num room.2]) (.num least) n =
      .ok () ((n.shifted start dx dy).boxedFrom least room) := by
  refine Edit.eq_of_ends ?_
  unfold applyMove
  simp only [Edit.ends_bind, Edit.ends_modify, typed]
  refine Edit.ends_lift_ok rfl (Edit.ends_lift_ok rfl (Edit.ends_lift_ok rfl ?_))
  refine Edit.ends_lift_ok rfl (Edit.ends_lift_ok rfl (Edit.ends_lift_ok rfl (Edit.ends_lift_ok rfl ?_)))
  exact (Edit.ends_of_ok (clampIn_from least ((Reshaped.shifted n start dx dy).plain plain) room)).mpr rfl

namespace Store

variable {s t : Store ℚ} {id parent : Text} {touched : Text → Prop}

/-- What was boxed within a subtree is a change of this subtree. -/
theorem BoxedWithin.reshapedIn {least : ℚ} (boxed : BoxedWithin least s t id) (reshaped : Reshaped s t)
    (distinct : s.ids.Nodup) : ReshapedIn (s.IsWithin · id) s t :=
  .of_reshaped reshaped distinct fun n isNode => (boxed n isNode).2

/-- A parent that is not touched has the same room. -/
theorem ReshapedIn.room_eq (related : ReshapedIn touched s t) (apart : ¬touched parent) : t.room parent = s.room parent :=
  room_congr (related.find?_eq apart) related.width related.height

end Store

namespace Stage

open Store

variable {s t : Store ℚ} {g : Gesture ℚ} {n m : Node ℚ} {edges : Edges} {fault : Fault}

/-- A move shifts the node by the distance and puts it into its box. -/
theorem dragBy_of_move (numeric : s.IsNumeric) (found : s.find? n.id = some n) (moving : g.resizing = false)
    (typed : g.start.unchecked = []) (least dx dy : ℚ) :
    dragBy g n dx dy (.num least) s =
      .ok () (s.put ((n.shifted g.start dx dy).boxedFrom least (s.room n.parent))) := by
  refine Edit.eq_of_ends ?_
  unfold dragBy
  simp only [Edit.ends_bind, Edit.ends_get, moving, Bool.false_eq_true, if_false, ends_onNode_of_found found,
    numeric.parentSize_eq]
  exact (Edit.ends_of_ok (Node.applyMove_num (numeric.plain n (mem_of_find? found)) typed least dx dy _)).mpr rfl

/-- A resize drags the edges of the node, restores what was captured and clamps the subtree. -/
theorem dragBy_of_resize (numeric : s.IsNumeric) (found : s.find? n.id = some n) (resizing : g.resizing = true)
    (typed : g.start.unchecked = []) (readable : Edges.ofHandle g.handle = .ok edges) (least dx dy : ℚ) :
    dragBy g n dx dy (.num least) s = clampSubtree n.id (.num least) (restore g.descendantStarts
      (s.put ((n.resized g.start edges least dx dy).boxedFrom least (s.room n.parent)))) := by
  refine Edit.eq_of_ends ?_
  unfold dragBy
  simp only [Edit.ends_bind, Edit.ends_get, resizing, if_true, ends_onNode_of_found found, numeric.parentSize_eq,
    Edit.ends_modify]
  have resized := Node.applyResize_from (numeric.plain n (mem_of_find? found)) typed least dx dy (s.room n.parent) readable
  exact (Edit.ends_of_ok resized).mpr (Edit.ends_self _ _)

/-- Where the handle cannot be read, a step of a resize fails and changes nothing. -/
theorem dragBy_of_unreadable (numeric : s.IsNumeric) (found : s.find? n.id = some n)
    (resizing : g.resizing = true) (typed : g.start.unchecked = []) (unreadable : Edges.ofHandle g.handle = .error fault)
    (least : Value ℚ) (dx dy : ℚ) : dragBy g n dx dy least s = .error fault s := by
  refine Edit.eq_of_ends ?_
  unfold dragBy
  simp only [Edit.ends_bind, Edit.ends_get, resizing, if_true, ends_onNode_of_found found]
  have failed := Node.applyResize_unreadable (numeric.plain n (mem_of_find? found)) typed dx dy
    (.arr [(s.parentSize n.parent).1, (s.parentSize n.parent).2]) least unreadable
  rw [Edit.ends_of_error failed, put_self found]

end Stage

/-- A drag captured a node in a forest of typed nodes. -/
structure Gesture.Grips (g : Gesture ℚ) (s : Store ℚ) (n : Node ℚ) : Prop extends Gesture.Captures g s n where
  forest : s.IsForest
  numeric : s.IsNumeric

namespace Gesture.Grips

open Store

variable {s t : Store ℚ} {g : Gesture ℚ} {n m : Node ℚ} {least : ℚ} {edges : Edges} {fault : Fault}

section

variable (grips : g.Grips s n)

include grips

/-- The grabbed node is plain. -/
theorem plain : n.unchecked = [] := grips.numeric.plain n grips.isNode

/-- The grabbed box is typed. -/
theorem typed : g.start.unchecked = [] := grips.toCaptures.typed grips.plain

/-- The grabbed node is found. -/
theorem found : s.find? n.id = some n := find?_of_mem grips.forest.distinct grips.isNode

/-- A node's parent is not within its subtree. -/
theorem not_isWithin_parent : ¬s.IsWithin n.parent n.id :=
  grips.forest.isRooted.not_isWithin_parent (parent?_of_mem grips.forest.distinct grips.isNode)

/-- A step of a move puts the node the distance away from where it was when the drag began, and clamps it.
What the steps before made of the store does not matter. -/
theorem dragBy_moves (drags : DragsOnly s n.id g.resizing t) (found : t.find? n.id = some m)
    (moving : g.resizing = false) (dx dy : ℚ) : Stage.dragBy g m dx dy (.num least) t =
      .ok () (s.put ((n.shifted g.start dx dy).boxedFrom least (s.room n.parent))) := by
  have related := drags.reshapedIn
  have room := related.room_eq grips.not_isWithin_parent
  rw [moving] at drags
  obtain ⟨⟨x, y, rfl⟩, -⟩ := (drags.move rfl).of_find? (by rintro a _ ⟨⟨x, y, rfl⟩, -⟩; rfl) grips.found found
  rw [Stage.dragBy_of_move (grips.numeric.reshaped related.reshaped) found moving grips.typed]
  have target : (({ n with x := x, y := y } : Node ℚ).shifted g.start dx dy).boxedFrom least (t.room n.parent) =
      (n.shifted g.start dx dy).boxedFrom least (s.room n.parent) := by
    rw [room]
    rfl
  refine congrArg (EStateM.Result.ok ()) ((congrArg t.put target).trans ?_)
  exact drags.put_eq grips.forest.distinct (id_mem_ids grips.isNode) rfl

/-- A step of a resize drags the edges from where they were when the drag began, and clamps what is within
the node from where it was then. What the steps before made of the store does not matter. -/
theorem dragBy_resizes (drags : DragsOnly s n.id g.resizing t) (found : t.find? n.id = some m)
    (resizing : g.resizing = true) (readable : Edges.ofHandle g.handle = .ok edges) (dx dy : ℚ) :
    Stage.dragBy g m dx dy (.num least) t = clampSubtree n.id (.num least)
      (s.put ((n.resized g.start edges least dx dy).boxedFrom least (s.room n.parent))) := by
  have related := drags.reshapedIn
  have room := related.room_eq grips.not_isWithin_parent
  have step := (Pointwise.of_find? (fun _ _ step => step.1.id) related grips.found found).1
  obtain ⟨x, y, w, h, rfl⟩ : ∃ x y w h, m = { n with x, y, w, h } :=
    ⟨_, _, _, _, step.eq_of_plain grips.plain (step.plain grips.plain)⟩
  rw [Stage.dragBy_of_resize (grips.numeric.reshaped related.reshaped) found resizing grips.typed readable]
  have target : (({ n with x := x, y := y, w := w, h := h } : Node ℚ).resized g.start edges least dx dy).boxedFrom least
      (t.room n.parent) = (n.resized g.start edges least dx dy).boxedFrom least (s.room n.parent) := by
    rw [room]
    rfl
  refine congrArg (clampSubtree n.id (.num least)) ?_
  exact (congrArg (fun k => Stage.restore g.descendantStarts (t.put k)) target).trans
    (grips.restore_put grips.forest grips.numeric.plain resizing grips.plain rfl related)

/-- A step of a move of a node whose sides fit changes only where the node is. -/
theorem dragsOnly_move (width : roundedInto least (s.room n.parent).1 n.w = n.w)
    (height : roundedInto least (s.room n.parent).2 n.h = n.h) (moving : g.resizing = false) (dx dy : ℚ) :
    DragsOnly s n.id g.resizing (Edit.state (Stage.dragBy g n dx dy (.num least) s)) := by
  rw [grips.dragBy_moves (.refl ..) grips.found moving]
  let target := (n.shifted g.start dx dy).boxedFrom least (s.room n.parent)
  have moved : Node.Reshaped n target := trans_of Node.Reshaped (.shifted n g.start dx dy) (.boxedFrom _ least _)
  have isTarget := moved.eq_of_plain grips.plain (moved.plain grips.plain)
  rw [show target.w = n.w from width, show target.h = n.h from height] at isTarget
  refine ⟨fun _ => ?_, fun resizing => by simp [moving] at resizing⟩
  exact Pointwise.put (fun k => ⟨⟨_, _, rfl⟩, fun _ => rfl⟩) grips.found ⟨⟨_, _, isTarget⟩, fun other => absurd rfl other⟩

/-- A step of a resize changes only measures of what is within the node. -/
theorem dragsOnly_resize (resizing : g.resizing = true) (readable : Edges.ofHandle g.handle = .ok edges) (dx dy : ℚ) :
    DragsOnly s n.id g.resizing (Edit.state (Stage.dragBy g n dx dy (.num least) s)) := by
  rw [grips.dragBy_resizes (.refl ..) grips.found resizing readable, resizing]
  have step : Node.Reshaped n ((n.resized g.start edges least dx dy).boxedFrom least (s.room n.parent)) :=
    trans_of Node.Reshaped (.resized n g.start edges least dx dy) (.boxedFrom _ least _)
  have resized : ReshapedIn (· = n.id) s (s.put _) := .put_one grips.found step
  have links := resized.reshaped.links
  obtain ⟨_, u, ran, reshaped, boxed⟩ := (boxed_clampSubtree (grips.forest.congr links).isRooted
    (grips.numeric.reshaped resized.reshaped) (.inr (resized.reshaped.ids ▸ id_mem_ids grips.isNode))).ok
  rw [ran]
  have clamped := (boxed.reshapedIn reshaped (resized.reshaped.ids ▸ grips.forest.distinct)).widen
    fun _ => (IsWithin.of_links links).mp
  exact .of_reshapedIn ((resized.widen fun _ => .inl).trans clamped) grips.numeric.plain

end

end Gesture.Grips

end LayoutDesigner
