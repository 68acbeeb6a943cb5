import LayoutDesigner.Stage
import LayoutDesigner.Proofs.Hierarchy

/-!
# Following a drag

A step of a drag changes positions and sizes and nothing else. Where the measures of the store and
those that the drag began with fit, it fails only where the handle cannot be read, and then the
store is as it was before. What a drag is made of (aiming at a node, grabbing it, moving the pointer,
letting go) has one lemma each, which says how that ends.
-/

namespace LayoutDesigner

open Arith

variable {α : Type}

/-- All measures that a drag began with are typed. -/
structure Gesture.IsPlain (g : Gesture α) : Prop where
  start : g.start.unchecked = []
  descendants : ∀ entry ∈ g.descendantStarts, entry.2.unchecked = []

/-- Putting nodes back to typed measures changes nothing but measures. -/
theorem Stage.reshaped_restore {starts : List (Text × Geometry α)}
    (plain : ∀ entry ∈ starts, entry.2.unchecked = []) (s : Store α) :
    Store.Reshaped s (restore starts s) := by
  induction starts generalizing s with
  | nil => exact refl_of Store.Reshaped s
  | cons entry rest ih =>
      have first : Store.Reshaped s (s.modifyNode entry.1 (·.setGeometry entry.2)) :=
        .modifyNode (fun n => refl_of Node.Reshaped n) (fun n => .setGeometry n (plain entry List.mem_cons_self)) s _
      exact trans_of Store.Reshaped first (ih (fun other inRest => plain other (List.mem_cons_of_mem _ inRest)) _)

/-- What holds of all nodes, and of any node with one of the captured boxes, holds after restoring. -/
theorem Stage.all_restore {starts : List (Text × Geometry α)} {P : Node α → Prop} {s : Store α}
    (written : ∀ entry ∈ starts, ∀ n : Node α, P (n.setGeometry entry.2)) (all : s.All P) : (restore starts s).All P := by
  induction starts generalizing s with
  | nil => exact all
  | cons entry rest ih =>
      exact ih (fun other inRest => written other (List.mem_cons_of_mem _ inRest))
        (all.modifyNode entry.1 fun n _ => written entry List.mem_cons_self n)

/-- A step of a resize changes the node and puts back what is below it. -/
theorem Stage.reshaped_put_restore {s : Store α} {n m : Node α} {starts : List (Text × Geometry α)}
    (found : s.find? n.id = some n) (reshaped : Node.Reshaped n m)
    (plain : ∀ entry ∈ starts, entry.2.unchecked = []) : Store.Reshaped s (restore starts (s.put m)) :=
  trans_of Store.Reshaped (.put found reshaped) (reshaped_restore plain _)

variable [Arith α]

/-- The measures of the geometry are typed and fit. -/
structure Geometry.IsMeasured (g : Geometry α) : Prop where
  plain : g.unchecked = []
  x : Fits g.x
  y : Fits g.y
  w : Fits g.w
  h : Fits g.h

/-- A measured node has a measured box. -/
theorem Node.IsMeasured.geometry {n : Node α} (measured : n.IsMeasured) : n.geometry.IsMeasured where
  plain := by simp [Node.geometry, measured.plain]
  x := measured.x
  y := measured.y
  w := measured.w
  h := measured.h

/-- A measured node with a measured box is measured. -/
theorem Node.IsMeasured.setGeometry {n : Node α} {g : Geometry α} (measured : n.IsMeasured)
    (start : g.IsMeasured) : (n.setGeometry g).IsMeasured :=
  { measured with
    plain := (Reshaped.setGeometry n start.plain).plain measured.plain
    x := start.x, y := start.y, w := start.w, h := start.h }

/-- All measures that a drag began with fit. -/
structure Gesture.IsMeasured (g : Gesture α) : Prop where
  start : g.start.IsMeasured
  descendants : ∀ entry ∈ g.descendantStarts, entry.2.IsMeasured
  pointer : Store.IsRealPoint g.startPointer

/-- Restoring measured boxes leaves a store measured. -/
theorem Stage.measured_restore {starts : List (Text × Geometry α)} {s : Store α}
    (fit : ∀ entry ∈ starts, entry.2.IsMeasured) (measured : s.IsMeasured) :
    (restore starts s).IsMeasured := by
  induction starts generalizing s with
  | nil => exact measured
  | cons entry rest ih =>
      exact ih (fun other inRest => fit other (List.mem_cons_of_mem _ inRest))
        (measured.modifyNode entry.1 fun n isMeasured => isMeasured.setGeometry (fit entry List.mem_cons_self))

/-- A step of a drag changes nothing but measures, also where it fails. -/
theorem Stage.reshaped_dragBy {s : Store α} {g : Gesture α} {n : Node α} {least : Value α} (plain : g.IsPlain) (dx dy : α) :
    (dragBy g n dx dy least).Leaves s (Store.Reshaped s) := by
  unfold dragBy
  refine Edit.leaves_get ?_
  dsimp only
  split
  · refine (Edit.ends_bind _ _).mpr ((Store.keeps_onNode Node.keeps_applyResize s).mono (fun _ t first => ?_)
      fun _ _ first => first)
    have back := trans_of Store.Reshaped first (reshaped_restore plain.descendants t)
    refine (Store.keeps_clampSubtree (restore g.descendantStarts t)).mono (fun _ _ last => ?_) fun _ _ last => ?_
    all_goals exact trans_of Store.Reshaped back last
  · exact Store.keeps_onNode Node.keeps_applyMove s

section

variable [Lawful α] {low high side a b : α} {distance least : Value α}

/-- A dragged end comes to a real place. -/
theorem dragEnd_ok {place : α} (real : IsReal place) (measure : distance.IsMeasure) (moved : Bool) :
    ∃ p, dragEnd place distance moved = .ok p ∧ IsReal p := by
  obtain ⟨d, isOperand, fits⟩ := measure
  rw [dragEnd]
  cases moved with
  | false => exact ⟨place, rfl, real⟩
  | true =>
      obtain ⟨p, isSum⟩ := Lawful.add_ok real.fits fits
      refine ⟨p, ?_, Lawful.isReal_add isSum (.inl real)⟩
      rw [if_pos rfl, isOperand]
      exact isSum

/-- The ends of a dragged side come to real places. -/
theorem dragSide_ok (real : IsReal low) (fits : Fits side) (measure : distance.IsMeasure)
    (moveLow moveHigh : Bool) :
    ∃ p, dragSide low side distance moveLow moveHigh = .ok p ∧ IsReal p.1 ∧ IsReal p.2 := by
  obtain ⟨high, isHigh⟩ := Lawful.add_ok real.fits fits
  obtain ⟨newLow, isLow, lowReal⟩ := dragEnd_ok real measure moveLow
  obtain ⟨newHigh, isNewHigh, highReal⟩ :=
    dragEnd_ok (Lawful.isReal_add isHigh (.inl real)) measure moveHigh
  refine ⟨(newLow, newHigh), ?_, lowReal, highReal⟩
  rw [dragSide, isHigh]
  change (do
    let newLow ← dragEnd low distance moveLow
    let newHigh ← dragEnd high distance moveHigh
    Except.ok (newLow, newHigh)) = _
  rw [isLow, isNewHigh]
  rfl

/-- The ends of a side that was widened to the least length are real. -/
theorem pinSide_ok (lowReal : IsReal low) (highReal : IsReal high) (measure : least.IsMeasure)
    (moveLow : Bool) : ∃ p, pinSide low high least moveLow = .ok p ∧ IsReal p.1 ∧ IsReal p.2 := by
  obtain ⟨span, isSpan⟩ := Lawful.sub_ok highReal.fits lowReal.fits
  obtain ⟨l, isOperand, fits⟩ := measure
  obtain ⟨newLow, isLow⟩ := Lawful.sub_ok highReal.fits fits
  obtain ⟨newHigh, isHigh⟩ := Lawful.add_ok lowReal.fits fits
  simp only [pinSide, isSpan, isOperand]
  change ∃ p, (if Arith.lt span l then
      if moveLow then do return (← Arith.sub high l, high) else do return (low, ← Arith.add low l)
    else .ok (low, high)) = Except.ok p ∧ IsReal p.1 ∧ IsReal p.2
  rw [isLow, isHigh]
  split
  · cases moveLow with
    | true => exact ⟨(newLow, high), rfl, Lawful.isReal_sub isLow (.inl highReal), highReal⟩
    | false => exact ⟨(low, newHigh), rfl, lowReal, Lawful.isReal_add isHigh (.inl lowReal)⟩
  · exact ⟨(low, high), rfl, lowReal, highReal⟩

/-- Where the anchor of a side comes to lie that begins at `low`. -/
theorem anchoredAt_ok {anchor : α} (anchorReal : IsReal anchor) (lowReal : IsReal low) (sideFits : Fits side) :
    ∃ d, Arith.mul anchor side = .ok d ∧ ∃ p, Arith.add low d = .ok p ∧ Fits p := by
  obtain ⟨d, isProduct⟩ := Lawful.mul_ok anchorReal.fits sideFits
  obtain ⟨p, isSum⟩ := Lawful.add_ok lowReal.fits (Lawful.isReal_mul isProduct (.inl anchorReal)).fits
  exact ⟨d, isProduct, p, isSum, (Lawful.isReal_add isSum (.inl lowReal)).fits⟩

namespace Node

variable {n : Node α} {start : Geometry α} {dx dy : α} {handle parentW parentH : Value α}

/-- Moving a node whose measures fit does not fail. -/
theorem ends_applyMove (measured : n.IsMeasured) (startFits : start.IsMeasured) (dxReal : IsReal dx)
    (dyReal : IsReal dy) (leastMeasure : least.IsMeasure) (wMeasure : parentW.IsMeasure)
    (hMeasure : parentH.IsMeasure) :
    (applyMove start (.num dx) (.num dy) (.arr [parentW, parentH]) least).Ends n
      (fun _ m => m.IsMeasured) fun _ _ => False := by
  obtain ⟨x, isX⟩ := Lawful.add_ok startFits.x dxReal.fits
  obtain ⟨y, isY⟩ := Lawful.add_ok startFits.y dyReal.fits
  have xReal := Lawful.isReal_add isX (.inr dxReal)
  have yReal := Lawful.isReal_add isY (.inr dyReal)
  unfold applyMove
  simp only [Edit.ends_bind, Edit.ends_modify, needNumbers_plain startFits.plain]
  refine Edit.ends_lift_ok rfl ?_
  refine Edit.ends_lift_ok rfl ?_
  refine Edit.ends_lift_ok isX ?_
  refine Edit.ends_lift_ok rfl ?_
  refine Edit.ends_lift_ok rfl ?_
  refine Edit.ends_lift_ok isY ?_
  refine Edit.ends_lift_ok rfl ?_
  exact ends_clampIn ((measured.setX xReal.fits).setY yReal.fits) leastMeasure
    wMeasure hMeasure

/-- Resizing a node whose measures fit fails only where the handle cannot be read; then the node is
as it was. -/
theorem ends_applyResize (measured : n.IsMeasured) (startFits : start.IsMeasured)
    (dxReal : IsReal dx) (dyReal : IsReal dy) (leastMeasure : least.IsMeasure)
    (wMeasure : parentW.IsMeasure) (hMeasure : parentH.IsMeasure) :
    (applyResize start (.num dx) (.num dy) handle (.arr [parentW, parentH]) least).Ends n
      (fun _ m => m.IsMeasured) fun _ m => m = n := by
  have dxMeasure : (Value.num dx).IsMeasure := Value.isMeasure_num.mpr dxReal.fits
  have dyMeasure : (Value.num dy).IsMeasure := Value.isMeasure_num.mpr dyReal.fits
  unfold applyResize
  simp only [Edit.ends_bind, Edit.ends_get, Edit.ends_modify, needNumbers_plain startFits.plain,
    needNumbers_plain measured.plain]
  refine Edit.ends_lift_ok rfl ?_
  refine Edit.ends_lift_ok rfl ?_
  -- The corner is that of the node as the drag began.
  obtain ⟨a, b, left, top, isA, isB, isLeft, isTop, leftReal, topReal⟩ := (measured.setGeometry startFits).corner_ok
  refine Edit.ends_lift_ok isA ?_
  refine Edit.ends_lift_ok isLeft ?_
  refine Edit.ends_lift_ok isB ?_
  refine Edit.ends_lift_ok isTop ?_
  rw [Edit.ends_lift]
  refine ⟨fun edges _ => ?_, fun _ _ => rfl⟩
  refine Edit.ends_lift_of (dragSide_ok leftReal startFits.w dxMeasure _ _) fun xs xsReal => ?_
  refine Edit.ends_lift_of (dragSide_ok topReal startFits.h dyMeasure _ _) fun ys ysReal => ?_
  refine Edit.ends_lift_of (pinSide_ok xsReal.1 xsReal.2 leastMeasure _) fun xs xsReal => ?_
  refine Edit.ends_lift_of (pinSide_ok ysReal.1 ysReal.2 leastMeasure _) fun ys ysReal => ?_
  obtain ⟨width, isWidth⟩ := Lawful.sub_ok xsReal.2.fits xsReal.1.fits
  obtain ⟨height, isHeight⟩ := Lawful.sub_ok ysReal.2.fits ysReal.1.fits
  have widthReal := Lawful.isReal_sub isWidth (.inl xsReal.2)
  have heightReal := Lawful.isReal_sub isHeight (.inl ysReal.2)
  refine Edit.ends_lift_ok isWidth ?_
  refine Edit.ends_lift_of (roundHalfUp_ok widthReal.fits) fun w wFits => ?_
  refine Edit.ends_lift_ok isHeight ?_
  refine Edit.ends_lift_of (roundHalfUp_ok heightReal.fits) fun h hFits => ?_
  obtain ⟨a, isA, x, isX, xFits⟩ := anchoredAt_ok measured.anchorX xsReal.1 wFits
  obtain ⟨b, isB, y, isY, yFits⟩ := anchoredAt_ok measured.anchorY ysReal.1 hFits
  refine Edit.ends_lift_ok isA ?_
  refine Edit.ends_lift_ok isX ?_
  refine Edit.ends_lift_ok isB ?_
  refine Edit.ends_lift_ok isY ?_
  refine Edit.ends_lift_ok rfl ?_
  exact (ends_clampIn ((((measured.setW wFits).setH hFits).setX xFits).setY yFits)
    leastMeasure wMeasure hMeasure).mono (fun _ _ isMeasured => isMeasured) fun _ _ fails => fails.elim

end Node

namespace Stage

variable {s : Store α} {g : Gesture α} {n : Node α}

/-- What a step of a drag does where measures fit: nothing where the handle cannot be read, else the
dragged node and what is below it get measures that fit; after a resize what is within it is clamped. -/
theorem ends_dragBy_of_measured (measured : s.IsMeasured) (found : s.find? n.id = some n) (starts : g.IsMeasured)
    {dx dy : α} (dxReal : IsReal dx) (dyReal : IsReal dy) (leastMeasure : least.IsMeasure)
    {done : Unit → Store α → Prop} {failed : Fault → Store α → Prop} (fails : ∀ fault, failed fault s)
    (moves : ∀ t, t.IsMeasured → Store.Reshaped s t → done () t)
    (clamps : ∀ t, t.IsMeasured → Store.Reshaped s t → (Store.clampSubtree n.id least).Ends t done failed) :
    (dragBy g n dx dy least).Ends s done failed := by
  have sizes := Store.parentSize_isMeasure measured n.parent
  have isMeasured := measured.of_find? found
  unfold dragBy
  simp only [Edit.ends_bind, Edit.ends_get]
  split
  · simp only [Edit.ends_bind, Edit.ends_modify]
    rw [Store.ends_onNode_of_found found]
    refine ((Node.ends_applyResize isMeasured starts.start dxReal dyReal leastMeasure sizes.1
      sizes.2).and (Node.keeps_applyResize n)).mono ?_ ?_
    · rintro _ m ⟨resized, reshaped⟩
      exact clamps _ (measured_restore starts.descendants (measured.put resized))
        (reshaped_put_restore found reshaped fun entry listed => (starts.descendants entry listed).plain)
    · rintro fault m ⟨rfl, -⟩
      exact (Store.put_self found).symm ▸ fails fault
  · rw [Store.ends_onNode_of_found found]
    refine ((Node.ends_applyMove isMeasured starts.start dxReal dyReal leastMeasure sizes.1 sizes.2).and
      (Node.keeps_applyMove n)).mono ?_ fun _ _ fails => fails.1.elim
    rintro _ m ⟨moved, reshaped⟩
    exact moves _ (measured.put moved) (.put found reshaped)

/-- Where measures fit, a step of a drag fails only where the handle cannot be read; then nothing is
changed. -/
theorem measured_dragBy (orderly : s.IsOrderly) (measured : s.IsMeasured)
    (found : s.find? n.id = some n) (starts : g.IsMeasured) {dx dy : α} (dxReal : IsReal dx)
    (dyReal : IsReal dy) (leastMeasure : least.IsMeasure) :
    (dragBy g n dx dy least).Ends s (fun _ t => t.IsMeasured) fun _ t => t = s := by
  refine ends_dragBy_of_measured measured found starts dxReal dyReal leastMeasure (fun _ => rfl)
    (fun _ isMeasured _ => isMeasured) fun t isMeasured reshaped => ?_
  have isNode : n.id ∈ t.ids := reshaped.ids ▸ Store.mem_ids_of_find? found
  exact (Store.ends_clampSubtree isMeasured (orderly.forest.congr reshaped.links).isRooted leastMeasure (.inr isNode)).mono
    (fun _ _ isMeasured => isMeasured) fun _ _ fails => fails.elim

end Stage

end

/-- A drag of a node as it begins. -/
def Gesture.begun (s : Store α) (n : Node α) (e : PointerEvent α) (startPointer : Point α) : Gesture α where
  resizing := e.handle.truthy
  nodeId := n.id
  handle := e.handle
  parent := n.parent
  start := n.geometry
  startPointer
  pointerId := e.pointerId
  descendantStarts :=
    if e.handle.truthy then (s.descendants n.id).filterMap fun id => (s.find? id).map fun d => (id, d.geometry) else []

/-- All that a drag begins with are measures of nodes. -/
theorem Gesture.exists_node_of_begun {s : Store α} {n : Node α} {e : PointerEvent α} {p : Point α}
    {entry : Text × Geometry α} (listed : entry ∈ (begun s n e p).descendantStarts) :
    ∃ d ∈ s.nodes, entry.2 = d.geometry := by
  simp only [begun] at listed
  split at listed
  · obtain ⟨id, -, isEntry⟩ := List.mem_filterMap.mp listed
    obtain ⟨d, found, rfl⟩ := Option.map_eq_some_iff.mp isEntry
    exact ⟨d, Store.mem_of_find? found, rfl⟩
  · cases listed

namespace Stage

variable {stage : Stage α} {e : PointerEvent α}

/-- Setting the zoom writes nothing else, and where it fails it writes nothing. -/
theorem ends_setZoom {value : Value α} {done : Unit → Stage α → Prop} {failed : Fault → Stage α → Prop}
    (sets : ∀ zoom, done () { stage with zoom })
    (fails : ∀ fault, setZoom value stage = .error fault stage → failed fault stage) :
    (setZoom value).Ends stage done failed := by
  have ends : (setZoom value).Ends stage (fun _ t => ∃ zoom, t = { stage with zoom }) fun _ t => t = stage := by
    unfold setZoom
    simp only [Edit.ends_bind, Edit.ends_get, Edit.ends_modify, Edit.ends_lift]
    refine ⟨fun asked _ => ⟨fun range _ => ⟨fun kept _ => ⟨fun zoom _ => ⟨zoom, rfl⟩, ?_⟩, ?_⟩, ?_⟩, ?_⟩
    all_goals exact fun _ _ => trivial
  cases ran : setZoom value stage with
  | ok answer t =>
      obtain ⟨zoom, rfl⟩ := ends.returned ran
      exact (Edit.ends_of_ok ran).mpr (sets zoom)
  | error fault t =>
      obtain rfl := ends.failure ran
      exact (Edit.ends_of_error ran).mpr (fails fault ran)

/-- What a pointer that goes down finds. Unless it is ignored, a drag that was never let go is ended first. -/
theorem ends_aim {done : Aim α → Stage α → Prop} {failed : Fault → Stage α → Prop} (ignored : done .ignored stage)
    (fails : ∀ fault, failed fault { stage with drag := none }) (missed : done .missed { stage with drag := none })
    (hit : ∀ n ∈ stage.store.nodes, done (.hit n) { stage with drag := none }) : (aim e).Ends stage done failed := by
  unfold aim
  split
  · exact ignored
  · simp only [Edit.ends_bind, Edit.ends_get, Edit.ends_modify, Edit.ends_lift]
    refine ⟨fun id? _ => ?_, fun fault _ => fails fault⟩
    split
    · exact missed
    · next n found =>
        obtain ⟨id, -, found⟩ := Option.bind_eq_some_iff.mp found
        exact hit n (Store.mem_of_find? found)

/-- A grab begins a drag. Where the place of the pointer cannot be told, it is left at the origin, and nothing is
known of what is below the node. -/
theorem ends_grab {n : Node α} {done : Unit → Stage α → Prop} {failed : Fault → Stage α → Prop} :
    (grab n e).Ends stage done failed ↔
      (∀ p, stage.eventLocal e n.parent = .ok p →
        done () { stage with drag := some (.begun stage.store n e p) }) ∧
      ∀ fault, stage.eventLocal e n.parent = .error fault →
        failed fault { stage with drag := some { Gesture.begun stage.store n e origin with descendantStarts := [] } } := by
  unfold grab
  simp only [Edit.ends_bind, Edit.ends_get, Edit.ends_modify, Edit.ends_lift]
  rfl

/-- What a pointer that moves does: without a drag of its own nothing, and else a step of the drag, unless the
node is gone. -/
theorem ends_pointerMove {done : Bool → Stage α → Prop} {failed : Fault → Stage α → Prop} (idle : done false stage)
    (lost : done false { stage with drag := none }) (fails : ∀ fault, failed fault stage)
    (follows : ∀ g n p d, stage.drag = some g → stage.store.find? g.nodeId = some n →
      stage.eventLocal e g.parent = .ok p → Point.sub p g.startPointer = .ok d →
      (dragBy g n d.1 d.2 stage.leastSide).Ends stage.store (fun _ store => done true { stage with store })
        fun fault store => failed fault { stage with store }) :
    (pointerMove e).Ends stage done failed := by
  unfold pointerMove
  simp only [Edit.ends_bind, Edit.ends_get]
  split
  · exact idle
  · next g dragged =>
      split
      · exact idle
      · split
        · exact lost
        · next n found =>
            simp only [Edit.ends_bind, Edit.ends_lift]
            refine ⟨fun p isLocal => ⟨fun d isDistance => ?_, fun fault _ => fails fault⟩, fun fault _ => fails fault⟩
            exact (Edit.ends_focus _ _ _).mpr (follows g n p d dragged found isLocal isDistance)

/-- What dropping a node does: it stays, or is moved under another parent. -/
theorem ends_drop {s : Store α} {n : Node α} {world : Point α} {done : Bool → Store α → Prop}
    {failed : Fault → Store α → Prop} (stays : done false s) (fails : ∀ fault, failed fault s)
    (moves : ∀ target, (Store.reparent n.id target).Ends s done failed) : (drop n world).Ends s done failed := by
  unfold drop
  simp only [Edit.ends_bind, Edit.ends_get, Edit.ends_lift]
  refine ⟨fun target _ => ?_, fun fault _ => fails fault⟩
  split
  · exact stays
  · exact moves target

/-- What a pointer that is let go does: its own drag is ended, and what was moved is dropped. -/
theorem ends_pointerUp_of {done : Bool → Stage α → Prop} {failed : Fault → Stage α → Prop} (idle : done false stage)
    (ended : done false { stage with drag := none }) (fails : ∀ fault, failed fault { stage with drag := none })
    (drops : ∀ n world, (drop n world).Ends stage.store (fun answer store => done answer { stage with store, drag := none })
      fun fault store => failed fault { stage with store, drag := none }) :
    (pointerUp e).Ends stage done failed := by
  unfold pointerUp
  simp only [Edit.ends_bind, Edit.ends_get]
  split
  · exact idle
  · split
    · exact idle
    · simp only [Edit.ends_bind, losePointer, Edit.ends_modify]
      split
      · exact ended
      · next n _ =>
          split
          · exact ended
          · simp only [Edit.ends_bind, Edit.ends_lift]
            exact ⟨fun world _ => (Edit.ends_focus _ _ _).mpr (drops n world), fun fault _ => fails fault⟩

end Stage

end LayoutDesigner
