import LayoutDesigner.Proofs.Containment
import LayoutDesigner.Proofs.Fitted
import LayoutDesigner.Proofs.Tidy

/-!
# Dragging among other commands

A step of a resize puts back what was below the node when the drag began and then clamps what is
below it now. Between the steps other commands may move nodes. As long as all that was captured is
still below the node, or gone, every step leaves each node in the box of its parent; what was moved
elsewhere is put back to its old measures and not clamped.
-/

namespace LayoutDesigner

namespace Node

variable {n m : Node ℚ} {room : ℚ × ℚ}

/-- Clamping leaves a clamped side alone that fits. -/
theorem boxedSide_eq_self {room side : ℚ} (isSide : IsSide side) (fits : side ≤ room) :
    boxedSide room side = side := by
  obtain ⟨k, least, rfl⟩ := isSide
  rw [boxedSide, Exact.floor_int_add_half, min_eq_right fits, max_eq_right (by exact_mod_cast least)]

/-- What is put elsewhere and then into the box that it lay in keeps its sides. -/
theorem sides_boxed (sized : n.IsSized) (lies : n.LiesIn room) (x y : ℚ) :
    ((((n.setX x).setY y).boxed room).w, (((n.setX x).setY y).boxed room).h) = (n.w, n.h) :=
  congrArg₂ Prod.mk (boxedSide_eq_self sized.w lies.x.most) (boxedSide_eq_self sized.h lies.y.most)

/-- What is put elsewhere and then into the box that it lay in fits, and what fits it still does. -/
theorem moves_lying {room : Value ℚ × Value ℚ} (plain : n.unchecked = []) (sized : n.IsSized)
    (roomy : lying.Roomy room) (lies : lying.Fits n room) : lying.Moves (.int leastSide) n room := by
  intro x y
  have plain' : ((n.setX x).setY y).unchecked = [] := by simp [setX, setY, checked, plain, Unchecked.without]
  rw [eq_num_of_isRoomy roomy, Edit.ends_of_ok (clampIn_num plain' (LayoutDesigner.sides room))]
  refine ⟨liesIn_boxed roomy _, fun k inside => ?_⟩
  obtain ⟨w, h⟩ := Prod.mk.inj (sides_boxed sized lies x y)
  rwa [w, h]

end Node

namespace Contract

open Store

variable {offset zoomRange : Value ℚ} {s : Session ℚ}

/-- The contract that the store is tidy and contained. -/
def contained (offset zoomRange : Value ℚ) : Contract ℚ :=
  { tidy offset zoomRange with Good := fun s => (tidy offset zoomRange).Good s ∧ s.IsContained }

/-- The contract for containment is the one for lying in the parent's box. -/
theorem contained_eq (offset zoomRange : Value ℚ) : contained offset zoomRange = (tidy offset zoomRange).fitted lying := by
  simp only [contained, fitted, isFitted_lying_iff]

/-- The commands other than moves of the pointer keep containment. -/
theorem keptAtRest_contained : (contained offset zoomRange).KeptAtRest :=
  contained_eq offset zoomRange ▸
    keptAtRest_fitted (kept_tidy ..).toKeptAtRest (fun good => good.1.orderly) clampedBy_lying clampedBy_lying

end Contract

namespace Session

open Store

/-- Everything that was captured when the drag began is gone or still below the dragged node. -/
def KeepsCaptured (s : Session ℚ) : Prop :=
  ∀ g, s.stage.drag = some g → g.nodeId ∈ s.store.ids →
    ∀ entry ∈ g.descendantStarts, entry.1 ∈ s.store.ids → s.store.LeadsUp entry.1 g.nodeId

/-- A drag that keeps what it captured keeps a session contained. -/
theorem KeepsCaptured.follows {offset zoomRange : Value ℚ} {s : Session ℚ} (captured : s.KeepsCaptured)
    (holds : (Contract.contained offset zoomRange).Holds s) : (Contract.contained offset zoomRange).Follows s := by
  rw [Contract.contained_eq] at holds ⊢
  have tidy := holds.good.1.2
  intro g n dx dy
  refine holds.follows_fitted (Contract.kept_tidy ..) (fun good => good.1.orderly) (fun start => start.1.1)
    clampedBy_lying captured fun n isNode => ?_
  exact Node.moves_lying (tidy.plain n isNode) (tidy.nodes n isNode)
    (holds.good.2.roomy_parentSize tidy.plain n.parent) (holds.good.2.nodes n isNode)

/-- The sessions that commands lead to, failing ones among them, where no document is loaded with a
record of the root's id, and no step of a drag is taken after something that was captured went
elsewhere. -/
inductive DragsOn (first : Session ℚ) : Session ℚ → Prop where
  | start : DragsOn first first
  | step {s : Session ℚ} {command : Command ℚ} (before : DragsOn first s) (spares : command.SparesRoot)
      (captured : command.IsMove → s.KeepsCaptured) : DragsOn first (Edit.state (run command s))

/-- **Drags keep nodes inside their parents.** Whatever commands are run before, during and after a
drag, every node of a tidy session lies in the box of its parent after each of them, as long as no
step of a resize follows that a captured node was moved out of the resized one. -/
theorem contained_of_dragsOn (duplicateOffset zoomRange : Value ℚ) (first s : Session ℚ)
    (holds : (Contract.contained duplicateOffset zoomRange).Holds first) (dragged : DragsOn first s) :
    s.store.IsContained := by
  suffices promise : (Contract.contained duplicateOffset zoomRange).Holds s from promise.good.2
  induction dragged with
  | start => exact holds
  | step _ _ captured before =>
      have runs := before.run_of_follows Contract.keptAtRest_contained fun isMove =>
        (captured isMove).follows before
      exact (runs.mono (fun _ _ after => after) fun _ _ after => after trivial).state

/-- A pointer on a node or a handle of it. -/
def pointerOn (x y : ℚ) (target handle : Value ℚ) : PointerEvent ℚ :=
  { x := .num x, y := .num y, pointerId := .int 1, button := .int 1, target, handle }

/-- A new project with its label in a frame, and a small frame beside it. -/
def crowded : List (Command ℚ) :=
  [.newProject, .createNode (.str "Frame"), .reorderDrop (.str "n0") (.str "n1") (.str "inside"),
    .createNode (.str "Frame"), .setProperty (.str "w") (.int 50), .setProperty (.str "h") (.int 50)]

/-- A handle of the frame that holds the label is dragged, and zoomed in between. -/
theorem contained_of_dragsOn_stretched :
    let stretched := [.pointerDown (pointerOn 650 310 (.str "n1") (.str "e")), .setZoom (.num (3 / 2)),
      .pointerMove (pointerOn 240 310 .null .null)]
    (runAll (crowded ++ stretched) usual).store.IsContained := by
  intro stretched
  have holds : (Contract.contained (.int 12) (.arr [.num (1 / 2), .num 2])).Holds usual :=
    { holds_usual with good := ⟨holds_usual.good, by decide +kernel⟩ }
  -- The label is all that the resize captured, and it stays in the frame.
  have captured : (runAll (crowded ++ stretched.take 2) usual).KeepsCaptured := by
    have drag : (runAll (crowded ++ stretched.take 2) usual).stage.drag.map
        (fun g => (g.nodeId, g.descendantStarts.map Prod.fst)) = some (("n1" : Text), [("n0" : Text)]) := by
      decide +kernel
    have link : (runAll (crowded ++ stretched.take 2) usual).store.parent? "n0" = some "n1" := by decide +kernel
    intro g found _ entry listed _
    rw [found, Option.map_some, Option.some_inj, Prod.mk.injEq] at drag
    have isLabel : entry.1 ∈ [("n0" : Text)] := drag.2 ▸ List.mem_map_of_mem listed
    rw [List.mem_singleton.mp isLabel, drag.1]
    exact .single link
  have dragged : DragsOn usual (runAll (crowded ++ stretched.take 2) usual) := by
    refine .step (.step (.step (.step (.step (.step (.step (.step .start ?_ ?_) ?_ ?_) ?_ ?_) ?_ ?_) ?_ ?_) ?_ ?_) ?_ ?_) ?_ ?_
    all_goals first | exact trivial | exact fun isMove => isMove.elim
  exact contained_of_dragsOn _ _ usual _ holds (dragged.step trivial fun _ => captured)

/-- The label is moved into the small frame while the frame that held it is resized. The next step
of the drag gives the label back its old measures, with which it does not fit. -/
theorem not_contained_of_strayed :
    let down : Command ℚ := .pointerDown (pointerOn 650 310 (.str "n1") (.str "e"))
    let drop : Command ℚ := .reorderDrop (.str "n0") (.str "n2") (.str "inside")
    let move : Command ℚ := .pointerMove (pointerOn 660 310 .null .null)
    (runAll (crowded ++ [down, drop]) usual).store.IsContained ∧
      ¬(runAll (crowded ++ [down, drop, move]) usual).store.IsContained := by
  refine ⟨?_, ?_⟩ <;> decide +kernel

end Session

end LayoutDesigner
