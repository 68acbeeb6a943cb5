import LayoutDesigner.Handle
import LayoutDesigner.Session

/-!
# Picking and zooming

What the pointer finds at a point of the canvas: a handle of the selected node before any node. The
zoom goes in and out by steps.
-/

namespace LayoutDesigner.Session

variable {α : Type} [Arith α]

/-- The handle of the selected node at a point, with the node. -/
def pickHandle (s : Session α) (p : Point α) (handleSize : Except Fault α) :
    Except Fault (Option (Text × Handle)) :=
  match s.selected with
  | none => .ok none
  | some n => do
    let start ← s.store.absoluteTopLeft n.id
    let size ← handleSize
    let (x, y) ← Point.sub p start
    return (← Handle.at? n.w n.h x y size).map (n.id, ·)

/-- The node and the handle at a point; only the selected node has handles. -/
def pick (s : Session α) (p : Point α) (handleSize : Except Fault α) :
    Except Fault (Option Text × Option Handle) := do
  match ← s.pickHandle p handleSize with
  | some (id, handle) => return (some id, some handle)
  | none => return (← s.store.nodeAt p, none)

/-- Add a step to the zoom. -/
def zoomIn (step : Value α) : Edit (Session α) Unit := do
  setZoom (.num (← Arith.add (← get).stage.zoom (← step.asOperand)))

/-- Take a step from the zoom. -/
def zoomOut (step : Value α) : Edit (Session α) Unit := do
  setZoom (.num (← Arith.sub (← get).stage.zoom (← step.asOperand)))

/-- Set the zoom to one. -/
def zoomReset : Edit (Session α) Unit := setZoom (.num Arith.one)

end LayoutDesigner.Session
