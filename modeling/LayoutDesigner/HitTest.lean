import LayoutDesigner.DrawOrder
import LayoutDesigner.Space

/-!
# What is under a point

The node under a point is the one drawn last among those whose box contains it. A drop lands in the
nearest container at or above that node.
-/

namespace LayoutDesigner.Store

variable {α : Type} [Arith α]

/-- Whether a box contains a point; the far edges do not belong to it. -/
def boxContains (r : Rect α) (p : Point α) : Except Fault Bool := do
  if !Arith.le r.x p.1 then return false
  if !Arith.lt p.1 (← Arith.add r.x r.w) then return false
  if !Arith.le r.y p.2 then return false
  return Arith.lt p.2 (← Arith.add r.y r.h)

/-- The first of the listed nodes whose box contains a point. -/
def firstAt (s : Store α) (p : Point α) : List Text → Except Fault (Option Text)
  | [] => .ok none
  | id :: rest => do
    if ← boxContains (← s.absoluteRect id) p then return some id else s.firstAt p rest

/-- The topmost node whose box contains a point, the subtree of `skip` being transparent. -/
def nodeAt (s : Store α) (p : Point α) (skip : Option Text := none) :
    Except Fault (Option Text) := do
  s.checkAllLayers
  s.firstAt p (s.paintOrder skip).reverse

/-- The first container among the listed nodes, or the root. -/
def firstContainer (s : Store α) (ids : List Text) : Text :=
  (ids.find? fun id => (s.find? id).any fun n => n.kind.isContainer).getD root

/-- The container that a drop at a point lands in, the subtree of `exclude` being transparent. -/
def dropContainer (s : Store α) (p : Point α) (exclude : Option Text := none) :
    Except Fault Text := do
  match ← s.nodeAt p exclude with
  | none => return root
  | some hit => return s.firstContainer (hit :: s.ancestors hit)

end LayoutDesigner.Store
