import LayoutDesigner.Space

/-!
# Keeping nodes inside their parents

A node is kept inside the box of its parent: its sides are rounded and saturated between the least
side and the parent's side, then its anchor is rounded and saturated so that the whole box is
inside. A change of a box is followed by the same for everything below it, parents first.
-/

namespace LayoutDesigner

variable {α : Type} [Arith α]

namespace Node

/-- The range of the anchor along one side: `[anchor * side, parent - (1 - anchor) * side]`. -/
def anchorRange (anchor side : α) (parent : Value α) : Except Fault (α × α) := do
  let low ← Arith.mul anchor side
  let high ← Arith.sub (← parent.asOperand) (← Arith.mul (← Arith.sub (Arith.ofInt 1) anchor) side)
  return (low, high)

/-- Round a number and keep it in a range. -/
def roundInto (v : α) (low high : Value α) : Except Fault α := do
  (← Value.clamp (.int (← roundHalfUp v)) low high).asOperand

/-- Force the node inside a box of the given size, the sides first. -/
def clampIn (parentW parentH least : Value α) : Edit (Node α) Unit := do
  let w ← roundInto (← get).w least parentW
  modify (·.setW w)
  let h ← roundInto (← get).h least parentH
  modify (·.setH h)
  let n ← get
  n.unchecked.needNumbers [.anchorX, .anchorY]
  let (minX, maxX) ← anchorRange n.anchorX n.w parentW
  let (minY, maxY) ← anchorRange n.anchorY n.h parentH
  let x ← roundInto n.x (.num minX) (.num maxX)
  modify (·.setX x)
  let y ← roundInto n.y (.num minY) (.num maxY)
  modify (·.setY y)

end Node

namespace Store

/-- Force a node that need not be in the store inside the box of its parent. -/
def clampLoose (s : Store α) (n : Node α) (least : Value α) : Except Fault (Node α) :=
  let (w, h) := s.parentSize n.parent
  match Node.clampIn w h least n with
  | .ok _ n' => .ok n'
  | .error fault _ => .error fault

/-- Force a node inside the box of its parent. -/
def clampNode (id : Text) (least : Value α) : Edit (Store α) Unit := fun s =>
  match s.find? id with
  | none => .ok () s
  | some n =>
    let (w, h) := s.parentSize n.parent
    onNode id (Node.clampIn w h least) s

/-- Clamp the queued nodes and everything below them, oldest entry first. A queue that does not
become empty within `bound` steps never does. -/
def clampQueue (least : Value α) : (bound : Nat) → (queue : List Text) → Edit (Store α) Unit
  | _, [] => pure ()
  | 0, _ :: _ => throw .endless
  | bound + 1, id :: rest => do
    if (← get).contains id then
      clampNode id least
      clampQueue least bound (rest ++ (← get).childIds id)
    else clampQueue least bound rest

/-- Where clamping a subtree starts: with the top-level nodes for the root, else with the node. -/
def clampStart (s : Store α) (id : Text) : List Text := if id = root then s.childIds root else [id]

/-- Clamp a node and everything below it, parents before children; for the root, every node that is
below it. -/
def clampSubtree (id : Text) (least : Value α) : Edit (Store α) Unit := do
  let s ← get
  s.checkAllLayers
  clampQueue least (s.size + 1) (s.clampStart id)

end Store

end LayoutDesigner
