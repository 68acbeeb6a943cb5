import LayoutDesigner.Store

/-!
# Coordinate spaces

A node's position is that of its anchor in the space of its parent. Its box starts at
`x - anchorX * w` there. Canvas space adds the starts of all boxes above, up to the surface.
-/

namespace LayoutDesigner

/-- A point of a plane. -/
abbrev Point (α : Type) := α × α

/-- A box: its least corner and its sides. -/
structure Rect (α : Type) where
  x : α
  y : α
  w : α
  h : α

variable {α : Type} [Arith α]

/-- The sum of two points, coordinate by coordinate. -/
def Point.add (p q : Point α) : Except Fault (Point α) := do
  let x ← Arith.add p.1 q.1
  let y ← Arith.add p.2 q.2
  return (x, y)

/-- The difference of two points, coordinate by coordinate. -/
def Point.sub (p q : Point α) : Except Fault (Point α) := do
  let x ← Arith.sub p.1 q.1
  let y ← Arith.sub p.2 q.2
  return (x, y)

/-- The origin of canvas space. -/
def origin : Point α := (Arith.zero, Arith.zero)

/-- Where a node's box starts in the space of its parent. -/
def Node.localTopLeft (n : Node α) : Except Fault (Point α) := do
  n.unchecked.needNumbers [.x, .anchorX, .w, .y, .anchorY, .h]
  let x ← Arith.sub n.x (← Arith.mul n.anchorX n.w)
  let y ← Arith.sub n.y (← Arith.mul n.anchorY n.h)
  return (x, y)

namespace Store

/-- Add to `start` the starts of the boxes of the listed nodes. -/
def offsetBy (s : Store α) (start : Point α) (ids : List Text) : Except Fault (Point α) :=
  ids.foldlM (fun p id =>
    match s.find? id with
    | none => .error .wrongMember
    | some n => do Point.add p (← n.localTopLeft)) start

/-- Where a node's box starts in canvas space; an unknown id gives the origin. -/
def absoluteTopLeft (s : Store α) (id : Text) : Except Fault (Point α) :=
  match s.find? id with
  | none => .ok origin
  | some n => do s.offsetBy (← n.localTopLeft) (s.ancestors id)

/-- Where the space of a parent starts in canvas space. -/
def spaceOrigin (s : Store α) (parent : Text) : Except Fault (Point α) :=
  if parent = root then .ok origin else s.absoluteTopLeft parent

/-- Where a node's anchor is in canvas space; an unknown id gives the origin. -/
def absoluteAnchor (s : Store α) (id : Text) : Except Fault (Point α) :=
  match s.find? id with
  | none => .ok origin
  | some n => do
    let start ← s.spaceOrigin n.parent
    n.unchecked.needNumbers [.x, .y]
    Point.add start (n.x, n.y)

/-- A point of canvas space in the space of a parent. -/
def toParentSpace (s : Store α) (world : Point α) (parent : Text) : Except Fault (Point α) := do
  Point.sub world (← s.spaceOrigin parent)

/-- A node's box in canvas space; an unknown id gives the surface. -/
def absoluteRect (s : Store α) (id : Text) : Except Fault (Rect α) :=
  match s.find? id with
  | none => do
    let w ← s.canvasW.asReal
    let h ← s.canvasH.asReal
    return ⟨Arith.zero, Arith.zero, w, h⟩
  | some n => do
    let (x, y) ← s.absoluteTopLeft id
    return ⟨x, y, n.w, n.h⟩

end Store

end LayoutDesigner
