import LayoutDesigner.Containment

/-!
# Moving and resizing

A drag places a node relative to the geometry that it had when the drag began. Moving adds the
distance to its position; resizing moves the edges that the handle names and keeps the anchor's
fraction of the box.
-/

namespace LayoutDesigner

/-- Position and size of a node at the start of a drag. -/
structure Geometry (α : Type) where
  x : α
  y : α
  w : α
  h : α
  /-- The foreign values among them, beside what they come to. -/
  unchecked : Unchecked α := []

/-- The attributes that make a geometry. -/
def Attribute.measures : List Attribute := [.x, .y, .w, .h]

/-- The edges that a handle moves. -/
structure Edges where
  left : Bool
  right : Bool
  top : Bool
  bottom : Bool
  deriving DecidableEq, Repr

variable {α : Type}

/-- The present geometry of a node. -/
def Node.geometry (n : Node α) : Geometry α :=
  ⟨n.x, n.y, n.w, n.h, n.unchecked.filter fun entry => Attribute.measures.elem entry.1⟩

/-- Put a node back to a geometry. -/
def Node.setGeometry (n : Node α) (g : Geometry α) : Node α :=
  let others := n.unchecked.filter fun entry => !Attribute.measures.elem entry.1
  { n with x := g.x, y := g.y, w := g.w, h := g.h, unchecked := g.unchecked ++ others }

variable [Arith α]

/-- A part of a geometry as it is shown. -/
def Geometry.written (g : Geometry α) (a : Attribute) : Value α :=
  (g.unchecked.value? a).getD (match a with
    | .x => .num g.x
    | .y => .num g.y
    | .w => .num g.w
    | .h => .num g.h
    | _ => .null)

/-- A geometry as a document. -/
def Geometry.toValue (g : Geometry α) : Value α := .arr (Attribute.measures.map g.written)

/-- A geometry of unchecked parts, with what they come to. -/
def Geometry.ofValues (x y w h : Value α) : Except Fault (Geometry α) := do
  return ⟨← x.measure, ← y.measure, ← w.measure, ← h.measure,
    ([(.x, x), (.y, y), (.w, w), (.h, h)] : Unchecked α).filter fun entry => !entry.2.isNumber⟩

/-- Whether a handle's name contains a letter. Lists contain their items and objects their keys. -/
def handleNames (letter : Text) : Value α → Except Fault Bool
  | .str t => .ok (Text.contains letter t)
  | .arr items => .ok (items.any fun item => item.same (.str letter))
  | .obj members => .ok (members.any fun (key, _) => key = letter)
  | _ => .error .wrongType

/-- The edges that a handle moves: those whose compass letters are in its name. -/
def Edges.ofHandle (handle : Value α) : Except Fault Edges := do
  let left ← handleNames "w" handle
  let right ← handleNames "e" handle
  let top ← handleNames "n" handle
  let bottom ← handleNames "s" handle
  return ⟨left, right, top, bottom⟩

/-- An end of a side, moved by a distance where it is named. -/
def dragEnd (place : α) (distance : Value α) (moved : Bool) : Except Fault α := do
  if moved then Arith.add place (← distance.asOperand) else return place

/-- Move the ends of one side by a distance as far as they are named. -/
def dragSide (low side : α) (distance : Value α) (moveLow moveHigh : Bool) :
    Except Fault (α × α) := do
  let high ← Arith.add low side
  let newLow ← dragEnd low distance moveLow
  let newHigh ← dragEnd high distance moveHigh
  return (newLow, newHigh)

/-- Keep the ends of one side `least` apart: the low end gives way where it is moved, else the high
end. -/
def pinSide (low high : α) (least : Value α) (moveLow : Bool) : Except Fault (α × α) := do
  let span ← Arith.sub high low
  let least ← least.asOperand
  if Arith.lt span least then
    if moveLow then return (← Arith.sub high least, high) else return (low, ← Arith.add low least)
  else return (low, high)

namespace Node

/-- Place the node at its start plus a distance and keep it inside a parent of the given size. -/
def applyMove (start : Geometry α) (dx dy parentSize least : Value α) : Edit (Node α) Unit := do
  start.unchecked.needNumbers [.x]
  let x ← Arith.add start.x (← dx.asOperand)
  modify (·.setX x)
  start.unchecked.needNumbers [.y]
  let y ← Arith.add start.y (← dy.asOperand)
  modify (·.setY y)
  let (w, h) ← parentSize.asPair
  clampIn w h least

/-- Drag the edges that the handle names by a distance from the start box, keep opposite edges
`least` apart, and keep the node inside a parent of the given size. -/
def applyResize (start : Geometry α) (dx dy handle parentSize least : Value α) :
    Edit (Node α) Unit := do
  let n ← get
  start.unchecked.needNumbers Attribute.measures
  n.unchecked.needNumbers [.anchorX, .anchorY]
  let left ← Arith.sub start.x (← Arith.mul n.anchorX start.w)
  let top ← Arith.sub start.y (← Arith.mul n.anchorY start.h)
  let edges ← Edges.ofHandle handle
  let (left, right) ← dragSide left start.w dx edges.left edges.right
  let (top, bottom) ← dragSide top start.h dy edges.top edges.bottom
  let (left, right) ← pinSide left right least edges.left
  let (top, bottom) ← pinSide top bottom least edges.top
  let w := Arith.ofInt (← roundHalfUp (← Arith.sub right left))
  modify (·.setW w)
  let h := Arith.ofInt (← roundHalfUp (← Arith.sub bottom top))
  modify (·.setH h)
  let x ← Arith.add left (← Arith.mul n.anchorX w)
  modify (·.setX x)
  let y ← Arith.add top (← Arith.mul n.anchorY h)
  modify (·.setY y)
  let (parentW, parentH) ← parentSize.asPair
  clampIn parentW parentH least

end Node

end LayoutDesigner
