import LayoutDesigner.Space

/-!
# Resize handles

A selected node has eight square handles around its box, named by compass directions. Corners are
found before edges.
-/

namespace LayoutDesigner

/-- The handles, clockwise from the top left corner. -/
inductive Handle where
  | nw | n | ne | e | se | s | sw | w
  deriving DecidableEq, Repr

namespace Handle

/-- Every handle, clockwise. -/
def all : List Handle := [.nw, .n, .ne, .e, .se, .s, .sw, .w]

/-- The order in which handles are looked for: corners first. -/
def searchOrder : List Handle := [.nw, .ne, .se, .sw, .n, .e, .s, .w]

/-- The compass letters of a handle. -/
def name : Handle → Text
  | .nw => "nw" | .n => "n" | .ne => "ne" | .e => "e"
  | .se => "se" | .s => "s" | .sw => "sw" | .w => "w"

variable {α : Type} [Arith α]

/-- The middle of a handle of a `w` × `h` box, from the box's corner. -/
def centre (w h : α) : Handle → Except Fault (Point α)
  | .nw => .ok (Arith.zero, Arith.zero)
  | .n => do return (← Arith.div w (Arith.ofDecimal 2 0), Arith.zero)
  | .ne => .ok (w, Arith.zero)
  | .e => do return (w, ← Arith.div h (Arith.ofDecimal 2 0))
  | .se => .ok (w, h)
  | .s => do return (← Arith.div w (Arith.ofDecimal 2 0), h)
  | .sw => .ok (Arith.zero, h)
  | .w => do return (Arith.zero, ← Arith.div h (Arith.ofDecimal 2 0))

/-- The square of a handle with sides of `size`. -/
def rect (w h size : α) (handle : Handle) : Except Fault (Rect α) := do
  let half ← Arith.div size (Arith.ofDecimal 2 0)
  let (x, y) ← handle.centre w h
  return ⟨← Arith.sub x half, ← Arith.sub y half, size, size⟩

/-- The squares of all handles, clockwise. -/
def rects (w h size : α) : Except Fault (List (Handle × Rect α)) :=
  all.mapM fun handle => do return (handle, ← handle.rect w h size)

/-- Whether a point is in a box, its border included. -/
def covers (r : Rect α) (x y : α) : Except Fault Bool := do
  if !Arith.le r.x x then return false
  if !Arith.le x (← Arith.add r.x r.w) then return false
  if !Arith.le r.y y then return false
  return Arith.le y (← Arith.add r.y r.h)

/-- The first of the handles that covers a point. -/
def firstCovering (w h x y size : α) : List Handle → Except Fault (Option Handle)
  | [] => .ok none
  | handle :: rest => do
    if ← covers (← handle.rect w h size) x y then return some handle
    else firstCovering w h x y size rest

/-- The handle of a `w` × `h` box under a point, counted from the box's corner. -/
def at? (w h x y size : α) : Except Fault (Option Handle) := do
  let _ ← rects w h size
  firstCovering w h x y size searchOrder

end Handle

end LayoutDesigner
