import LayoutDesigner.Hierarchy
import LayoutDesigner.HitTest
import LayoutDesigner.Resize

/-!
# Dragging on the canvas

A pointer that goes down on a node starts a move, on a handle a resize; following it changes the
node; letting go ends the drag, and a move that ends over another container puts the node into it.
Pointer positions come in screen units. They are divided by the zoom and taken into the space of
the node's parent, where the drag began.
-/

namespace LayoutDesigner

/-- What the pointer does. Its parts may be of any type. -/
structure PointerEvent (α : Type) where
  x : Value α
  y : Value α
  pointerId : Value α
  button : Value α
  target : Value α := .null
  handle : Value α := .null

namespace PointerEvent

/-- The names of the parts of an event. -/
def fieldNames : List Text :=
  ["x", "y", "pointer_id", "button", "modifiers", "target_id", "handle"]

/-- An event from its named parts: the position is needed, and every part must be known. -/
def ofMembers {α : Type} [Arith α] (members : List (Text × Value α)) :
    Except Fault (PointerEvent α) :=
  let part (name : Text) (default : Value α) : Value α := (Value.member? name members).getD default
  match Value.member? "x" members, Value.member? "y" members with
  | some x, some y =>
    if members.all fun (name, _) => fieldNames.elem name then
      .ok { x, y, pointerId := part "pointer_id" (.int 0), button := part "button" (.int 0)
            target := part "target_id" .null, handle := part "handle" .null }
    else .error .wrongType
  | _, _ => .error .wrongType

end PointerEvent

/-- What was captured when a drag began. -/
structure Gesture (α : Type) where
  resizing : Bool
  nodeId : Text
  handle : Value α
  parent : Text
  start : Geometry α
  startPointer : Point α
  pointerId : Value α
  /-- The geometry of everything below the node, for a resize; it is restored before each step. -/
  descendantStarts : List (Text × Geometry α)

namespace Gesture

variable {α : Type} [Arith α]

/-- The parts of a drag as documents. -/
def parts (g : Gesture α) : List (Value α) :=
  [.str g.nodeId, g.handle, .str g.parent, g.start.toValue,
    .arr [.num g.startPointer.1, .num g.startPointer.2], g.pointerId,
    .obj (g.descendantStarts.map fun (id, start) => (id, start.toValue))]

/-- The parts where nothing is dragged. -/
def idleParts : List (Value α) :=
  [.null, .null, .null, .null, .arr [.num Arith.zero, .num Arith.zero], .null, .obj []]

end Gesture

/-- A store with the zoom it is seen at and the drag that is going on, if any. -/
structure Stage (α : Type) where
  store : Store α
  zoom : α
  /-- The least and the greatest zoom, as they were configured. -/
  zoomRange : Value α
  /-- The least side of a node, as it was configured. -/
  leastSide : Value α
  drag : Option (Gesture α) := none

namespace Stage

variable {α : Type}

/-- Edit the store alone. -/
def onStore {β : Type} (edit : Edit (Store α) β) : Edit (Stage α) β :=
  Edit.focus Stage.store (fun stage store => { stage with store }) edit

/-- End the drag and keep the last geometry. -/
def losePointer : Edit (Stage α) Unit := modify ({ · with drag := none })

variable [Arith α]

/-- A stage for a store, at zoom one. -/
def ofStore (store : Store α) (zoomRange leastSide : Value α) : Stage α :=
  { store, zoom := Arith.one, zoomRange, leastSide }

/-- Set the zoom, within its range. -/
def setZoom (value : Value α) : Edit (Stage α) Unit := do
  let asked ← value.asReal
  let (low, high) ← (← get).zoomRange.asPair
  let zoom ← (← Value.clamp (.num asked) low high).asOperand
  modify ({ · with zoom })

/-- A screen position on the canvas. -/
def toWorld (stage : Stage α) (x y : α) : Except Fault (Point α) := do
  let wx ← Arith.div x stage.zoom
  let wy ← Arith.div y stage.zoom
  return (wx, wy)

/-- Where an event is on the canvas. -/
def eventWorld (stage : Stage α) (e : PointerEvent α) : Except Fault (Point α) := do
  let wx ← Arith.div (← e.x.asOperand) stage.zoom
  let wy ← Arith.div (← e.y.asOperand) stage.zoom
  return (wx, wy)

/-- Where an event is in the space of a parent. -/
def eventLocal (stage : Stage α) (e : PointerEvent α) (parent : Text) : Except Fault (Point α) := do
  stage.store.toParentSpace (← stage.eventWorld e) parent

/-- Whether the event belongs to the pointer that drags. -/
def isFollowed (g : Gesture α) (e : PointerEvent α) : Bool := e.pointerId.same g.pointerId

/-- What a pointer that goes down finds. -/
inductive Aim (α : Type) where
  | ignored
  | missed
  | hit (node : Node α)

/-- The number of the secondary button. -/
def secondaryButton : Int := 2

/-- End a drag that was never let go, and find the node that a pointer goes down on. The secondary
button is ignored. -/
def aim (e : PointerEvent α) : Edit (Stage α) (Aim α) := do
  if e.button.same (.int secondaryButton) then return .ignored
  modify ({ · with drag := none })
  match (← get).store.lookup (← e.target.asId) with
  | none => return .missed
  | some n => return .hit n

/-- Begin a drag of a node. -/
def grab (n : Node α) (e : PointerEvent α) : Edit (Stage α) Unit := do
  let gesture : Gesture α :=
    { resizing := e.handle.truthy, nodeId := n.id, handle := e.handle, parent := n.parent
      start := n.geometry, startPointer := origin, pointerId := e.pointerId
      descendantStarts := [] }
  modify ({ · with drag := some gesture })
  let startPointer ← (← get).eventLocal e n.parent
  let store := (← get).store
  let descendantStarts :=
    if gesture.resizing then
      (store.descendants n.id).filterMap fun id => (store.find? id).map fun d => (id, d.geometry)
    else []
  modify ({ · with drag := some { gesture with startPointer, descendantStarts } })

/-- A pointer goes down. The ids that it selects are added to the list beside the stage. Answers
whether a drag began. -/
def pointerDown (e : PointerEvent α) : Edit (Stage α × List (Option Text)) Bool := do
  let onStage {β : Type} (edit : Edit (Stage α) β) : Edit (Stage α × List (Option Text)) β :=
    Edit.focus Prod.fst (fun pair stage => (stage, pair.2)) edit
  match ← onStage (aim e) with
  | .ignored => return false
  | .missed =>
    modify fun (stage, selected) => (stage, selected ++ [none])
    return false
  | .hit n =>
    modify fun (stage, selected) => (stage, selected ++ [some n.id])
    onStage (grab n e)
    return true

/-- Put nodes back to the geometry they had. Ids without a node are skipped. -/
def restore (starts : List (Text × Geometry α)) (s : Store α) : Store α :=
  starts.foldl (fun s (id, g) => s.modifyNode id (·.setGeometry g)) s

/-- Move or resize the dragged node, now `distance` away from where the drag began. -/
def dragBy (g : Gesture α) (n : Node α) (dx dy : α) (leastSide : Value α) : Edit (Store α) Unit := do
  let (w, h) := (← get).parentSize n.parent
  let parentSize : Value α := .arr [w, h]
  if g.resizing then
    Store.onNode n.id (Node.applyResize g.start (.num dx) (.num dy) g.handle parentSize leastSide)
    modify (restore g.descendantStarts)
    Store.clampSubtree n.id leastSide
  else Store.onNode n.id (Node.applyMove g.start (.num dx) (.num dy) parentSize leastSide)

/-- The pointer moves. Answers whether it changed the dragged node. -/
def pointerMove (e : PointerEvent α) : Edit (Stage α) Bool := do
  let stage ← get
  match stage.drag with
  | none => return false
  | some g =>
    if !isFollowed g e then return false
    match stage.store.find? g.nodeId with
    | none =>
      losePointer
      return false
    | some n =>
      let p ← stage.eventLocal e g.parent
      let (dx, dy) ← Point.sub p g.startPointer
      onStore (dragBy g n dx dy stage.leastSide)
      return true

/-- Put a node into the container that it was dropped over. Answers whether it changed its parent. -/
def drop (n : Node α) (world : Point α) : Edit (Store α) Bool := do
  let s ← get
  let target ← s.dropContainer world (some n.id)
  if target = n.parent ∨ target = n.id ∨ s.isBelow target n.id then return false
  Store.reparent n.id target

/-- The pointer is let go. Answers whether the dragged node changed its parent. -/
def pointerUp (e : PointerEvent α) : Edit (Stage α) Bool := do
  let stage ← get
  match stage.drag with
  | none => return false
  | some g =>
    if !isFollowed g e then return false
    losePointer
    match stage.store.find? g.nodeId with
    | none => return false
    | some n =>
      if g.resizing then return false
      let world ← stage.eventWorld e
      onStore (drop n world)

/-- Where a row of the hierarchy view takes a drop at height `y`: the middle half of a row that can
contain others takes it inside, else the upper half above and the lower half below. -/
def rowDropPosition (rowHeight y : α) (canContain : Bool) : Except Fault DropPosition := do
  let edge ← Arith.mul rowHeight (Arith.ofDecimal 25 2)
  let inMiddle ← do
    if canContain && Arith.lt edge y then pure (Arith.lt y (← Arith.sub rowHeight edge))
    else pure false
  if inMiddle then return .inside
  return if Arith.le y (← Arith.div rowHeight (Arith.ofInt 2)) then .above else .below

end Stage

end LayoutDesigner
