import LayoutDesigner.Shell

/-!
# Pointer and wheel

What pressing, dragging and releasing the pointer on the scene does, what the wheel does on the
view, and what clicks and drops do in the explorer. Positions are canvas coordinates; the session is
given screen positions, which are those times the zoom.
-/

namespace LayoutDesigner.Shell

/-- The buttons of the pointer. -/
inductive PointerButton where
  | left | middle | right
  deriving DecidableEq, Repr

/-- The number of a button. -/
def PointerButton.number : PointerButton → Int
  | .left => 0
  | .middle => 1
  | .right => 2

/-- The keys that are held while something else is done. -/
inductive Modifier where
  | alt | control | command | shift
  deriving DecidableEq, Repr

namespace Modifier

/-- The keys in the order of their names. -/
def all : List Modifier := [.alt, .control, .command, .shift]

/-- The name of a key. -/
def name : Modifier → Text
  | .alt => "alt"
  | .control => "ctrl"
  | .command => "meta"
  | .shift => "shift"

/-- The names of the keys that are held, in order. -/
def names (held : List Modifier) : List Text := (all.filter fun m => held.elem m).map name

end Modifier

/-- A canvas point with real coordinates. -/
def realPoint (x y : Number) : Except Fault (Point Number) := do
  return (← Arith.toReal x, ← Arith.toReal y)

/-- The event of the pointer at a canvas point over a target. -/
def pointerEvent (p : Point Number) (button : PointerButton) (target : Option Text)
    (handle : Option Handle) : Edit Shell (PointerEvent Number) := do
  let zoom := (← get).session.stage.zoom
  let x ← Arith.mul p.1 zoom
  let y ← Arith.mul p.2 zoom
  return { x := .num x, y := .num y, pointerId := .int 0, button := .int button.number
           target := Session.idValue target, handle := Session.idValue (handle.map Handle.name) }

/-- Whether a node is being dragged. -/
def isDragging (shell : Shell) : Bool := shell.session.stage.drag.isSome

/-- Press a button on the scene. The secondary button waits for its menu. Answers whether the press
is taken. -/
def press (x y : Number) (button : PointerButton) : Edit Shell Bool := do
  if button = .right then return true
  let p ← realPoint x y
  let shell ← get
  let (target, handle) ← shell.session.pick p (handleSize shell.settings)
  order (.pointerDown (← pointerEvent p button target handle))
  return true

/-- Move the pointer on the scene. Answers whether the move is taken. -/
def drag (x y : Number) : Edit Shell Bool := do
  if isDragging (← get) then
    order (.pointerMove (← pointerEvent (← realPoint x y) .left none none))
    return true
  else
    happen (.leftToDefault "mouseMove")
    return false

/-- Release a button on the scene. Answers whether the release is taken. -/
def release (x y : Number) (button : PointerButton) : Edit Shell Bool := do
  if isDragging (← get) ∧ button ≠ .right then
    order (.pointerUp (← pointerEvent (← realPoint x y) button none none))
    return true
  else
    happen (.leftToDefault "mouseRelease")
    return false

/-- The command of an action on the selected node. -/
def selectionCommand? : MenuAction → Option (Command Number)
  | .delete => some .deleteSelected
  | .duplicate => some .duplicateSelected
  | .moveUp => some (.moveSelected true)
  | .moveDown => some (.moveSelected false)
  | _ => none

/-- Ask for the menu over a point of the scene and choose an entry: the node there is selected, and
the entry acts on it. Answers whether there is a node. -/
def popUp (x y : Number) (label : Text) : Edit Shell Bool := do
  let p ← realPoint x y
  match ← (← get).session.store.nodeAt p with
  | none => return false
  | some id =>
    order (.select (.str id))
    happen (.menu (nodeMenu.map fun entry => entry.map MenuAction.label) p)
    orderIf ((actionOf? nodeMenu label).bind selectionCommand?)
    return true

/-- The step of the zoom. -/
def zoomStep (shell : Shell) : Document := shell.settings.value .zoomStep

/-- Zoom in by a step. -/
def zoomIn : Edit Shell Unit := do onSession (Session.zoomIn (zoomStep (← get)))

/-- Zoom out by a step. -/
def zoomOut : Edit Shell Unit := do onSession (Session.zoomOut (zoomStep (← get)))

/-- Set the zoom to one. -/
def zoomReset : Edit Shell Unit := onSession Session.zoomReset

/-- Turn the wheel: with the control key it zooms. Answers whether the turn is taken. -/
def wheel (delta : Number) (held : List Modifier) : Edit Shell Bool := do
  if !held.elem .control then
    happen (.leftToDefault "wheel")
    return false
  if Arith.lt (.int 0) delta then zoomIn else zoomOut
  return true

/-- The view loses the keyboard; a drag ends. -/
def loseFocus : Edit Shell Unit := do
  if isDragging (← get) then order .losePointer
  happen (.leftToDefault "focusOut")

/-- The explorer, where there is one. -/
def needExplorer : Edit Shell (Explorer Number) := do
  match (← get).explorer with
  | some e => return e
  | none => throw .wrongMember

/-- Go to a row of the explorer; a row that is not there is a fault. -/
def clickRow (row : Option Nat) : Edit Shell Unit := do
  let explorer ← needExplorer
  if row.any fun i => explorer.ids.length ≤ i then throw .outOfRange
  let (explorer, command?) := explorer.click row
  modify ({ · with explorer := some explorer })
  orderIf command?

/-- Whether a row of the explorer is under the pointer. -/
def dragOverRow (y : Number) : Edit Shell Bool := do
  return ((← needExplorer).rowAt y.floor).isSome

/-- Drop the current row of the explorer. Answers whether a command follows. -/
def dropRow (y : Number) : Edit Shell Bool := do
  let command? ← (← needExplorer).drop (← get).session.store y y.floor
  orderIf command?
  return command?.isSome

end LayoutDesigner.Shell
