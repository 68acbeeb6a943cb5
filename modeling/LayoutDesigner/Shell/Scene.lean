import LayoutDesigner.Session
import LayoutDesigner.Shell.Outline
import LayoutDesigner.Shell.Painting

/-!
# The scene

The scene keeps one item for every node that is drawn. After every change of the session the items
are made to agree with it: items of nodes that are gone are removed, new nodes get an item, and each
item takes over a copy of its node, where it is, how high it is stacked and whether it is selected.
-/

namespace LayoutDesigner.Shell

/-- What an item shows. -/
structure Display (α : Type) where
  node : Node α
  selected : Bool
  x : α
  y : α
  w : α
  h : α
  z : α

/-- An item of the scene. -/
structure Item (α : Type) where
  id : Text
  /-- What the item shows, once it has taken over a node. -/
  display : Option (Display α) := none

/-- The items of the scene in the order in which they were added. -/
structure Scene (α : Type) where
  items : List (Item α) := []

namespace Scene

variable {α : Type}

/-- The item of a node. -/
def find? (scene : Scene α) (id : Text) : Option (Item α) := scene.items.find? fun i => i.id = id

/-- Keep only the items of the listed nodes. -/
def keep (scene : Scene α) (ids : List Text) : Scene α :=
  ⟨scene.items.filter fun i => ids.elem i.id⟩

/-- Add an item for a node, unless there is one. -/
def ensure (scene : Scene α) (id : Text) : Scene α :=
  if (scene.find? id).isSome then scene else ⟨scene.items ++ [{ id := id }]⟩

/-- Let the item of a node show something. -/
def display (scene : Scene α) (id : Text) (d : Display α) : Scene α :=
  ⟨scene.items.map fun i => if i.id = id then { i with display := some d } else i⟩

variable [Arith α]

/-- What the item of a node shows at a place in the drawing order. -/
def displayOf (s : Session α) (z : Nat) (n : Node α) : Except Fault (Display α) := do
  let (x, y) ← s.store.absoluteTopLeft n.id
  let x ← Arith.toReal x
  let y ← Arith.toReal y
  n.needCopy s.depth
  return { node := n, selected := s.selectedId = some n.id, x, y
           w := ← Arith.toReal n.w, h := ← Arith.toReal n.h
           z := ← Arith.toReal (Arith.ofInt (z + 1)) }

/-- Make the items of the listed nodes agree with the session, the first of them at place `z`. -/
def showNodes (s : Session α) : (z : Nat) → List Text → Edit (Scene α) Unit
  | _, [] => pure ()
  | z, id :: rest => do
    modify (·.ensure id)
    match s.store.find? id with
    | some n => do
      let d ← displayOf s z n
      modify (·.display id d)
    | none => pure ()
    showNodes s (z + 1) rest

/-- Make the items agree with the session. -/
def refresh (s : Session α) : Edit (Scene α) Unit := do
  s.store.checkAllLayers
  let order := s.store.paintOrder
  modify (·.keep order)
  showNodes s 0 order

end Scene

/-- The tip that an item shows. -/
def Display.toolTip {α : Type} (d : Display α) : Text :=
  d.node.displayName ++ (" (" : Text) ++ d.node.kind.name ++ (")" : Text)

namespace Item

/-- The box that an item paints in, handles included: half a unit more than its own box, half a
handle more, and one unit more on every side. -/
def bounds (settings : Settings) (w h : Number) : Except Fault (Rect Number) := do
  let half ← Arith.div (← handleSize settings) (.int 2)
  let margin ← Arith.toReal (← Arith.add half (.int 1))
  let low ← Arith.sub (← Arith.sub Arith.zero Arith.half) margin
  let grow (side : Number) : Except Fault Number := do
    let framed ← Arith.add (← Arith.add side Arith.half) Arith.half
    Arith.add (← Arith.add framed margin) margin
  return ⟨low, low, ← grow w, ← grow h⟩

/-- An item as a document. -/
def toDocument (settings : Settings) (i : Item Number) : Except Fault Document := do
  let zero : Number := Arith.zero
  let place (x y w h z : Number) : Document :=
    .obj [("x", .num x), ("y", .num y), ("w", .num w), ("h", .num h), ("z", .num z)]
  match i.display with
  | none =>
    let r ← bounds settings zero zero
    return .arr [place zero zero zero zero zero, .str [], .bool false, .null, boxDocument r]
  | some d =>
    let r ← bounds settings d.w d.h
    return .arr [place d.x d.y d.w d.h d.z, .str d.node.kind.name, .bool d.selected,
      .str d.toolTip, boxDocument r]

/-- The painting of an item; one that shows nothing paints nothing. -/
def paint (settings : Settings) (i : Item Number) : Except Fault (List PaintStep) :=
  match i.display with
  | none => .ok []
  | some d => paintNode settings d.node d.w d.h d.selected

end Item

/-- The free space around the canvas. -/
def sceneMargin : Int := 40

/-- The outline of the scene: the space that it takes. -/
def sceneOutline (s : Store Number) : Except Fault Outline := do
  let margin : Number := .int sceneMargin
  let grow (side : Number) : Except Fault Number := do
    Arith.add side (← Arith.mul (.int 2) margin)
  let r ← realBox (.int (-sceneMargin)) (.int (-sceneMargin)) (← grow (← s.canvasW.asOperand)) (← grow (← s.canvasH.asOperand))
  return Outline.plain "DesignScene" [("setSceneRect", boxDocument r)] []

end LayoutDesigner.Shell
