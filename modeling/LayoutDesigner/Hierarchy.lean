import LayoutDesigner.Containment

/-!
# Edits of the hierarchy

Creating, moving to another parent, reordering among siblings, deleting and duplicating. An edit
that makes no sense is refused by its answer and changes nothing.
-/

namespace LayoutDesigner

/-- Where a dragged row lands, seen from the row that it is dropped on. -/
inductive DropPosition where
  | above | below | inside
  deriving DecidableEq, Repr

/-- The name of a drop position. -/
def DropPosition.name : DropPosition → Text
  | .above => "above"
  | .below => "below"
  | .inside => "inside"

/-- The drop position of a name. -/
def DropPosition.ofName? (t : Text) : Option DropPosition :=
  [DropPosition.above, .below, .inside].find? fun p => p.name = t

namespace Store

variable {α : Type}

/-- Whether moving a node under another parent is a legal and real change. -/
def canReparent (s : Store α) (id newParent : Text) : Bool :=
  match s.find? id with
  | none => false
  | some n =>
    if n.parent = newParent ∨ newParent = id then false
    else if newParent = root then true
    else
      match s.find? newParent with
      | none => false
      | some target => target.kind.isContainer && !s.isBelow newParent id

/-- The place for an item that is taken out at one place and goes next to the item at another. Taking it
out moves what stood behind it up by one. -/
def landingPlace (taken target : Nat) (position : DropPosition) : Int :=
  if position = .above then target + (if taken < target then -1 else 0)
  else target + (if taken < target then 0 else 1)

/-- Take an id out of its place in an order and put it in again next to another one. -/
def moveBeside (order : List Text) (dragged target : Text) (position : DropPosition) : List Text :=
  let taken := order.idxOf dragged
  let rest := order.eraseIdx taken
  let place := landingPlace taken (order.idxOf target) position
  rest.insertIdx (max 0 (min (rest.length : Int) place)).toNat dragged

/-- Add the ids of the nodes whose parent is in the set, going through the store once. -/
def growOnce (s : Store α) (ids : List Text) : List Text :=
  s.nodes.foldl (fun found n =>
    if found.elem n.parent && !found.elem n.id then found ++ [n.id] else found) ids

/-- Go through the store until nothing is added. `bound` limits the number of times. -/
def growUntilStable (s : Store α) : (bound : Nat) → List Text → List Text
  | 0, ids => ids
  | bound + 1, ids =>
    let grown := s.growOnce ids
    if grown.length = ids.length then ids else s.growUntilStable bound grown

/-- The node and everything below it, as the least set that holds with a node also its children. -/
def subtreeIds (s : Store α) (id : Text) : List Text := s.growUntilStable (s.size + 1) [id]

/-- The neighbour of a node among its siblings: the one drawn before it (`up`) or after it. -/
def neighbor? [Arith α] (s : Store α) (n : Node α) (up : Bool) : Option (Node α) :=
  let siblings := s.childrenOf n.parent
  let index := (siblings.map Node.id).idxOf n.id
  if up then if index = 0 then none else siblings[index - 1]? else siblings[index + 1]?

/-- Exchange the layers of a node and its neighbour and renumber the siblings. -/
def swapWithNeighbor [Arith α] (id : Text) (up : Bool) : Edit (Store α) Bool := do
  let s ← get
  match s.find? id with
  | none => return false
  | some n =>
    s.checkLayers n.parent
    match s.neighbor? n up with
    | none => return false
    | some other =>
      set ((s.modifyNode id (·.takeLayer other)).modifyNode other.id (·.takeLayer n))
      (← get).checkLayers n.parent
      modify (·.normalizeZ n.parent)
      return true

/-- Remove a node and everything below it; answers the removed ids. -/
def deleteSubtree [Arith α] (id : Text) : Edit (Store α) (List Text) := do
  let s ← get
  match s.find? id with
  | none => return []
  | some n =>
    let ids := s.subtreeIds id
    set (s.removeAll ids)
    (← get).checkLayers n.parent
    modify (·.normalizeZ n.parent)
    return ids

variable [Arith α]

/-- Keep a new node inside its parent and add it. -/
def place (n : Node α) : Edit (Store α) Unit := do
  let s ← get
  let n ← s.clampLoose n (Value.int leastSide)
  set (← s.add n)

/-- Create a node of a kind in the middle of a parent, above its siblings. -/
def createNode (kind : Value α) (id parent : Text) : Edit (Store α) Unit := do
  let s ← get
  let kind ← Kind.ofValue kind
  let n ← Node.create kind id parent (s.parentSize parent) 1
  place (← s.onTop parent n)

/-- Put a node on the layer above all children of a parent. -/
def bringToFront (id parent : Text) : Edit (Store α) Unit := do
  let s ← get
  if let some n := s.find? id then
    let n ← s.onTop parent n
    modify (·.put n)

/-- Move a node under another parent, its anchor staying where it is on the canvas as far as the new
parent has room. The node comes to the front there. Answers whether the node moved. -/
def reparent (id newParent : Text) : Edit (Store α) Bool := do
  let s ← get
  match s.find? id with
  | none => return false
  | some n =>
    if !s.canReparent id newParent then return false
    let world ← s.absoluteAnchor id
    modify (·.modifyNode id (·.setParent newParent))
    let start ← (← get).spaceOrigin newParent
    let x ← Arith.sub world.1 start.1
    modify (·.modifyNode id (·.setX x))
    let y ← Arith.sub world.2 start.2
    modify (·.modifyNode id (·.setY y))
    bringToFront id newParent
    clampSubtree id (Value.int leastSide)
    modify fun s => (s.normalizeZ newParent).normalizeZ n.parent
    return true

/-- Put a node directly before or after another one in drawing order, moving it under the other's
parent first. Answers whether that was possible. -/
def reorderRelative (dragged target : Text) (position : DropPosition) : Edit (Store α) Bool := do
  let s ← get
  match s.find? dragged, s.find? target with
  | some d, some t =>
    if dragged = target then return false
    if d.parent ≠ t.parent then
      let _ ← reparent dragged t.parent
    (← get).checkLayers t.parent
    let ids := (← get).childIds t.parent
    if !(ids.elem dragged && ids.elem target) then return false
    modify (·.numberBy (moveBeside ids dragged target position))
    return true
  | _, _ => return false

/-- A copy of a node, above its siblings and moved by an offset; it is not in the store yet. -/
def copyOf (s : Store α) (n : Node α) (newId : Text) (offset : Value α) (depth : Nat) :
    Except Fault (Node α) := do
  n.needCopy depth
  let name ← n.calledText
  let copy ← s.onTop n.parent { (n.checked .name).checked .id with id := newId, name := name ++ ("Copy" : Text) }
  let offset ← offset.asOperand
  n.unchecked.needNumbers [.x, .y]
  let x ← Arith.add n.x offset
  let y ← Arith.add n.y offset
  return (copy.setX x).setY y

end Store

/-- Give the extensions of a node new ids, first to last. -/
def Node.relabelExtensions {α : Type} (n : Node α) (ids : List Text) : Node α :=
  { n with extensions := (n.extensions.zip ids).map fun (e, id) => { e with id } }

/-- Copy a node without its children next to the node. The copies of its extensions get the ids
that `extensionId` gives for their places, or keep theirs. Answers whether there is such a node. -/
def Store.duplicate {α : Type} [Arith α] (id newId : Text) (offset : Value α)
    (extensionId : Option (Nat → Text)) (depth : Nat := usualDepth) : Edit (Store α) Bool := do
  let s ← get
  match s.find? id with
  | none => return false
  | some n =>
    let copy ← s.copyOf n newId offset depth
    let copy := match extensionId with
      | none => copy
      | some f => copy.relabelExtensions ((List.range copy.extensions.length).map f)
    Store.place copy
    return true

end LayoutDesigner
