import LayoutDesigner.Edit
import LayoutDesigner.Node.Record
import LayoutDesigner.Sorting

/-!
# The store of a design

The nodes of one design in the order in which they came, and the size of its surface. Parents are
named by id, so a store can hold links that lead nowhere or in a circle; every walk along them is
bounded by the number of nodes.
-/

namespace LayoutDesigner

/-- The nodes of one design, oldest first, on a surface of a given size. The size is as it was
configured; it is looked at only where something is measured with it. -/
structure Store (α : Type) where
  canvasW : Value α
  canvasH : Value α
  nodes : List (Node α) := []

namespace Store

variable {α : Type}

/-- The number of nodes. -/
def size (s : Store α) : Nat := s.nodes.length

/-- The ids of the nodes, oldest first. -/
def ids (s : Store α) : List Text := s.nodes.map Node.id

/-- The node with the given id. -/
def find? (s : Store α) (id : Text) : Option (Node α) := s.nodes.find? fun n => n.id = id

/-- Whether there is a node with the given id. -/
def contains (s : Store α) (id : Text) : Bool := (s.find? id).isSome

/-- The node that an optional id names. -/
def lookup (s : Store α) (id? : Option Text) : Option (Node α) := id?.bind s.find?

/-- Add a node at the end; its id has to be new. -/
def add [Arith α] (s : Store α) (n : Node α) : Except Fault (Store α) := do
  let _ ← (n.written .id).asId
  if s.contains n.id then throw (.duplicateId (n.written .id).shown)
  return { s with nodes := s.nodes ++ [n] }

/-- The nodes with `n` in the place of the node of the same id, or at the end. -/
def putNode (n : Node α) : List (Node α) → List (Node α)
  | [] => [n]
  | m :: rest => if m.id = n.id then n :: rest else m :: putNode n rest

/-- Replace the node of the same id, or add the node at the end. -/
def put (s : Store α) (n : Node α) : Store α := { s with nodes := putNode n s.nodes }

/-- Change the node with the given id. -/
def modifyNode (s : Store α) (id : Text) (f : Node α → Node α) : Store α :=
  { s with nodes := s.nodes.map fun n => if n.id = id then f n else n }

/-- Remove every node whose id is listed. -/
def removeAll (s : Store α) (ids : List Text) : Store α :=
  { s with nodes := s.nodes.filter fun n => !ids.elem n.id }

/-- The store without nodes. -/
def clear (s : Store α) : Store α := { s with nodes := [] }

/-- The store with exactly the given nodes. Of nodes with one id the last is kept, in the place of
the first. -/
def replaceAll (s : Store α) (nodes : List (Node α)) : Store α :=
  { s with nodes := nodes.foldl (fun soFar n => putNode n soFar) [] }

/-- The children of a parent, oldest first. -/
def children (s : Store α) (parent : Text) : List (Node α) := s.nodes.filter fun n => n.parent = parent

variable [Arith α]

/-- Nodes in drawing order. This fails where layers or ids of foreign types have no order. -/
def inDrawingOrder (nodes : List (Node α)) : Except Fault (List (Node α)) :=
  if nodes.all Node.isOrdered then .ok (nodes.mergeSort Node.drawnBefore)
  else Sorting.sort (fun a b => a.rank.less b.rank) nodes

/-- The children of a parent in drawing order. -/
def childrenOf (s : Store α) (parent : Text) : List (Node α) :=
  match inDrawingOrder (s.children parent) with
  | .ok nodes => nodes
  | .error _ => s.children parent

/-- The ids of the children of a parent in drawing order. -/
def childIds (s : Store α) (parent : Text) : List Text := (s.childrenOf parent).map Node.id

/-- Each parent that a node names, with its children's ids in drawing order. -/
def childrenMap (s : Store α) : List (Text × List Text) :=
  (s.nodes.map Node.parent).eraseDups.map fun parent => (parent, s.childIds parent)

/-- The size of a parent's box: that of the surface for the root and for an id without a node. -/
def parentSize (s : Store α) (parent : Text) : Value α × Value α :=
  if parent = root then (s.canvasW, s.canvasH)
  else
    match s.find? parent with
    | some p => (p.written .w, p.written .h)
    | none => (s.canvasW, s.canvasH)

/-- The child of a parent on the highest layer, the oldest of several. -/
def topmost? (s : Store α) (parent : Text) : Option (Node α) :=
  match s.children parent with
  | [] => none
  | first :: rest => some (rest.foldl (fun top n => if top.isLower n then n else top) first)

/-- The layer above all children of a parent; the first layer is 1. -/
def nextZ (s : Store α) (parent : Text) : Int := (s.topmost? parent).elim 1 fun top => top.z + 1

/-- The layer above all children of a parent as it is shown: above one that was put in unchecked it
is computed from that. -/
def nextLayer (s : Store α) (parent : Text) : Except Fault (Value α) := do
  if !(s.children parent).all fun n => n.unchecked.areNumbers [.zIndex] then throw .wrongType
  match (s.topmost? parent).bind fun top => top.unchecked.value? .zIndex with
  | none => return .int (s.nextZ parent)
  | some v => return .num (← Arith.add (← v.asOperand) (Arith.ofInt 1))

/-- Put a node, which may be new, on the layer above all children of a parent. -/
def onTop (s : Store α) (parent : Text) (n : Node α) : Except Fault (Node α) := do
  let layer ← s.nextLayer parent
  let above := n.setZ (s.nextZ parent)
  match (s.topmost? parent).bind fun top => top.unchecked.value? .zIndex with
  | none => return above
  | some _ => return above.keep .zIndex layer

/-- Fails where the children of a parent have no order. -/
def checkLayers (s : Store α) (parent : Text) : Except Fault Unit := do
  let _ ← inDrawingOrder (s.children parent)

/-- Fails where a node names its parent by what is no id, or where any siblings have no order. -/
def checkAllLayers (s : Store α) : Except Fault Unit := do
  s.nodes.forM fun n => do
    let _ ← (n.written .parent).asId
  (s.nodes.map Node.parent).eraseDups.forM s.checkLayers

/-- Renumber the listed nodes 1, 2, … in the order of the list. -/
def numberBy (s : Store α) (ids : List Text) : Store α :=
  { s with nodes := s.nodes.map fun n =>
      if ids.elem n.id then n.setZ ((ids.idxOf n.id : Int) + 1) else n }

/-- Renumber the children of a parent 1, 2, … in drawing order. -/
def normalizeZ (s : Store α) (parent : Text) : Store α := s.numberBy (s.childIds parent)

/-- Follow parent links from `id`, stopping at the root, at a missing node and at an id that was met
before. `bound` limits the number of steps. -/
def ancestorsFrom (s : Store α) : (bound : Nat) → (met : List Text) → (id : Text) → List Text
  | 0, _, _ => []
  | bound + 1, met, id =>
    match s.find? id with
    | none => []
    | some n =>
      if n.parent = root ∨ n.parent ∈ met ∨ !s.contains n.parent then []
      else n.parent :: s.ancestorsFrom bound (n.parent :: met) n.parent

/-- The chain of parents from nearest to farthest, without the root. -/
def ancestors (s : Store α) (id : Text) : List Text := s.ancestorsFrom s.size [id] id

/-- Whether `ancestor` is on the chain of parents of `child`; every node is below the root. -/
def isBelow (s : Store α) (child ancestor : Text) : Bool :=
  if ancestor = root then s.contains child else (s.ancestors child).elem ancestor

/-- The relation `isBelow` on ids that may be missing. -/
def isDescendant (s : Store α) (child? ancestor? : Option Text) : Bool :=
  match child?, ancestor? with
  | some child, some ancestor => s.isBelow child ancestor
  | _, _ => false

/-- The number of nodes above a node. -/
def depthOf (s : Store α) (id : Text) : Nat := (s.ancestors id).length

/-- The ids of all nodes below a node. -/
def descendants (s : Store α) (id : Text) : List Text := s.ids.filter fun other => s.isBelow other id

/-- The nodes that accept children. -/
def containers (s : Store α) : List (Node α) := s.nodes.filter fun n => n.kind.isContainer

/-- Fails where a node has a colour without three channels that come to integers. -/
def needColors (s : Store α) : Except Fault Unit := s.nodes.forM Node.needColors

/-- Fails where an extension of a node has properties that are nested too deeply to be copied. -/
def needCopies (depth : Nat) (s : Store α) : Except Fault Unit := s.nodes.forM (Node.needCopies depth)

/-- Edit the node with the given id, if there is one. -/
def onNode (id : Text) (edit : Edit (Node α) Unit) : Edit (Store α) Unit := fun s =>
  match s.find? id with
  | none => .ok () s
  | some n =>
    match edit n with
    | .ok _ n' => .ok () (s.put n')
    | .error fault n' => .error fault (s.put n')

end Store

end LayoutDesigner
