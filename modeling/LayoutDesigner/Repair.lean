import LayoutDesigner.Containment

/-!
# Repairing a store

Links and boxes of a loaded design may be wrong. A link that leads nowhere or in a circle is reset
to the root, the position staying as it is; a node under something that is no container goes to the
root and stays where it is on the canvas. Then every node is kept inside its parent and all
siblings are numbered anew.
-/

namespace LayoutDesigner.Store

variable {α : Type}

/-- Whether the chain of parents that goes on at `id` comes to `target`, without meeting the root or
an id again. `bound` limits the number of steps. -/
def leadsTo (s : Store α) (target : Text) : (bound : Nat) → (met : List Text) → (id : Text) → Bool
  | 0, _, _ => false
  | bound + 1, met, id =>
    if id = root ∨ id ∈ met then false
    else if id = target then true
    else
      match s.find? id with
      | none => false
      | some n => s.leadsTo target bound (id :: met) n.parent

/-- Whether following the parents of a node leads back to it. -/
def onCycle (s : Store α) (n : Node α) : Bool := s.leadsTo n.id (s.size + 1) [] n.parent

/-- Put a node under the root, its position staying as it is. -/
def cutLink (s : Store α) (id : Text) : Store α := s.modifyNode id (·.setParent root)

/-- Cut the links of the listed nodes for which `broken` holds, one after the other; the answer
lists them. -/
def cutWhere (broken : Store α → Node α → Bool) : List Text → Store α → List Text × Store α
  | [], s => ([], s)
  | id :: rest, s =>
    match s.find? id with
    | none => cutWhere broken rest s
    | some n =>
      if n.parent ≠ root ∧ broken s n then
        let (others, s) := cutWhere broken rest (s.cutLink id)
        (id :: others, s)
      else cutWhere broken rest s

/-- Cut the links that lead to no node. -/
def cutDangling (s : Store α) : List Text × Store α :=
  cutWhere (fun s n => !s.contains n.parent) s.ids s

/-- Cut one link of every circle. -/
def cutCycles (s : Store α) : List Text × Store α := cutWhere onCycle s.ids s

/-- Whether the parent of a node is there and is no container. -/
def parentRefuses (s : Store α) (n : Node α) : Bool :=
  (s.find? n.parent).any fun p => !p.kind.isContainer

variable [Arith α]

/-- Move the listed nodes whose parent is no container to the root, each staying where it is on the
canvas; the answer lists them. -/
def liftFromLeaves : List Text → Edit (Store α) (List Text)
  | [] => pure []
  | id :: rest => do
    let s ← get
    match s.find? id with
    | none => liftFromLeaves rest
    | some n =>
      if s.parentRefuses n then
        let (x, y) ← s.absoluteAnchor id
        modify (·.modifyNode id fun n => ((n.setX x).setY y).setParent root)
        return id :: (← liftFromLeaves rest)
      else liftFromLeaves rest

/-- Number the children of the root and of every node anew. -/
def normalizeAll (s : Store α) : Store α :=
  s.ids.foldl (fun s id => s.normalizeZ id) (s.normalizeZ root)

/-- Repair links, boxes and layers; the answer lists the nodes whose parent was changed. -/
def repair (leastSide : Value α) : Edit (Store α) (List Text) := do
  let (dangling, s) := (← get).cutDangling
  let (cycles, s) := s.cutCycles
  set s
  let lifted ← liftFromLeaves s.ids
  clampSubtree root leastSide
  modify normalizeAll
  return dangling ++ cycles ++ lifted

end LayoutDesigner.Store
