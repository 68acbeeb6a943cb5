import LayoutDesigner.Store

/-!
# The order in which the script creates nodes

Level by level from the root, siblings in drawing order. A node is written after its parent: where
the parent is still missing, it is written first.
-/

namespace LayoutDesigner.Script

variable {α : Type} [Arith α]

/-- Walk a queue of ids, adding the children of each new one at its end. `seen` are the ids met so
far, oldest first, and `bound` limits the number of queue entries. -/
def walk (s : Store α) : (bound : Nat) → (seen queue : List Text) → List Text
  | 0, seen, _ => seen
  | _, seen, [] => seen
  | bound + 1, seen, id :: rest =>
    if seen.elem id then walk s bound seen rest
    else walk s bound (seen ++ [id]) (rest ++ s.childIds id)

/-- The ids below the root, level by level, each once. Every node is queued by its parent, and by
the root a second time where a node has the root's id. -/
def levelOrder (s : Store α) : List Text := walk s (2 * s.size + 1) [] (s.childIds root)

/-- The ids met so far, and those that are written, in order. -/
structure Written where
  met : List Text
  order : List Text

/-- Write a node, its parent first where that is not written yet. `bound` limits the number of
parents. -/
def write (s : Store α) : (bound : Nat) → Written → Text → Written
  | 0, done, _ => done
  | bound + 1, done, id =>
    if done.met.elem id then done
    else
      match s.find? id with
      | none => done
      | some n =>
        let done := { done with met := id :: done.met }
        let done := if done.met.elem n.parent then done else write s bound done n.parent
        { done with order := done.order ++ [id] }

/-- The nodes in the order in which they are written. -/
def writingOrder (s : Store α) : List Text :=
  ((levelOrder s).foldl (write s (s.size + 1)) ⟨[root], []⟩).order

end LayoutDesigner.Script
