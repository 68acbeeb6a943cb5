import LayoutDesigner.Store

/-!
# Drawing order

Nodes are drawn parents before children and siblings from the lowest layer up: the pre-order of the
tree below the root. A node whose chain of parents does not reach the root is not drawn.
-/

namespace LayoutDesigner.Store

variable {α : Type} [Arith α]

/-- The nodes below `parent` in pre-order, at most `depth` levels of them, without the subtree of
`skip`. -/
def preorder (s : Store α) (skip : Option Text) : (depth : Nat) → (parent : Text) → List Text
  | 0, _ => []
  | depth + 1, parent =>
    (s.childIds parent).flatMap fun id =>
      if skip = some id then [] else id :: s.preorder skip depth id

/-- The ids of the drawn nodes in drawing order, without the subtree of `skip`. -/
def paintOrder (s : Store α) (skip : Option Text := none) : List Text := s.preorder skip s.size root

/-- A line of the hierarchy view. -/
structure TreeRow (α : Type) where
  id : Text
  kind : Kind
  name : Value α
  layer : Value α
  depth : Nat

/-- The rows below `parent`, which is `level` levels below the root, at most `depth` levels. -/
def rowsBelow (s : Store α) : (depth : Nat) → (level : Nat) → (parent : Text) → List (TreeRow α)
  | 0, _, _ => []
  | depth + 1, level, parent =>
    (s.childrenOf parent).flatMap fun n =>
      ⟨n.id, n.kind, n.called, n.written .zIndex, level⟩ :: s.rowsBelow depth (level + 1) n.id

/-- The rows of the hierarchy view: the drawn nodes in drawing order with their depth. -/
def treeRows (s : Store α) : List (TreeRow α) := s.rowsBelow s.size 0 root

namespace TreeRow

/-- The columns of a row. -/
def columns (r : TreeRow α) : List (Value α) :=
  [.str r.id, .str r.kind.name, r.name, r.layer, .int r.depth]

/-- Whether two rows show the same. -/
def same (a b : TreeRow α) : Bool := Value.sameItems a.columns b.columns

end TreeRow

end LayoutDesigner.Store
