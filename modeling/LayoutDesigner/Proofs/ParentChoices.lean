import LayoutDesigner.Property
import LayoutDesigner.Proofs.Hierarchy
import LayoutDesigner.Proofs.Housed

/-!
# The parents that are offered

The panel lists parents by a filter over the containers, and a move is checked by a chain of refusals.
In a forest of containers both come to one rule: the root admits every node, and a container those that
it is not and is not below. So what is offered beside the present parent is what a move accepts.
-/

namespace LayoutDesigner.Store

open Arith (Lawful)

variable {α : Type} {s : Store α} {n : Node α} {id place : Text}

/-- The ids of the parents that a node is offered. -/
def offeredParents (s : Store α) (n : Node α) : List Text := (s.parentChoices n).map Prod.fst

/-- The root is offered, and then each container that is not the node and not below it. -/
theorem offeredParents_eq (s : Store α) (n : Node α) : s.offeredParents n =
    root :: (s.containers.filter fun other => other.id ≠ n.id && !s.isBelow other.id n.id).map Node.id := by
  rw [offeredParents, parentChoices, List.map_cons, List.map_map]
  rfl

/-- A parent is offered exactly where it is admitted. -/
theorem mem_offeredParents (forest : s.IsForest) : place ∈ s.offeredParents n ↔ s.Admits place n.id := by
  simp only [offeredParents_eq, List.mem_cons, Admits, List.mem_map, List.mem_filter, containers, Bool.and_eq_true,
    decide_eq_true_eq, Bool.not_eq_true', ← Bool.not_eq_true, forest.isBelow_iff]
  refine or_congr_right ⟨?_, ?_⟩
  · rintro ⟨other, ⟨⟨isNode, isContainer⟩, differs, apart⟩, rfl⟩
    exact ⟨⟨other, isNode, rfl, isContainer⟩, differs, apart⟩
  · rintro ⟨⟨other, isNode, rfl, isContainer⟩, differs, apart⟩
    exact ⟨other, ⟨⟨isNode, isContainer⟩, differs, apart⟩, rfl⟩

/-- No parent is offered twice. -/
theorem nodup_offeredParents (forest : s.IsForest) (n : Node α) : (s.offeredParents n).Nodup := by
  have part : ((s.containers.filter fun other => other.id ≠ n.id && !s.isBelow other.id n.id).map Node.id).Sublist
      s.ids := (List.filter_sublist.trans List.filter_sublist).map _
  rw [offeredParents_eq]
  exact List.nodup_cons.mpr ⟨fun listed => forest.unreserved (part.subset listed), forest.distinct.sublist part⟩

variable [Arith α]

/-- A move that is legal and real says so where it returns. -/
theorem ends_reparent_moved (can : s.canReparent id place) :
    (reparent id place).Ends s (fun moved _ => moved = true) fun _ _ => True := by
  obtain ⟨n, found⟩ := exists_find?_of_canReparent can
  unfold reparent
  simp only [Edit.ends_bind, Edit.ends_get, Edit.ends_modify, Edit.ends_pure, found, can, Bool.not_true,
    Bool.false_eq_true, if_false]
  -- Six computations stand before the answer; none of them changes it.
  exact Edit.ends_any fun _ _ => Edit.ends_any fun _ _ => Edit.ends_any fun _ _ => Edit.ends_any fun _ _ =>
    Edit.ends_any fun _ _ => Edit.ends_any fun _ _ => trivial

/-- A move answers whether it is legal and real, and changes nothing where it is not. -/
theorem ends_reparent_answer : (reparent id place).Ends s
    (fun moved t => (moved = true ↔ s.canReparent id place) ∧ (moved = false → t = s))
    fun _ _ => s.canReparent id place := by
  by_cases can : s.canReparent id place
  · refine (ends_reparent_moved can).mono ?_ fun _ _ _ => can
    rintro _ t rfl
    exact ⟨by simp [can], fun refused => Bool.noConfusion refused⟩
  · exact ends_reparent_of_refused can ⟨by simp [can], fun _ => rfl⟩

/-- **The panel offers exactly the legal parents.** Take a store whose nodes are a forest of containers, and one
of the nodes. The ids that it is offered are all different; they are its present parent and whatever a
move of the node accepts. And for any id at all, a node's or not, moving the node there answers yes where
the id is offered and is not the present parent; else it answers no and nothing is changed. It fails
only on such an offered id, and only where some measure does not fit. -/
theorem offeredParents_legal [Lawful α] (forest : s.IsForest) (isNode : n ∈ s.nodes) :
    (s.offeredParents n).Nodup ∧
      (∀ place, place ∈ s.offeredParents n ↔ place = n.parent ∨ s.canReparent n.id place) ∧
      ∀ place, (reparent n.id place).Ends s
        (fun moved t => (moved = true ↔ place ∈ s.offeredParents n ∧ place ≠ n.parent) ∧ (moved = false → t = s))
        fun _ _ => (place ∈ s.offeredParents n ∧ place ≠ n.parent) ∧ ¬s.IsMeasured := by
  have can : ∀ {place}, s.canReparent n.id place ↔ place ∈ s.offeredParents n ∧ place ≠ n.parent := by
    intro place
    rw [mem_offeredParents forest, canReparent_iff_admits forest (find?_of_mem forest.distinct isNode)]
  refine ⟨nodup_offeredParents forest n, fun place => ?_, fun place => ?_⟩
  · have present : n.parent ∈ s.offeredParents n := (mem_offeredParents forest).mpr (forest.admits_parent isNode)
    rw [can]
    constructor
    · intro offered
      exact or_iff_not_imp_left.mpr fun elsewhere => ⟨offered, elsewhere⟩
    · rintro (rfl | ⟨offered, -⟩)
      · exact present
      · exact offered
  · refine (ends_reparent_answer.and_when fun measured => measured_reparent forest measured).mono ?_ ?_
    · rintro moved t ⟨⟨answers, stays⟩, -⟩
      exact ⟨answers.trans can, stays⟩
    · rintro fault t ⟨accepted, fails⟩
      exact ⟨can.mp accepted, fails⟩

/-- A box that holds a drawer with a label in it, and a shelf beside the box. -/
def cupboard : Store ℚ where
  canvasW := .int 980
  canvasH := .int 620
  nodes := [Node.square .textLabel "tag" "drawer" (1 / 2) 20 30, Node.square .frame "drawer" "box" (1 / 2) 60 100,
    Node.square .frame "box" root (1 / 2) 200 300, { Node.square .frame "shelf" root (1 / 2) 90 50 with z := 2 }]

/-- The cupboard is a forest. -/
theorem forest_cupboard : cupboard.IsForest := by
  have box : cupboard.Grounded "box" := .step (by decide : cupboard.parent? "box" = some root) .atRoot
  have shelf : cupboard.Grounded "shelf" := .step (by decide : cupboard.parent? "shelf" = some root) .atRoot
  have drawer : cupboard.Grounded "drawer" := .step (by decide : cupboard.parent? "drawer" = some "box") box
  have tag : cupboard.Grounded "tag" := .step (by decide : cupboard.parent? "tag" = some "drawer") drawer
  refine ⟨by decide, by decide, by decide, fun n member => ?_⟩
  simp only [cupboard, List.mem_cons, List.not_mem_nil, or_false] at member
  rcases member with rfl | rfl | rfl | rfl
  · exact tag
  · exact drawer
  · exact box
  · exact shelf

/-- The drawer may stay in the box, or go to the canvas or onto the shelf. It is not offered itself, nor the label
in it, nor what is unknown. -/
theorem offeredParents_cupboard :
    cupboard.offeredParents (Node.square .frame "drawer" "box" (1 / 2) 60 100) = [root, "box", "shelf"] ∧
      (reparent "drawer" "shelf").Ends cupboard (fun moved _ => moved = true) (fun _ _ => False) ∧
      (reparent "drawer" "tag").Ends cupboard (fun moved t => moved = false ∧ t = cupboard) fun _ _ => False := by
  have numeric : cupboard.IsNumeric := ⟨by simp [cupboard, Node.square, IsPlain], ⟨_, rfl⟩, ⟨_, rfl⟩⟩
  have offered : cupboard.offeredParents (Node.square .frame "drawer" "box" (1 / 2) 60 100) =
      [root, "box", "shelf"] := by decide
  obtain ⟨-, -, moves⟩ := offeredParents_legal forest_cupboard (n := Node.square .frame "drawer" "box" (1 / 2) 60 100)
    (by simp [cupboard])
  rw [offered] at moves
  refine ⟨offered, (moves "shelf").mono ?_ ?_, (moves "tag").mono ?_ ?_⟩
  · rintro moved _ ⟨answers, -⟩
    exact answers.mpr ⟨by decide, by decide⟩
  · rintro _ _ ⟨-, fails⟩
    exact fails numeric.isMeasured
  · rintro moved t ⟨answers, stays⟩
    have refused : moved = false := Bool.eq_false_iff.mpr fun accepted => absurd (answers.mp accepted).1 (by decide)
    exact ⟨refused, stays refused⟩
  · rintro _ _ ⟨-, fails⟩
    exact fails numeric.isMeasured

end LayoutDesigner.Store
