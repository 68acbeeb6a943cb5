import LayoutDesigner.Proofs.InsertionOrder
import LayoutDesigner.Proofs.Restore

/-!
# Siblings in their order

The children of a parent are drawn in the one order in which layer and id put them. Numbering them in
any order of theirs makes it that order, on the layers 1, 2, …, N, and renumbering them as they are
drawn keeps it. An edit of one node keeps the others in order where, without that node, every parent
has the children it had, in the order they had.
-/

namespace LayoutDesigner.Store

/-- Two items next to each other: `next` comes before `id` (`up`) or after it. -/
def beside (before after : List Text) (id next : Text) (up : Bool) : List Text :=
  if up then before ++ next :: id :: after else before ++ id :: next :: after

variable {α : Type} [Arith α] {s t u : Store α} {id parent place : Text} {n : Node α} {order ids : List Text}

/-- Children that stand in drawing order are the children in drawing order. -/
theorem childrenOf_eq {nodes : List (Node α)} (plain : s.IsPlain) (distinct : s.ids.Nodup)
    (perm : nodes.Perm (s.children parent)) (sorted : nodes.Pairwise fun a b => a.drawnBefore b) :
    s.childrenOf parent = nodes := by
  refine List.Perm.eq_of_pairwise ?_ (childrenOf_sorted plain parent) sorted (childrenOf_perm.trans perm.symm)
  intro a b left right before after
  have isNode : ∀ {k}, k ∈ s.children parent → k ∈ s.nodes := fun child => (mem_children.mp child).1
  exact eq_of_id_eq distinct (isNode (childrenOf_perm.mem_iff.mp left)) (isNode (perm.mem_iff.mp right))
    (Node.drawnBefore_antisymm before after)

/-- Nodes that are the children of a parent and in drawing order are its children in this order. -/
theorem childIds_eq (plain : s.IsPlain) (distinct : s.ids.Nodup) (nodes : List (Node α))
    (perm : nodes.Perm (s.children parent)) (sorted : nodes.Pairwise fun a b => a.drawnBefore b) :
    s.childIds parent = nodes.map Node.id :=
  congrArg (List.map Node.id) (childrenOf_eq plain distinct perm sorted)

/-- The order of children goes by the children alone. -/
theorem childIds_congr (same : t.children parent = s.children parent) : t.childIds parent = s.childIds parent := by
  rw [childIds, childIds, childrenOf, childrenOf, same]

/-- The order of children goes by the nodes alone. -/
theorem childIds_congr_nodes (same : t.nodes = s.nodes) (parent : Text) : t.childIds parent = s.childIds parent :=
  childIds_congr (by rw [children, children, same])

/-- Removing nodes leaves the others in order. -/
theorem childIds_removeAll (plain : s.IsPlain) (distinct : s.ids.Nodup) (ids : List Text) (parent : Text) :
    (s.removeAll ids).childIds parent = (s.childIds parent).filter fun id => !ids.elem id := by
  have remaining : (s.removeAll ids).childrenOf parent = (s.childrenOf parent).filter fun n => !ids.elem n.id := by
    refine childrenOf_eq (All.removeAll plain ids) (distinct.sublist (List.filter_sublist.map _)) ?_
      ((childrenOf_sorted plain parent).sublist List.filter_sublist)
    have children : (s.removeAll ids).children parent = (s.children parent).filter fun n => !ids.elem n.id := by
      simp only [Store.children, removeAll, List.filter_filter, Bool.and_comm]
    exact children ▸ childrenOf_perm.filter _
  rw [childIds, childIds, remaining, List.filter_map]
  rfl

/-- Numbered in any order of theirs, the children of a parent are drawn in that order. -/
theorem childIds_numberBy (plain : s.IsPlain) (distinct : s.ids.Nodup) (all : order.Perm (s.childIds parent)) :
    (s.numberBy order).childIds parent = order := by
  have sameIds : (s.numberBy order).ids = s.ids := ids_congr links_numberBy
  have layer : ∀ n ∈ (s.numberBy order).childrenOf parent, n.z = (order.idxOf n.id : Int) + 1 := by
    intro n child
    obtain ⟨k, isChild, rfl⟩ := List.mem_map.mp (children_numberBy ▸ childrenOf_perm.mem_iff.mp child)
    have listed : order.elem k.id :=
      List.elem_iff.mpr (all.mem_iff.mpr (childIds_perm.mem_iff.mpr (List.mem_map_of_mem isChild)))
    rw [if_pos listed]
    rfl
  have sorted : ((s.numberBy order).childIds parent).Pairwise fun a b => order.idxOf a ≤ order.idxOf b := by
    rw [childIds, List.pairwise_map]
    refine (childrenOf_sorted plain.numberBy parent).imp_of_mem fun {a b} left right before => ?_
    have inOrder := Node.drawnBefore_iff.mp before
    rw [layer a left, layer b right] at inOrder
    omega
  have orderDistinct : order.Nodup := all.nodup_iff.mpr (nodup_childIds distinct parent)
  have sorted' : order.Pairwise fun a b => order.idxOf a ≤ order.idxOf b := by
    rw [List.pairwise_iff_getElem]
    intro i j _ _ less
    rw [orderDistinct.idxOf_getElem, orderDistinct.idxOf_getElem]
    exact less.le
  have perm : ((s.numberBy order).childIds parent).Perm order := by
    refine childIds_perm.trans (.trans (.of_eq ?_) (childIds_perm.symm.trans all.symm))
    rw [children_numberBy, List.map_map]
    refine List.map_congr_left fun k _ => ?_
    simp only [Function.comp_apply]
    split <;> rfl
  refine perm.eq_of_pairwise (fun a b left right le ge => ?_) sorted sorted'
  exact (List.idxOf_inj (perm.mem_iff.mp left)).mp (le_antisymm le ge)

/-- Numbering the children of one parent leaves those of every other one in order. -/
theorem childIds_numberBy_other (distinct : s.ids.Nodup) (all : order.Perm (s.childIds parent)) (differs : place ≠ parent) :
    (s.numberBy order).childIds place = s.childIds place :=
  childIds_congr (children_numberBy_other distinct
    (fun _ listed => childIds_perm.mem_iff.mp (all.mem_iff.mp listed)) differs)

/-- Numbered children are on the first layers. -/
theorem layers_numberBy (plain : s.IsPlain) (distinct : s.ids.Nodup) (all : order.Perm (s.childIds parent)) :
    ((s.numberBy order).childrenOf parent).map Node.z = firstLayers order.length := by
  rw [layers_childrenOf plain.numberBy (layered_numberBy distinct (all.trans childIds_perm))]
  have sameLength := congrArg List.length (childIds_numberBy plain distinct all)
  rw [childIds, List.length_map] at sameLength
  rw [sameLength]

/-- Renumbering keeps every parent's children in order. -/
theorem childIds_normalizeZ (plain : s.IsPlain) (distinct : s.ids.Nodup) (parent place : Text) :
    (s.normalizeZ parent).childIds place = s.childIds place := by
  by_cases same : place = parent
  · rw [same, normalizeZ, childIds_numberBy plain distinct (.refl _)]
  · exact childIds_numberBy_other distinct (.refl _) same

/-- Without one node, every parent has the children that it had, in the order that they had. -/
def KeepsOthers (id : Text) (s t : Store α) : Prop :=
  ∀ parent, (t.childIds parent).filter (· ≠ id) = (s.childIds parent).filter (· ≠ id)

namespace KeepsOthers

/-- A store keeps its own other siblings. -/
theorem refl (id : Text) (s : Store α) : KeepsOthers id s s := fun _ => rfl

/-- Two changes that keep the other siblings keep them together. -/
theorem trans (first : KeepsOthers id s t) (second : KeepsOthers id t u) : KeepsOthers id s u := fun parent =>
  (second parent).trans (first parent)

/-- A change that keeps all siblings keeps the other ones. -/
theorem of_childIds (same : ∀ parent, t.childIds parent = s.childIds parent) : KeepsOthers id s t := fun parent => by
  rw [same]

/-- Changing one node, whatever becomes of its parent and its layer, keeps the others in order. -/
theorem modifyNode {f : Node α → Node α} (keepsId : ∀ n, (f n).id = n.id)
    (keepsPlain : ∀ n, n.unchecked = [] → (f n).unchecked = []) (plain : s.IsPlain) (distinct : s.ids.Nodup) :
    KeepsOthers id s (s.modifyNode id f) := by
  intro parent
  have rest : ((s.modifyNode id f).removeAll [id]).nodes = (s.removeAll [id]).nodes := by
    simp only [Store.modifyNode, removeAll, List.filter_map]
    have kept : (fun n : Node α => !List.elem n.id [id]) ∘ (fun n => if n.id = id then f n else n) =
        fun n => !List.elem n.id [id] := by
      funext n
      by_cases here : n.id = id <;> simp [here, keepsId]
    rw [kept]
    refine (List.map_congr_left fun n member => if_neg ?_).trans (List.map_id _)
    simpa using (List.mem_filter.mp member).2
  have others : (fun other : Text => !List.elem other [id]) = fun other => decide (other ≠ id) := by
    funext other
    by_cases same : other = id <;> simp [same]
  have same := childIds_congr_nodes rest parent
  rwa [childIds_removeAll (plain.modifyNode id keepsPlain) ((ids_modifyNode keepsId).symm ▸ distinct),
    childIds_removeAll plain distinct, others] at same

end KeepsOthers

end LayoutDesigner.Store
