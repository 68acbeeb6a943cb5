import LayoutDesigner.Proofs.Exchange
import LayoutDesigner.Proofs.MeasuredStore

/-!
# Removing a subtree

What a node is removed with is found downwards, by going through the store until nothing is added. What is
below a node is found upwards, by the walk from each node. On every graph of links the two agree: links may
lead nowhere or in a circle. So nothing that stays has lost its parent, and of what stays only the siblings
of the node are changed, which close up their layers.
-/

namespace LayoutDesigner.Store

variable {α : Type} {s t : Store α} {id parent : Text} {n : Node α} {ids : List Text}

/-- The ids that a node is removed with are its own and those of the nodes whose walk up passes it. -/
theorem subtreeIds_perm (distinct : s.ids.Nodup) (unreserved : root ∉ s.ids) (isNode : id ∈ s.ids) :
    (s.subtreeIds id).Perm (id :: s.descendants id) := by
  have notBelow : id ∉ s.descendants id := fun below =>
    ((mem_descendants unreserved isNode).mp below).1 rfl
  have others : (id :: s.descendants id).Nodup :=
    List.nodup_cons.mpr ⟨notBelow, distinct.sublist List.filter_sublist⟩
  refine (List.perm_ext_iff_of_nodup (grown_subtreeIds distinct isNode).distinct others).mpr fun other => ?_
  rw [mem_subtreeIds distinct isNode, List.mem_cons, mem_descendants unreserved isNode]
  by_cases same : other = id <;> simp [same]

/-- What stays has not lost its parent. -/
theorem parent_notMem_subtreeIds (distinct : s.ids.Nodup) (isNode : id ∈ s.ids) (isNode' : n ∈ s.nodes)
    (stays : n.id ∉ s.subtreeIds id) : n.parent ∉ s.subtreeIds id := by
  rw [mem_subtreeIds distinct isNode] at stays ⊢
  exact fun inside => stays (.inr ((leadsUp_of_parent? (parent?_of_mem distinct isNode')).mpr inside))

variable [Arith α]

/-- `t` is what is left of a store without some ids: nothing has lost its parent, and nothing is changed but
the layers under one parent, which are 1, 2, … in the order in which its children stood. -/
structure Leaves (s : Store α) (ids : List Text) (parent : Text) (t : Store α) : Prop where
  nodes : t = { s with nodes := (s.nodes.filter fun n => n.id ∉ ids).map fun n =>
    if n.parent = parent then { n with z := (((s.childIds parent).filter (· ∉ ids)).idxOf n.id : Int) + 1 } else n }
  linked : ∀ n ∈ t.nodes, n.parent ∉ ids
  order : t.childIds parent = (s.childIds parent).filter (· ∉ ids)
  layers : (t.childrenOf parent).map Node.z = firstLayers (t.childIds parent).length

/-- The ids that are left are the other ones in their order. -/
theorem Leaves.ids_eq (leaves : s.Leaves ids parent t) : t.ids = s.ids.filter (· ∉ ids) := by
  rw [leaves.nodes, Store.ids, Store.ids, List.map_map, List.filter_map]
  refine List.map_congr_left fun n _ => ?_
  simp only [Function.comp_apply]
  split <;> rfl

/-- Removing ids whose children are among them and renumbering the children of a parent. -/
theorem leaves_removeAll (plain : s.IsPlain) (distinct : s.ids.Nodup)
    (closed : ∀ n ∈ s.nodes, n.id ∉ ids → n.parent ∉ ids) (parent : Text) :
    s.Leaves ids parent ((s.removeAll ids).normalizeZ parent) := by
  have distinct' : (s.removeAll ids).ids.Nodup := distinct.sublist (List.filter_sublist.map _)
  have plain' : (s.removeAll ids).IsPlain := All.removeAll plain ids
  have rest : (s.removeAll ids).childIds parent = (s.childIds parent).filter (· ∉ ids) := by
    rw [childIds_removeAll plain distinct]
    exact List.filter_congr fun id _ => by by_cases listed : id ∈ ids <;> simp [listed]
  have order : ((s.removeAll ids).normalizeZ parent).childIds parent = (s.childIds parent).filter (· ∉ ids) := by
    rw [childIds_normalizeZ plain' distinct', rest]
  have remaining : (s.removeAll ids).nodes = s.nodes.filter fun n => n.id ∉ ids :=
    List.filter_congr fun n _ => by by_cases listed : n.id ∈ ids <;> simp [listed]
  refine ⟨?_, ?_, order, ?_⟩
  · rw [normalizeZ, numberBy, rest, ← remaining]
    refine congrArg (fun nodes => { s with nodes }) (List.map_congr_left fun n member => ?_)
    rw [Node.setZ_plain (plain' n member), ← rest]
    refine if_congr ?_ rfl rfl
    rw [List.elem_iff, id_mem_childIds distinct' member]
  · intro n member
    obtain ⟨m, isNode, link⟩ := exists_link links_normalizeZ member
    obtain ⟨isNode, stays⟩ := List.mem_filter.mp (remaining ▸ isNode)
    have sameParent : m.parent = n.parent := congrArg Link.parent link
    exact sameParent ▸ closed m isNode (by simpa using stays)
  · rw [order, normalizeZ, layers_numberBy plain' distinct' (.refl _), rest]

/-- **Removing a node removes exactly its subtree.** Take any store with distinct ids of which none is the
root's, where links may lead nowhere or in a circle, and one of its nodes. Going through the store until
nothing is added ends, and what it finds is the node with what is below it by the bounded walks up, each once.
Where values have their types, removing the node removes exactly these ids; no node that stays has one of them
as its parent, and all that stay are unchanged but the former siblings, which are numbered from one up in the
order in which they stood. -/
theorem deleteSubtree_leaves (distinct : s.ids.Nodup) (unreserved : root ∉ s.ids) (isNode : n ∈ s.nodes) :
    Settles s [n.id] (s.subtreeIds n.id) ∧
      (s.subtreeIds n.id).Perm (n.id :: s.descendants n.id) ∧
      (s.IsPlain → ∃ t, deleteSubtree n.id s = .ok (s.subtreeIds n.id) t ∧
        s.Leaves (s.subtreeIds n.id) n.parent t) := by
  have known := id_mem_ids isNode
  have found := find?_of_mem distinct isNode
  refine ⟨settles_subtreeIds distinct known, subtreeIds_perm distinct unreserved known, fun plain => ?_⟩
  have ends : (deleteSubtree n.id).Ends s
      (fun removed t => removed = s.subtreeIds n.id ∧ s.Leaves (s.subtreeIds n.id) n.parent t)
      fun _ _ => False := by
    refine ends_deleteSubtree plain (fun missing => ?_) fun m found' => ⟨rfl, ?_⟩
    · cases found.symm.trans missing
    · obtain rfl := Option.some.inj (found.symm.trans found')
      exact leaves_removeAll plain distinct (fun m => parent_notMem_subtreeIds distinct known) n.parent
  obtain ⟨_, t, ran, rfl, leaves⟩ := ends.ok
  exact ⟨t, ran, leaves⟩

/-- Of two frames inside each other, the one goes with the other and with what the other holds. What hangs on
a missing parent stays. -/
theorem deleteSubtree_leaves_tangled :
    ∃ t, deleteSubtree "inner" tangled = .ok (tangled.subtreeIds "inner") t ∧
      (tangled.subtreeIds "inner").Perm ["inner", "outer", "held"] ∧ t.ids = [("lost" : Text), "upon"] := by
  have plain : tangled.IsPlain := by simp [tangled, IsPlain]
  obtain ⟨-, perm, removes⟩ := deleteSubtree_leaves (s := tangled) (n := tangled.nodes[0]) (by decide) (by decide)
    (List.getElem_mem _)
  obtain ⟨t, ran, leaves⟩ := removes plain
  refine ⟨t, ran, perm.trans (.of_eq (by decide +kernel)), ?_⟩
  rw [leaves.ids_eq]
  decide +kernel

end LayoutDesigner.Store
