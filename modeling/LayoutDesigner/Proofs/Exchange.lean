import LayoutDesigner.Proofs.Housed
import LayoutDesigner.Proofs.SiblingOrder

/-!
# Exchanging neighbours

Where the layers of every parent are dense, exchanging a node with its neighbour exchanges their two
layers and does nothing else: the renumbering that follows finds every layer as it should be. So the
two stand the other way round in the order of the siblings, and the opposite exchange gives the store
back.
-/

namespace LayoutDesigner

variable {α : Type}

/-- A node without anything unchecked takes a layer at once. -/
theorem Node.setZ_plain {n : Node α} (plain : n.unchecked = []) (z : Int) : n.setZ z = { n with z } := by
  rw [setZ, checked_plain plain]

namespace Store

variable {s : Store α} {n m : Node α} {before after : List Text} {id next : Text} {up : Bool}

/-- Where an item of a row stands after two neighbours changed places. -/
theorem idxOf_swap {a b : Text} (distinct : (before ++ a :: b :: after).Nodup) (k : Text) :
    (before ++ b :: a :: after).idxOf k = (before ++ a :: b :: after).idxOf (Equiv.swap a b k) := by
  have apart := List.disjoint_of_nodup_append distinct
  have differs : a ≠ b := fun same => by simp [same, List.nodup_append] at distinct
  have notBefore : a ∉ before := fun listed => apart listed (by simp)
  have notBefore' : b ∉ before := fun listed => apart listed (by simp)
  by_cases isA : k = a
  · simp [isA, List.idxOf_append_of_notMem, List.idxOf_cons_ne, notBefore, notBefore', differs, differs.symm]
  · by_cases isB : k = b
    · simp [isB, List.idxOf_append_of_notMem, notBefore, notBefore']
    · rw [Equiv.swap_apply_of_ne_of_ne isA isB, List.idxOf_append, List.idxOf_append,
        List.idxOf_cons_ne _ (Ne.symm isB), List.idxOf_cons_ne _ (Ne.symm isA), List.idxOf_cons_ne _ (Ne.symm isA),
        List.idxOf_cons_ne _ (Ne.symm isB)]

/-- Where two neighbours change places, the places of all are those of their transposition. -/
theorem idxOf_beside_not (distinct : (beside before after id next up).Nodup) (other : Text) :
    (beside before after id next (!up)).idxOf other =
      (beside before after id next up).idxOf (Equiv.swap id next other) := by
  cases up with
  | true => exact Equiv.swap_comm next id ▸ idxOf_swap distinct other
  | false => exact idxOf_swap distinct other

/-- The store in which two nodes have each other's layers. -/
def exchange (n m : Node α) (s : Store α) : Store α :=
  s.mapNodes fun k => if k.id = n.id then { k with z := m.z } else if k.id = m.id then { k with z := n.z } else k

/-- Exchanging the layers of the same two nodes again gives the store back. -/
theorem exchange_exchange (distinct : s.ids.Nodup) (isNode : n ∈ s.nodes) (isNode' : m ∈ s.nodes) :
    (s.exchange n m).exchange { n with z := m.z } { m with z := n.z } = s := by
  simp only [exchange, mapNodes, List.map_map]
  refine congrArg (fun nodes => { s with nodes }) ((List.map_congr_left fun k member => ?_).trans (List.map_id _))
  simp only [Function.comp_apply, id_eq]
  by_cases here : k.id = n.id
  · obtain rfl := eq_of_id_eq distinct member isNode here
    simp
  · by_cases there : k.id = m.id
    · obtain rfl := eq_of_id_eq distinct member isNode' there
      simp [here]
    · simp [here, there]

/-- The edits that exchange two layers. -/
theorem exchange_eq_modifyNode (plain : s.IsPlain) (differs : m.id ≠ n.id) :
    s.exchange n m = (s.modifyNode n.id (·.setZ m.z)).modifyNode m.id (·.setZ n.z) := by
  simp only [modifyNode, exchange, mapNodes, List.map_map]
  refine congrArg (fun nodes => { s with nodes }) (List.map_congr_left fun k member => ?_)
  simp only [Function.comp_apply, Node.setZ_plain (plain k member)]
  by_cases here : k.id = n.id
  · have elsewhere : ¬k.id = m.id := fun there => differs (there.symm.trans here)
    simp only [here, differs.symm, if_true, if_false]
  · simp only [here, if_false]
    split
    · rw [Node.setZ_plain (plain k member)]
    · rfl

variable [Arith α]

/-- Where layers are dense, exchanging those of two siblings next to each other is numbering the siblings
with the two the other way round. -/
theorem exchange_eq_numberBy (plain : s.IsPlain) (distinct : s.ids.Nodup) (layered : s.Layered n.parent)
    (isNode : n ∈ s.nodes) (isNode' : m ∈ s.nodes) (siblings : m.parent = n.parent)
    (order : s.childIds n.parent = beside before after n.id m.id up) :
    s.exchange n m = s.numberBy (beside before after n.id m.id (!up)) := by
  have layer : ∀ k ∈ s.nodes, k.parent = n.parent →
      k.z = ((beside before after n.id m.id up).idxOf k.id : Int) + 1 := fun k member isChild => by
    have here := z_of_layered plain distinct (isChild ▸ layered) member
    rwa [isChild, order] at here
  have listed : ∀ k ∈ s.nodes, (beside before after n.id m.id (!up)).elem k.id ↔ k.parent = n.parent := by
    intro k member
    have both : k.id ∈ beside before after n.id m.id (!up) ↔ k.id ∈ s.childIds n.parent := by
      rw [order]
      cases up <;> simp [beside, or_left_comm]
    rw [List.elem_iff, both, id_mem_childIds distinct member]
  have places := idxOf_beside_not (order ▸ nodup_childIds distinct n.parent)
  refine congrArg (fun nodes => { s with nodes }) (List.map_congr_left fun k member => ?_)
  by_cases isChild : k.parent = n.parent
  · rw [if_pos ((listed k member).mpr isChild), places, Equiv.swap_apply_def, Node.setZ_plain (plain k member)]
    split
    · rw [layer m isNode' siblings]
    · split
      · rw [layer n isNode rfl]
      · rw [← layer k member isChild]
  · have other : k.id ≠ n.id := fun same => isChild (eq_of_id_eq distinct member isNode same ▸ rfl)
    have other' : k.id ≠ m.id := fun same => isChild (eq_of_id_eq distinct member isNode' same ▸ siblings)
    rw [if_neg (mt (listed k member).mp isChild), if_neg other, if_neg other']

/-- The neighbour by its place among the siblings. -/
theorem map_neighbor? : (s.neighbor? n up).map Node.id =
    let place := (s.childIds n.parent).idxOf n.id
    if up then if place = 0 then none else (s.childIds n.parent)[place - 1]? else (s.childIds n.parent)[place + 1]? := by
  simp only [neighbor?, childIds, List.getElem?_map]
  cases up with
  | true =>
      simp only [if_true]
      split <;> rfl
  | false => rfl

/-- Two neighbours have different ids. -/
theorem ne_of_beside (distinct : s.ids.Nodup) (order : s.childIds n.parent = beside before after n.id m.id up) :
    m.id ≠ n.id := by
  have nodup := order ▸ nodup_childIds distinct n.parent
  intro same
  cases up <;> simp [beside, same, List.nodup_append] at nodup

/-- The sibling next to a node is its neighbour. -/
theorem neighbor?_of_beside (distinct : s.ids.Nodup) (isNode' : m ∈ s.nodes)
    (order : s.childIds n.parent = beside before after n.id m.id up) : s.neighbor? n up = some m := by
  have nodup := order ▸ nodup_childIds distinct n.parent
  have differs := ne_of_beside distinct order
  have notBefore : n.id ∉ before := by
    intro listed
    cases up <;> exact List.disjoint_of_nodup_append nodup listed (by simp)
  have named : (s.neighbor? n up).map Node.id = some m.id := by
    rw [map_neighbor?, order]
    cases up <;> simp [beside, List.idxOf_append_of_notMem notBefore, List.idxOf_cons_ne _ differs]
  obtain ⟨k, isNeighbor, sameId⟩ := Option.map_eq_some_iff.mp named
  rw [isNeighbor, eq_of_id_eq distinct (mem_of_neighbor? isNeighbor).1 isNode' sameId]

/-- The siblings with two neighbours the other way round. -/
theorem perm_beside_not (order : s.childIds n.parent = beside before after n.id m.id up) :
    (beside before after n.id m.id (!up)).Perm (s.childIds n.parent) := by
  rw [order]
  cases up <;> exact List.Perm.append_left before (.swap ..)

/-- No sibling comes before a node (`up`) or after it. -/
def IsOutermost (s : Store α) (n : Node α) (up : Bool) : Prop :=
  if up then (s.childIds n.parent).head? = some n.id else (s.childIds n.parent).getLast? = some n.id

/-- A node has a sibling next to it, or it is the outermost one. -/
theorem outermost_or_beside (isNode : n ∈ s.nodes) (up : Bool) : s.IsOutermost n up ∨
    ∃ m ∈ s.nodes, m.parent = n.parent ∧ ∃ before after, s.childIds n.parent = beside before after n.id m.id up := by
  obtain ⟨before, after, split⟩ := List.append_of_mem (mem_childIds.mpr ⟨n, isNode, rfl, rfl⟩)
  have isSibling : ∀ next ∈ s.childIds n.parent, ∃ m ∈ s.nodes, m.parent = n.parent ∧ m.id = next := by
    intro next listed
    obtain ⟨m, isNode', sameId, siblings⟩ := mem_childIds.mp listed
    exact ⟨m, isNode', siblings, sameId⟩
  cases up with
  | true =>
      rcases List.eq_nil_or_concat before with rfl | ⟨before, next, rfl⟩
      · exact .inl (by simp [IsOutermost, split])
      · obtain ⟨m, isNode', siblings, rfl⟩ := isSibling next (by simp [split])
        exact .inr ⟨m, isNode', siblings, before, after, by simp [split, beside]⟩
  | false =>
      cases after with
      | nil => exact .inl (by simp [IsOutermost, split])
      | cons next after =>
          obtain ⟨m, isNode', siblings, rfl⟩ := isSibling next (by simp [split])
          exact .inr ⟨m, isNode', siblings, before, after, by simp [split, beside]⟩

/-- The outermost node of its siblings has no neighbour on that side. -/
theorem neighbor?_of_outermost (distinct : s.ids.Nodup) (outermost : s.IsOutermost n up) :
    s.neighbor? n up = none := by
  have nodup := nodup_childIds distinct n.parent
  rw [← Option.map_eq_none_iff (f := Node.id), map_neighbor?]
  cases up with
  | true =>
      obtain ⟨after, split⟩ := List.head?_eq_some_iff.mp outermost
      simp [split]
  | false =>
      obtain ⟨before, split⟩ := List.getLast?_eq_some_iff.mp outermost
      rw [split] at nodup ⊢
      have notBefore : n.id ∉ before := fun listed => List.disjoint_of_nodup_append nodup listed (by simp)
      simp [List.idxOf_append_of_notMem notBefore]

/-- What exchanging a node with the sibling next to it does: nothing but exchange their layers. -/
theorem swapWithNeighbor_of_beside (plain : s.IsPlain) (distinct : s.ids.Nodup) (layered : s.Layered n.parent)
    (isNode : n ∈ s.nodes) (isNode' : m ∈ s.nodes) (siblings : m.parent = n.parent)
    (order : s.childIds n.parent = beside before after n.id m.id up) :
    swapWithNeighbor n.id up s = .ok true (s.exchange n m) := by
  have found := find?_of_mem distinct isNode
  have isNeighbor := neighbor?_of_beside distinct isNode' order
  have settled : (s.exchange n m).normalizeZ n.parent = s.exchange n m := by
    rw [exchange_eq_numberBy plain distinct layered isNode isNode' siblings order]
    exact normalizeZ_eq_self plain.numberBy ((ids_congr links_numberBy).symm ▸ distinct)
      (layered_numberBy distinct ((perm_beside_not order).trans childIds_perm))
  have ends : (swapWithNeighbor n.id up).Ends s (fun done t => done = true ∧ t = s.exchange n m)
      fun _ _ => False := by
    refine ends_swapWithNeighbor plain (fun alone => ?_) fun k l isNode isNext => ⟨rfl, ?_⟩
    · cases isNeighbor.symm.trans (alone n found)
    · obtain rfl := Option.some.inj (found.symm.trans isNode)
      obtain rfl := Option.some.inj (isNeighbor.symm.trans isNext)
      rw [← exchange_eq_modifyNode plain (ne_of_beside distinct order), settled]
  obtain ⟨_, _, ran, rfl, rfl⟩ := ends.ok
  exact ran

/-- A node that no sibling comes before or after is not exchanged. -/
theorem swapWithNeighbor_of_outermost (plain : s.IsPlain) (distinct : s.ids.Nodup) (isNode : n ∈ s.nodes)
    (outermost : s.IsOutermost n up) : swapWithNeighbor n.id up s = .ok false s := by
  have found := find?_of_mem distinct isNode
  have alone := neighbor?_of_outermost distinct outermost
  have ends : (swapWithNeighbor n.id up).Ends s (fun done t => done = false ∧ t = s) fun _ _ => False := by
    refine ends_swapWithNeighbor plain (fun _ => ⟨rfl, rfl⟩) fun k l isNode isNext => ?_
    obtain rfl := Option.some.inj (found.symm.trans isNode)
    cases alone.symm.trans isNext
  obtain ⟨_, _, ran, rfl, rfl⟩ := ends.ok
  exact ran

/-- **Exchanging neighbours is a transposition that undoes itself.** Take a store with distinct ids and one
of its nodes, where the layers of the node and its siblings are dense. Where no sibling comes before it
(`up`) or after it, nothing is changed and the answer is no. Else the answer is yes, the layers of the node
and of the sibling next to it are exchanged and nothing else is changed; the two stand the other way round
among their siblings, and the opposite exchange of the same node gives the store back. -/
theorem swapWithNeighbor_transposes (plain : s.IsPlain) (distinct : s.ids.Nodup) (layered : s.Layered n.parent)
    (isNode : n ∈ s.nodes) (up : Bool) :
    (s.IsOutermost n up → swapWithNeighbor n.id up s = .ok false s) ∧
      (¬s.IsOutermost n up → ∃ m ∈ s.nodes, ∃ before after,
        s.childIds n.parent = beside before after n.id m.id up ∧
        swapWithNeighbor n.id up s = .ok true (s.exchange n m) ∧
        (s.exchange n m).childIds n.parent = beside before after n.id m.id (!up) ∧
        swapWithNeighbor n.id (!up) (s.exchange n m) = .ok true s) := by
  refine ⟨swapWithNeighbor_of_outermost plain distinct isNode, fun inside => ?_⟩
  obtain ⟨m, isNode', siblings, before, after, order⟩ := (outermost_or_beside isNode up).resolve_left inside
  have numbered := exchange_eq_numberBy plain distinct layered isNode isNode' siblings order
  have all := perm_beside_not order
  have transposed : (s.exchange n m).childIds n.parent = beside before after n.id m.id (!up) := by
    rw [numbered, childIds_numberBy plain distinct all]
  refine ⟨m, isNode', before, after, order, ?_, transposed, ?_⟩
  · exact swapWithNeighbor_of_beside plain distinct layered isNode isNode' siblings order
  · -- The two nodes are there on each other's layers, and exchanging those again gives the store back.
    have isNode₁ : { n with z := m.z } ∈ (s.exchange n m).nodes := List.mem_map.mpr ⟨n, isNode, by simp⟩
    have isNode₂ : { m with z := n.z } ∈ (s.exchange n m).nodes :=
      List.mem_map.mpr ⟨m, isNode', by simp [ne_of_beside distinct order]⟩
    have plain' : (s.exchange n m).IsPlain := numbered ▸ plain.numberBy
    have distinct' : (s.exchange n m).ids.Nodup := numbered ▸ (ids_congr links_numberBy).symm ▸ distinct
    have layered' : (s.exchange n m).Layered n.parent :=
      numbered ▸ layered_numberBy distinct (all.trans childIds_perm)
    have back := swapWithNeighbor_of_beside (n := { n with z := m.z }) (m := { m with z := n.z }) plain' distinct'
      layered' isNode₁ isNode₂ siblings transposed
    rwa [exchange_exchange distinct isNode isNode'] at back

/-- A frame on the canvas. -/
def frameOn (id : Text) (z : Int) : Node ℚ := { Node.square .frame id root (1 / 2) 60 200 with z }

/-- Three frames on the first three layers. -/
def stacked : Store ℚ where
  canvasW := .int 980
  canvasH := .int 620
  nodes := [frameOn "b" 1, frameOn "a" 2, frameOn "c" 3]

/-- The frames of the stacked store have nothing unchecked. -/
theorem plain_stacked : stacked.IsPlain := by simp [stacked, frameOn, Node.square, IsPlain]

/-- The layers of the stacked store are dense. -/
theorem layered_stacked : stacked.Layered root := .of_eq (by decide +kernel)

/-- The frames of the stacked store in drawing order. -/
theorem childIds_stacked : stacked.childIds root = [("b" : Text), "a", "c"] := by
  rw [childIds, childrenOf_eq plain_stacked (by decide) (.refl _) (by decide +kernel)]
  rfl

/-- The second of three frames changes places with the first and then with it again. -/
theorem swapWithNeighbor_transposes_stacked :
    ∃ t, swapWithNeighbor "a" true stacked = .ok true t ∧ t.childIds root = [("a" : Text), "b", "c"] ∧
      swapWithNeighbor "a" false t = .ok true stacked := by
  have inside : ¬stacked.IsOutermost (frameOn "a" 2) true := by
    change ¬(stacked.childIds root).head? = some "a"
    rw [childIds_stacked]
    decide
  obtain ⟨m, -, before, after, order, swapped, transposed, back⟩ :=
    (swapWithNeighbor_transposes plain_stacked (by decide) layered_stacked (by simp [stacked]) true).2 inside
  refine ⟨_, swapped, ?_, back⟩
  have split : before ++ m.id :: "a" :: after = [("b" : Text), "a", "c"] := order.symm.trans childIds_stacked
  rcases before with _ | ⟨first, _ | ⟨second, rest⟩⟩
  · obtain ⟨isFirst, others⟩ := List.cons.inj split
    exact transposed.trans (by rw [isFirst, (List.cons.inj others).2]; rfl)
  · simp only [List.cons_append, List.nil_append, List.cons.injEq] at split
    exact absurd split.2.2.1 (by decide)
  · have tooLong := congrArg List.length split
    simp only [List.length_append, List.length_cons, List.length_nil] at tooLong
    omega

end Store

end LayoutDesigner
