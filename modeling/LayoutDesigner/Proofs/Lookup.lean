import LayoutDesigner.Store
import Mathlib.Data.List.Forall2
import Mathlib.Data.List.Nodup

/-!
# Looking nodes up

A store finds nodes by their ids. Where the ids are distinct, a node is found exactly under its own
id, and replacing a node is changing it in its place. `mapNodes` changes every node in its place,
and `Pointwise` says that two stores have related nodes in the same places.
-/

namespace LayoutDesigner.Store

variable {α : Type} {s t u : Store α} {id other parent : Text} {n : Node α}

/-- An id is in the store exactly where a node has it. -/
theorem mem_ids : id ∈ s.ids ↔ ∃ n ∈ s.nodes, n.id = id := List.mem_map

/-- The id of a node is in the store. -/
theorem id_mem_ids (member : n ∈ s.nodes) : n.id ∈ s.ids := List.mem_map_of_mem member

/-- Exactly an id that is not in the store is not found. -/
theorem find?_eq_none : s.find? id = none ↔ id ∉ s.ids := by
  simp [find?, ids]

/-- What is found is a node of the store. -/
theorem mem_of_find? (found : s.find? id = some n) : n ∈ s.nodes := List.mem_of_find?_eq_some found

/-- What is found has the id. -/
theorem id_of_find? (found : s.find? id = some n) : n.id = id := by
  simpa using List.find?_some found

/-- A store contains the ids of its nodes. -/
theorem contains_iff : s.contains id ↔ id ∈ s.ids := by
  rw [contains, Option.isSome_iff_ne_none, ne_eq, find?_eq_none, not_not]

/-- An id of the store is found. -/
theorem exists_find? (member : id ∈ s.ids) : ∃ n, s.find? id = some n := by
  rw [← contains_iff, contains, Option.isSome_iff_exists] at member
  exact member

/-- What is found has an id of the store. -/
theorem mem_ids_of_find? (found : s.find? id = some n) : id ∈ s.ids :=
  contains_iff.mp (by rw [contains, found]; rfl)

/-- Where ids are distinct, a node is found under its id. -/
theorem find?_of_mem (distinct : s.ids.Nodup) (member : n ∈ s.nodes) : s.find? n.id = some n := by
  obtain ⟨found, isFound⟩ := exists_find? (id_mem_ids member)
  have same : found = n :=
    List.inj_on_of_nodup_map distinct (mem_of_find? isFound) member (id_of_find? isFound)
  rw [isFound, same]

/-- In a store of distinct ids, the node with the id is found. -/
theorem find?_eq_some (distinct : s.ids.Nodup) :
    s.find? id = some n ↔ n ∈ s.nodes ∧ n.id = id := by
  constructor
  · intro found
    exact ⟨mem_of_find? found, id_of_find? found⟩
  · rintro ⟨member, rfl⟩
    exact find?_of_mem distinct member

/-- In a store of distinct ids, nodes with the same id are the same. -/
theorem eq_of_id_eq (distinct : s.ids.Nodup) {m : Node α} (left : m ∈ s.nodes) (right : n ∈ s.nodes)
    (same : m.id = n.id) : m = n := List.inj_on_of_nodup_map distinct left right same

@[simp] theorem length_ids : s.ids.length = s.size := List.length_map ..

/-- The children of a parent are the nodes under it. -/
theorem mem_children : n ∈ s.children parent ↔ n ∈ s.nodes ∧ n.parent = parent := by
  simp [children]

/-- Every node changed in its place. -/
def mapNodes (g : Node α → Node α) (s : Store α) : Store α := { s with nodes := s.nodes.map g }

section

variable {g : Node α → Node α}

/-- A change of all nodes that keeps their ids keeps the ids of the store. -/
theorem ids_mapNodes (keepsId : ∀ n, (g n).id = n.id) : (s.mapNodes g).ids = s.ids := by
  simp [ids, mapNodes, keepsId]

/-- A change of all nodes that keeps their ids changes what is found. -/
theorem find?_mapNodes (keepsId : ∀ n, (g n).id = n.id) :
    (s.mapNodes g).find? id = (s.find? id).map g := by
  have sameTest : (fun n => decide (n.id = id)) ∘ g = fun n => decide (n.id = id) := by
    funext n
    rw [Function.comp_apply, keepsId]
  rw [find?, find?, mapNodes, List.find?_map, sameTest]

/-- A change of all nodes that keeps their parents changes the children. -/
theorem children_mapNodes (keepsParent : ∀ n, (g n).parent = n.parent) :
    (s.mapNodes g).children parent = (s.children parent).map g := by
  simp [children, mapNodes, List.filter_map, Function.comp_def, keepsParent]

end

/-- A change of one node changes all nodes of its id. -/
theorem modifyNode_eq_mapNodes (f : Node α → Node α) :
    s.modifyNode id f = s.mapNodes fun n => if n.id = id then f n else n := rfl

/-- A change of one node that keeps its id keeps the ids of the store. -/
theorem ids_modifyNode {f : Node α → Node α} (keepsId : ∀ n, (f n).id = n.id) :
    (s.modifyNode id f).ids = s.ids := by
  rw [modifyNode_eq_mapNodes]
  apply ids_mapNodes
  intro n
  split <;> simp [keepsId]

/-- A change of one node that keeps its id changes what is found, if this is the node. -/
theorem find?_modifyNode {f : Node α → Node α} (keepsId : ∀ n, (f n).id = n.id) :
    (s.modifyNode id f).find? other =
      (s.find? other).map fun n => if n.id = id then f n else n := by
  rw [modifyNode_eq_mapNodes]
  apply find?_mapNodes
  intro n
  split <;> simp [keepsId]

/-- Where ids are distinct, changing the node of an id is told by what becomes of that node. -/
theorem modifyNode_congr (distinct : s.ids.Nodup) (member : n ∈ s.nodes) {f g : Node α → Node α} (same : f n = g n) :
    s.modifyNode n.id f = s.modifyNode n.id g := by
  simp only [modifyNode]
  congr 1
  refine List.map_congr_left fun m isNode => ?_
  split
  · next sameId => rw [eq_of_id_eq distinct isNode member sameId, same]
  · rfl

@[simp] theorem modifyNode_id (s : Store α) (id : Text) : s.modifyNode id (fun n => n) = s := by
  simp [modifyNode]

/-- Changing a node twice is changing it once. -/
theorem modifyNode_modifyNode {f g : Node α → Node α} (keepsId : ∀ n, (f n).id = n.id) :
    (s.modifyNode id f).modifyNode id g = s.modifyNode id fun n => g (f n) := by
  simp only [modifyNode, List.map_map]
  congr 1
  refine List.map_congr_left fun n _ => ?_
  by_cases here : n.id = id
  · simp [here, keepsId]
  · simp [here]

/-- Putting a node in the place of that of its id replaces this one alone. -/
theorem putNode_eq_map {nodes : List (Node α)} (distinct : (nodes.map Node.id).Nodup)
    (member : n.id ∈ nodes.map Node.id) :
    putNode n nodes = nodes.map fun m => if m.id = n.id then n else m := by
  induction nodes with
  | nil => simp at member
  | cons m rest ih =>
      rw [List.map_cons, List.nodup_cons] at distinct
      by_cases same : m.id = n.id
      · have others : ∀ k ∈ rest, k.id ≠ n.id := by
          intro k inRest sameId
          exact distinct.1 (same ▸ sameId ▸ List.mem_map_of_mem inRest)
        have unchanged : (rest.map fun m => if m.id = n.id then n else m) = rest := by
          rw [List.map_congr_left fun k inRest => if_neg (others k inRest)]
          exact List.map_id' rest
        simp [putNode, same, unchanged]
      · have inRest : n.id ∈ rest.map Node.id := by
          simpa [Ne.symm same] using member
        simp only [putNode, if_neg same, List.map_cons, ih distinct.2 inRest]

/-- Putting a node whose id is there changes the node of that id in its place. -/
theorem put_eq_modifyNode (distinct : s.ids.Nodup) (member : n.id ∈ s.ids) :
    s.put n = s.modifyNode n.id fun _ => n := by
  simp only [put, modifyNode, putNode_eq_map distinct member]

/-- Two stores of one surface with related nodes in the same places. -/
structure Pointwise (R : Node α → Node α → Prop) (s t : Store α) : Prop where
  width : t.canvasW = s.canvasW
  height : t.canvasH = s.canvasH
  nodes : List.Forall₂ R s.nodes t.nodes

namespace Pointwise

variable {R : Node α → Node α → Prop}

/-- Nodes are related to themselves where the relation is reflexive. -/
theorem refl (reflexive : ∀ n, R n n) (s : Store α) : Pointwise R s s :=
  ⟨rfl, rfl, List.forall₂_same.mpr fun n _ => reflexive n⟩

/-- Nodes are related over two steps where the relation is transitive. -/
theorem trans (transitive : ∀ {k m n}, R k m → R m n → R k n) (first : Pointwise R s t)
    (second : Pointwise R t u) : Pointwise R s u where
  width := second.width.trans first.width
  height := second.height.trans first.height
  nodes := by
    have both : ∀ {k m n : List (Node α)}, List.Forall₂ R k m → List.Forall₂ R m n →
        List.Forall₂ R k n := by
      intro k m n left right
      induction left generalizing n with
      | nil => exact right
      | cons related _ ih =>
          cases right with
          | cons related' rest => exact .cons (transitive related related') (ih rest)
    exact both first.nodes second.nodes

/-- Nodes are related more weakly where the relation is weaker. -/
theorem mono {Q : Node α → Node α → Prop} (weaker : ∀ m n, R m n → Q m n)
    (related : Pointwise R s t) : Pointwise Q s t :=
  ⟨related.width, related.height, related.nodes.imp weaker⟩

/-- What is told of related nodes is told of the stores, node for node. -/
theorem map_eq {β : Type} {f g : Node α → β} (common : ∀ m n, R m n → g n = f m)
    (related : Pointwise R s t) : t.nodes.map g = s.nodes.map f := by
  have nodes := related.nodes
  generalize s.nodes = before, t.nodes = after at nodes ⊢
  induction nodes with
  | nil => rfl
  | cons head _ ih => rw [List.map_cons, List.map_cons, common _ _ head, ih]

/-- A relation that keeps ids keeps those of the store. -/
theorem ids (keepsId : ∀ m n, R m n → n.id = m.id) (related : Pointwise R s t) : t.ids = s.ids :=
  related.map_eq keepsId

/-- The nodes of one id are related. -/
theorem find? (keepsId : ∀ m n, R m n → n.id = m.id) (related : Pointwise R s t) (id : Text) :
    Option.Rel R (s.find? id) (t.find? id) := by
  have nodes := related.nodes
  simp only [Store.find?]
  generalize s.nodes = before, t.nodes = after at nodes ⊢
  induction nodes with
  | nil => exact .none
  | @cons m n _ _ head _ ih =>
      by_cases here : m.id = id
      · have there : n.id = id := (keepsId m n head).trans here
        simp only [List.find?_cons_of_pos, here, there, decide_true]
        exact .some head
      · have there : ¬n.id = id := by rwa [keepsId m n head]
        simpa only [List.find?_cons_of_neg, here, there, decide_false, Bool.false_eq_true,
          not_false_eq_true] using ih

/-- What is told of related nodes is told of the nodes of one id. -/
theorem map_find? {β : Type} {f g : Node α → β} (keepsId : ∀ m n, R m n → n.id = m.id)
    (common : ∀ m n, R m n → g n = f m) (related : Pointwise R s t) (id : Text) :
    (t.find? id).map g = (s.find? id).map f := by
  have step := related.find? keepsId id
  generalize s.find? id = m?, t.find? id = n? at step ⊢
  cases step with
  | none => rfl
  | some step => rw [Option.map_some, Option.map_some, common _ _ step]

/-- Nodes that are found under the same id are related. -/
theorem of_find? {m : Node α} (keepsId : ∀ m n, R m n → n.id = m.id) (related : Pointwise R s t)
    (found : s.find? id = some n) (found' : t.find? id = some m) : R n m := by
  have step := related.find? keepsId id
  rw [found, found'] at step
  cases step with
  | some step => exact step

/-- Related nodes are nodes of the two stores. -/
theorem with_mem (related : Pointwise R s t) : Pointwise (fun n m => R n m ∧ n ∈ s.nodes ∧ m ∈ t.nodes) s t where
  width := related.width
  height := related.height
  nodes := by
    have nodes := related.nodes
    generalize s.nodes = before, t.nodes = after at nodes ⊢
    induction nodes with
    | nil => exact .nil
    | cons head _ ih =>
        refine .cons ⟨head, List.mem_cons_self, List.mem_cons_self⟩ (ih.imp fun _ _ step => ?_)
        exact ⟨step.1, List.mem_cons_of_mem _ step.2.1, List.mem_cons_of_mem _ step.2.2⟩

/-- Every node comes from a related one. -/
theorem exists_left (related : Pointwise R s t) (member : n ∈ t.nodes) : ∃ m ∈ s.nodes, R m n := by
  have nodes := related.nodes
  generalize s.nodes = before, t.nodes = after at nodes member ⊢
  induction nodes with
  | nil => simp at member
  | cons head _ ih =>
      rcases List.mem_cons.mp member with rfl | inRest
      · exact ⟨_, List.mem_cons_self, head⟩
      · obtain ⟨m, inLeft, related⟩ := ih inRest
        exact ⟨m, List.mem_cons_of_mem _ inLeft, related⟩

/-- Every node becomes a related one. -/
theorem exists_right (related : Pointwise R s t) (member : n ∈ s.nodes) : ∃ m ∈ t.nodes, R n m :=
  exists_left (R := fun n m => R m n) ⟨related.width.symm, related.height.symm, related.nodes.flip⟩ member

/-- Replacing one node by a related one relates the stores. -/
theorem put (reflexive : ∀ n, R n n) {m : Node α} (found : s.find? n.id = some m)
    (related : R m n) : Pointwise R s (s.put n) where
  width := rfl
  height := rfl
  nodes := by
    have replaced : ∀ {nodes : List (Node α)}, nodes.find? (fun k => k.id = n.id) = some m →
        List.Forall₂ R nodes (putNode n nodes) := by
      intro nodes found
      induction nodes with
      | nil => simp at found
      | cons k rest ih =>
          by_cases here : k.id = n.id
          · have same : k = m := by simpa [here] using found
            simp only [putNode, if_pos here]
            exact .cons (same ▸ related) (List.forall₂_same.mpr fun k _ => reflexive k)
          · simp only [putNode, if_neg here]
            exact .cons (reflexive k) (ih (by simpa [here] using found))
    exact replaced found

/-- A change of all nodes relates each of them to what it makes of it. -/
theorem mapNodes {g : Node α → Node α} (changed : ∀ n, R n (g n)) (s : Store α) :
    Pointwise R s (s.mapNodes g) :=
  ⟨rfl, rfl, List.forall₂_map_right_iff.mpr (List.forall₂_same.mpr fun n _ => changed n)⟩

/-- A change of one node relates this one to what it makes of it, and any other one to itself. -/
theorem modifyNode (reflexive : ∀ n, R n n) {f : Node α → Node α} (changed : ∀ n, R n (f n))
    (s : Store α) (id : Text) : Pointwise R s (s.modifyNode id f) := by
  rw [modifyNode_eq_mapNodes]
  refine mapNodes (fun n => ?_) s
  split
  · exact changed n
  · exact reflexive n

end Pointwise

/-- Putting a node in the place of another one changes what is found under its id. -/
theorem find?_put {m : Node α} (found : s.find? m.id = some n) (other : Text) :
    (s.put m).find? other = if other = m.id then some m else s.find? other := by
  have replaced : ∀ {nodes : List (Node α)}, nodes.find? (fun k => k.id = m.id) = some n →
      (putNode m nodes).find? (fun k => k.id = other) =
        if other = m.id then some m else nodes.find? fun k => k.id = other := by
    intro nodes found
    induction nodes with
    | nil => simp at found
    | cons k rest ih =>
        by_cases here : k.id = m.id
        · rw [putNode, if_pos here]
          by_cases same : other = m.id
          · simp [same]
          · simp [Ne.symm same, here, same]
        · have inRest : rest.find? (fun k => k.id = m.id) = some n := by simpa [here] using found
          rw [putNode, if_neg here, List.find?_cons, List.find?_cons, ih inRest]
          by_cases same : other = m.id
          · simp [same, here]
          · simp [same]
  exact replaced found

/-- Putting back a node that is there changes nothing. -/
theorem put_self (found : s.find? n.id = some n) : s.put n = s := by
  have same := (Pointwise.put (R := Eq) (fun _ => rfl) found rfl).nodes
  rw [List.forall₂_eq_eq_eq] at same
  simp only [put] at same ⊢
  rw [← same]

/-- Every node has a property. -/
def All (P : Node α → Prop) (s : Store α) : Prop := ∀ n ∈ s.nodes, P n

namespace All

variable {P : Node α → Prop}

/-- What a change of all nodes keeps holds of all nodes after it. -/
theorem mapNodes {g : Node α → Node α} (all : s.All P) (keeps : ∀ n, P n → P (g n)) :
    (s.mapNodes g).All P := by
  intro n member
  obtain ⟨m, isNode, rfl⟩ := List.mem_map.mp member
  exact keeps m (all m isNode)

/-- What a change makes of the one node holds of all nodes after it. -/
theorem modifyAt {f : Node α → Node α} (all : s.All P) (id : Text)
    (changed : ∀ n ∈ s.nodes, n.id = id → P (f n)) : (s.modifyNode id f).All P := by
  rw [modifyNode_eq_mapNodes]
  intro k member
  obtain ⟨n, isNode, rfl⟩ := List.mem_map.mp member
  split
  · next here => exact changed n isNode here
  · exact all n isNode

/-- What a change of one node keeps holds of all nodes after it. -/
theorem modifyNode {f : Node α → Node α} (all : s.All P) (id : Text) (keeps : ∀ n, P n → P (f n)) :
    (s.modifyNode id f).All P :=
  all.modifyAt id fun n isNode _ => keeps n (all n isNode)

/-- What holds of all nodes and of one that is put back holds of all nodes after it. -/
theorem put (all : s.All P) (holds : P n) : (s.put n).All P := by
  have either : ∀ {nodes : List (Node α)} {k}, k ∈ putNode n nodes → k = n ∨ k ∈ nodes := by
    intro nodes
    induction nodes with
    | nil => intro k member; exact .inl (List.mem_singleton.mp member)
    | cons m rest ih =>
        intro k member
        rw [putNode] at member
        split at member
        · exact (List.mem_cons.mp member).imp_right (List.mem_cons_of_mem _)
        · rcases List.mem_cons.mp member with rfl | inRest
          · exact .inr List.mem_cons_self
          · exact (ih inRest).imp_right (List.mem_cons_of_mem _)
  intro k member
  rcases either member with rfl | isOld
  · exact holds
  · exact all k isOld

/-- What holds of all nodes and of one that is added holds of all nodes after it. -/
theorem add (all : s.All P) (holds : P n) : All P { s with nodes := s.nodes ++ [n] } := by
  intro k member
  rcases List.mem_append.mp member with isOld | isNew
  · exact all k isOld
  · rwa [List.mem_singleton.mp isNew]

/-- What holds of all nodes holds of those that are left. -/
theorem removeAll (all : s.All P) (ids : List Text) : (s.removeAll ids).All P :=
  fun n member => all n (List.mem_filter.mp member).1

/-- What a relation keeps holds of all nodes after a step of it. -/
theorem pointwise {R : Node α → Node α → Prop} (all : s.All P) (related : Pointwise R s t)
    (keeps : ∀ m n, R m n → P m → P n) : t.All P := by
  intro n member
  obtain ⟨m, isNode, step⟩ := related.exists_left member
  exact keeps m n step (all m isNode)

end All

end LayoutDesigner.Store
