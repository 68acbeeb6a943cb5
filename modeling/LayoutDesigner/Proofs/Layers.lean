import LayoutDesigner.Proofs.Forest
import LayoutDesigner.Proofs.Sorting
import Mathlib.Data.List.Basic
import Mathlib.Data.List.Lex

/-!
# The layers of siblings

Siblings are drawn by layer and then by id. Renumbering the children of one parent in any order of
theirs leaves exactly the layers 1, 2, …, N there and no other parent's children changed, and a new
child above the others continues the numbering. All of this is about nodes whose attributes were
read as what they should be.
-/

namespace LayoutDesigner

variable {α : Type}

/-- A text is not after another one exactly where it is less or equal. -/
theorem Text.not_before {a b : Text} : (!b.before a) = true ↔ a ≤ b := by
  simp [Text.before]

namespace Node

variable {a b c : Node α}

/-- What is forgotten of a plain node leaves it plain. -/
theorem without_plain {n : Node α} (plain : n.unchecked = []) (a : Attribute) :
    (n.checked a).unchecked = [] := by
  simp [checked, Unchecked.without, plain]

/-- A node is drawn before one on a higher layer, and on the same layer the ids decide. -/
theorem drawnBefore_iff : a.drawnBefore b ↔ a.z < b.z ∨ a.z = b.z ∧ a.id ≤ b.id := by
  simp only [drawnBefore, Bool.or_eq_true, Bool.and_eq_true, decide_eq_true_eq, beq_iff_eq,
    Text.not_before]

/-- Of two nodes one is drawn before the other, or both are. -/
theorem drawnBefore_total (a b : Node α) : (a.drawnBefore b || b.drawnBefore a) = true := by
  rw [Bool.or_eq_true, drawnBefore_iff, drawnBefore_iff]
  rcases lt_trichotomy a.z b.z with lower | same | higher
  · exact .inl (.inl lower)
  · exact (le_total a.id b.id).imp (fun le => .inr ⟨same, le⟩) fun le => .inr ⟨same.symm, le⟩
  · exact .inr (.inl higher)

/-- The drawing order is transitive. -/
theorem drawnBefore_trans (a b c : Node α) (first : a.drawnBefore b) (second : b.drawnBefore c) :
    a.drawnBefore c := by
  rw [drawnBefore_iff] at *
  rcases first with lower | ⟨same, le⟩
  · rcases second with lower' | ⟨same', -⟩
    · exact .inl (lower.trans lower')
    · exact .inl (same' ▸ lower)
  · rcases second with lower' | ⟨same', le'⟩
    · exact .inl (same ▸ lower')
    · exact .inr ⟨same.trans same', le.trans le'⟩

/-- Nodes that are drawn before each other have the same id. -/
theorem drawnBefore_antisymm (left : a.drawnBefore b) (right : b.drawnBefore a) : a.id = b.id := by
  rw [drawnBefore_iff] at left right
  rcases left with lower | ⟨same, le⟩
  · rcases right with lower' | ⟨same, -⟩ <;> omega
  · rcases right with lower' | ⟨-, le'⟩
    · omega
    · exact le_antisymm le le'

end Node

namespace Store

variable {s t u : Store α} {id parent other : Text} {n : Node α}

/-- No attribute of a node was put in unchecked. -/
def IsPlain (s : Store α) : Prop := ∀ n ∈ s.nodes, n.unchecked = []

instance : Decidable s.IsPlain := inferInstanceAs (Decidable (∀ n ∈ s.nodes, n.unchecked = []))

/-- The children in a plain store are plain. -/
theorem IsPlain.children (plain : s.IsPlain) : ∀ n ∈ s.children parent, n.unchecked = [] :=
  fun n member => plain n (mem_children.mp member).1

/-- A change of plain nodes that keeps them plain keeps the store plain. -/
theorem IsPlain.pointwise {R : Node α → Node α → Prop} (plain : s.IsPlain)
    (related : Pointwise R s t) (keeps : ∀ m n, R m n → m.unchecked = [] → n.unchecked = []) :
    t.IsPlain :=
  All.pointwise plain related keeps

/-- A change of one plain node that keeps it plain keeps the store plain. -/
theorem IsPlain.modifyNode {f : Node α → Node α} (plain : s.IsPlain) (id : Text)
    (changed : ∀ n, n.unchecked = [] → (f n).unchecked = []) : (s.modifyNode id f).IsPlain :=
  All.modifyNode plain id changed

section

variable [Arith α]

/-- Nodes with layers and ids that have an order are put into it. -/
theorem inDrawingOrder_ordered {nodes : List (Node α)} (ordered : ∀ n ∈ nodes, n.isOrdered) :
    inDrawingOrder nodes = .ok (nodes.mergeSort Node.drawnBefore) := by
  rw [inDrawingOrder, if_pos (List.all_eq_true.mpr ordered)]

/-- Plain nodes are sorted without fail. -/
theorem inDrawingOrder_plain {nodes : List (Node α)} (plain : ∀ n ∈ nodes, n.unchecked = []) :
    inDrawingOrder nodes = .ok (nodes.mergeSort Node.drawnBefore) :=
  inDrawingOrder_ordered fun n member => by simp [Node.isOrdered, plain n member, Unchecked.value?]

/-- The siblings in a plain store are sorted in drawing order. -/
theorem childrenOf_plain (plain : s.IsPlain) :
    s.childrenOf parent = (s.children parent).mergeSort Node.drawnBefore := by
  rw [childrenOf, inDrawingOrder_plain plain.children]

/-- Drawing order only reorders. -/
theorem childrenOf_perm : (s.childrenOf parent).Perm (s.children parent) := by
  rw [childrenOf]
  split
  · next nodes sorted =>
      rw [inDrawingOrder] at sorted
      split at sorted
      · exact Except.ok.inj sorted ▸ List.mergeSort_perm ..
      · exact Sorting.sort_perm sorted
  · exact .refl _

/-- The siblings in a plain store are in drawing order. -/
theorem childrenOf_sorted (plain : s.IsPlain) (parent : Text) :
    (s.childrenOf parent).Pairwise fun a b => a.drawnBefore b := by
  rw [childrenOf_plain plain]
  exact List.pairwise_mergeSort Node.drawnBefore_trans Node.drawnBefore_total _

/-- The siblings are the nodes under the parent. -/
theorem mem_childrenOf :
    n ∈ s.childrenOf parent ↔ n ∈ s.nodes ∧ n.parent = parent := by
  rw [childrenOf_perm.mem_iff, mem_children]

/-- The ids of siblings in drawing order are those in store order, sorted. -/
theorem childIds_perm : (s.childIds parent).Perm ((s.children parent).map Node.id) :=
  childrenOf_perm.map _

/-- The ids of siblings are those of the nodes under the parent. -/
theorem mem_childIds :
    id ∈ s.childIds parent ↔ ∃ n ∈ s.nodes, n.id = id ∧ n.parent = parent := by
  simp only [childIds, List.mem_map, mem_childrenOf]
  constructor
  · rintro ⟨n, ⟨member, isChild⟩, same⟩
    exact ⟨n, member, same, isChild⟩
  · rintro ⟨n, member, same, isChild⟩
    exact ⟨n, ⟨member, isChild⟩, same⟩

/-- Where ids are distinct, the children of a parent are the nodes that name it. -/
theorem id_mem_childIds (distinct : s.ids.Nodup) (isNode : n ∈ s.nodes) :
    n.id ∈ s.childIds parent ↔ n.parent = parent := by
  rw [mem_childIds]
  constructor
  · rintro ⟨k, isNode', same, isChild⟩
    rwa [← eq_of_id_eq distinct isNode' isNode same]
  · exact fun isChild => ⟨n, isNode, rfl, isChild⟩

/-- What is drawn first is listed first. -/
theorem idxOf_childIds_le {a b : Node α} (plain : s.IsPlain) (distinct : s.ids.Nodup)
    (left : a ∈ s.childrenOf parent) (right : b ∈ s.childrenOf parent) (first : a.drawnBefore b) :
    (s.childIds parent).idxOf a.id ≤ (s.childIds parent).idxOf b.id := by
  have sorted := List.pairwise_iff_getElem.mp (childrenOf_sorted plain parent)
  have childDistinct : (s.childIds parent).Nodup :=
    childIds_perm.nodup_iff.mpr (distinct.sublist (List.filter_sublist.map _))
  obtain ⟨i, iBound, isLeft⟩ := List.getElem_of_mem left
  obtain ⟨j, jBound, isRight⟩ := List.getElem_of_mem right
  have atI : (s.childIds parent).idxOf a.id = i := by
    rw [← isLeft, ← List.getElem_map Node.id (h := by simpa using iBound)]
    exact childDistinct.idxOf_getElem i _
  have atJ : (s.childIds parent).idxOf b.id = j := by
    rw [← isRight, ← List.getElem_map Node.id (h := by simpa using jBound)]
    exact childDistinct.idxOf_getElem j _
  by_contra later
  have before : b.drawnBefore a := by
    have order := sorted j i jBound iBound (by omega)
    rwa [isLeft, isRight] at order
  have same := Node.drawnBefore_antisymm first before
  rw [same] at later
  exact later le_rfl

/-- In a plain store all layers of siblings can be compared. -/
theorem checkLayers_plain (plain : s.IsPlain) : s.checkLayers parent = .ok () := by
  rw [checkLayers, inDrawingOrder_plain plain.children]
  rfl

/-- A check that passes for every item passes for the list. -/
theorem forM_ok {β : Type} {items : List β} {check : β → Except Fault Unit}
    (passes : ∀ item ∈ items, check item = .ok ()) : items.forM check = .ok () := by
  induction items with
  | nil => rfl
  | cons item rest ih =>
      change (do check item; rest.forM check) = .ok ()
      rw [passes item List.mem_cons_self]
      exact ih fun other inRest => passes other (List.mem_cons_of_mem _ inRest)

/-- In a plain store all layers can be compared. -/
theorem checkAllLayers_plain (plain : s.IsPlain) : s.checkAllLayers = .ok () := by
  have named : s.nodes.forM (fun n => do let _ ← (n.written .parent).asId) = .ok () := by
    refine forM_ok fun n member => ?_
    simp only [Node.written, plain n member]
    rfl
  rw [checkAllLayers, named]
  exact forM_ok fun parent _ => checkLayers_plain plain

end

/-- The first `count` layers. -/
def firstLayers (count : Nat) : List Int := (List.range count).map fun (i : Nat) => (i : Int) + 1

/-- The layers of the children of a parent are exactly 1, 2, …, N. -/
def Layered (s : Store α) (parent : Text) : Prop :=
  ((s.children parent).map Node.z).Perm (firstLayers (s.children parent).length)

/-- Siblings are layered by their layers alone. -/
theorem Layered.congr (layered : s.Layered parent)
    (same : (t.children parent).map Node.z = (s.children parent).map Node.z) :
    t.Layered parent := by
  have length : (t.children parent).length = (s.children parent).length := by
    simpa using congrArg List.length same
  rw [Layered, same, length]
  exact layered

/-- Where related nodes have one parent, what those below it have in common is the same of all of
its children. -/
theorem Pointwise.map_children {R : Node α → Node α → Prop} {β : Type} {f : Node α → β}
    (related : Pointwise R s t) (sameParent : ∀ n m, R n m → m.parent = n.parent)
    (common : ∀ n ∈ s.nodes, ∀ m, R n m → n.parent = parent → f m = f n) :
    (t.children parent).map f = (s.children parent).map f := by
  have nodes := related.nodes
  simp only [children]
  generalize s.nodes = before, t.nodes = after at nodes common ⊢
  induction nodes with
  | nil => rfl
  | @cons n m _ _ step _ ih =>
      have rest := ih fun k inRest => common k (List.mem_cons_of_mem _ inRest)
      simp only [List.filter_cons, sameParent n m step]
      split
      · next isChild =>
          rw [decide_eq_true_eq] at isChild
          rw [List.map_cons, List.map_cons, common n List.mem_cons_self m step isChild, rest]
      · exact rest

/-- Where related nodes have one parent, layer and id, children are in one drawing order. -/
theorem Pointwise.childIds [Arith α] {R : Node α → Node α → Prop} (related : Pointwise R s t) (plain : s.IsPlain)
    (plain' : t.IsPlain) (sameParent : ∀ n m, R n m → m.parent = n.parent) (sameLayer : ∀ n m, R n m → m.z = n.z)
    (sameId : ∀ n m, R n m → m.id = n.id) : t.childIds parent = s.childIds parent := by
  let key (n : Node α) : Int × Text := (n.z, n.id)
  let isBefore (a b : Int × Text) : Bool := a.1 < b.1 || (a.1 == b.1 && !b.2.before a.2)
  have keys : (t.children parent).map key = (s.children parent).map key :=
    related.map_children sameParent fun n _ m step _ => by
      simp only [key, sameLayer n m step, sameId n m step]
  have sorted : ∀ nodes : List (Node α),
      (nodes.mergeSort Node.drawnBefore).map key = (nodes.map key).mergeSort isBefore :=
    fun _ => List.map_mergeSort fun _ _ _ _ => rfl
  have ordered : (t.childrenOf parent).map key = (s.childrenOf parent).map key := by
    rw [childrenOf_plain plain', childrenOf_plain plain, sorted, sorted, keys]
  have ids := congrArg (List.map Prod.snd) ordered
  rwa [List.map_map, List.map_map] at ids

/-- Where there are no siblings, they are layered. -/
theorem Layered.of_no_children (none : s.children parent = []) : s.Layered parent := by
  rw [Layered, none]
  exact .nil

/-- The place of each item of a list without repetitions. -/
theorem map_idxOf {items : List Text} (distinct : items.Nodup) :
    items.map (fun id => (items.idxOf id : Int) + 1) = firstLayers items.length := by
  apply List.ext_getElem
  · simp [firstLayers]
  · intro i _ _
    simp [firstLayers, distinct.idxOf_getElem]

/-- Siblings that come one after the other still do so. -/
def SameOrder (s t : Store α) : Prop :=
  ∀ n ∈ s.nodes, ∀ m ∈ s.nodes, n.parent = m.parent → n.drawnBefore m →
    ∀ n' ∈ t.nodes, ∀ m' ∈ t.nodes, n'.id = n.id → m'.id = m.id → n'.drawnBefore m'

/-- A store has the same order of siblings as itself. -/
theorem SameOrder.refl (distinct : s.ids.Nodup) : SameOrder s s := by
  intro n left m right _ first n' left' m' right' sameLeft sameRight
  rwa [eq_of_id_eq distinct left' left sameLeft, eq_of_id_eq distinct right' right sameRight]

/-- Two changes that keep the order of siblings keep it together. -/
theorem SameOrder.trans (links : t.links = s.links) (first : SameOrder s t) (second : SameOrder t u) :
    SameOrder s u := by
  intro n left m right siblings before n' left' m' right' sameLeft sameRight
  obtain ⟨k, inLeft, leftLink⟩ := exists_link links.symm left
  obtain ⟨l, inRight, rightLink⟩ := exists_link links.symm right
  have leftId : k.id = n.id := congrArg Link.id leftLink
  have rightId : l.id = m.id := congrArg Link.id rightLink
  have leftParent : k.parent = n.parent := congrArg Link.parent leftLink
  have rightParent : l.parent = m.parent := congrArg Link.parent rightLink
  exact second k inLeft l inRight (leftParent.trans (siblings.trans rightParent.symm))
    (first n left m right siblings before k inLeft l inRight leftId rightId)
    n' left' m' right' (sameLeft.trans leftId.symm) (sameRight.trans rightId.symm)

section

variable {order : List Text}

/-- Numbering gives each listed node its place for a layer. -/
theorem numberBy_eq_mapNodes : s.numberBy order = s.mapNodes fun n =>
    if order.elem n.id then n.setZ ((order.idxOf n.id : Int) + 1) else n := rfl

/-- Numbering keeps all links. -/
theorem links_numberBy : (s.numberBy order).links = s.links := by
  simp only [links, numberBy, List.map_map]
  refine List.map_congr_left fun n _ => ?_
  simp only [Function.comp_apply]
  split <;> rfl

/-- What putting nodes on layers from the first on keeps, renumbering keeps. -/
theorem All.numberBy_of_one_le {P : Node α → Prop} (all : s.All P)
    (keeps : ∀ n z, 1 ≤ z → P n → P (n.setZ z)) : (s.numberBy order).All P := by
  rw [numberBy_eq_mapNodes]
  refine all.mapNodes fun n holds => ?_
  split
  · exact keeps n _ (by omega) holds
  · exact holds

/-- What new layers keep is kept by numbering. -/
theorem All.numberBy {P : Node α → Prop} (all : s.All P) (keeps : ∀ n z, P n → P (n.setZ z)) :
    (s.numberBy order).All P :=
  all.numberBy_of_one_le fun n z _ => keeps n z

/-- A plain store stays plain when it is numbered. -/
theorem IsPlain.numberBy (plain : s.IsPlain) : (s.numberBy order).IsPlain :=
  All.numberBy plain fun _ _ plain => Node.without_plain plain .zIndex

/-- The children of a numbered store are the old ones with their new layers. -/
theorem children_numberBy : (s.numberBy order).children parent =
    (s.children parent).map fun n =>
      if order.elem n.id then n.setZ ((order.idxOf n.id : Int) + 1) else n := by
  rw [numberBy_eq_mapNodes]
  refine children_mapNodes fun n => ?_
  split <;> rfl

/-- Numbering the children of a parent in any order of theirs makes their layers dense. -/
theorem layered_numberBy (distinct : s.ids.Nodup)
    (all : order.Perm ((s.children parent).map Node.id)) : (s.numberBy order).Layered parent := by
  have orderDistinct : order.Nodup :=
    all.nodup_iff.mpr (distinct.sublist (List.filter_sublist.map _))
  have layers : ((s.numberBy order).children parent).map Node.z =
      ((s.children parent).map Node.id).map fun id => (order.idxOf id : Int) + 1 := by
    rw [children_numberBy, List.map_map, List.map_map]
    refine List.map_congr_left fun n member => ?_
    have listed : order.elem n.id := List.elem_iff.mpr (all.mem_iff.mpr (List.mem_map_of_mem member))
    simp only [Function.comp_apply, listed, if_true]
    rfl
  have length : ((s.numberBy order).children parent).length = order.length := by
    rw [children_numberBy, List.length_map, all.length_eq, List.length_map]
  rw [Layered, layers, length, ← map_idxOf orderDistinct]
  exact (all.symm.map _)

/-- Numbering children of one parent leaves the children of every other one as they are. -/
theorem children_numberBy_other (distinct : s.ids.Nodup)
    (all : ∀ id ∈ order, id ∈ (s.children parent).map Node.id) (differs : other ≠ parent) :
    (s.numberBy order).children other = s.children other := by
  rw [children_numberBy]
  conv_rhs => rw [← List.map_id (s.children other)]
  refine List.map_congr_left fun n member => ?_
  refine if_neg fun listed => differs ?_
  obtain ⟨m, isChild, sameId⟩ := List.mem_map.mp (all n.id (List.elem_iff.mp listed))
  rw [mem_children] at isChild member
  have same := eq_of_id_eq distinct isChild.1 member.1 sameId
  rw [← member.2, ← isChild.2, same]

variable [Arith α]

/-- Renumbering siblings keeps all links. -/
theorem links_normalizeZ : (s.normalizeZ parent).links = s.links := links_numberBy

/-- A plain store stays plain when siblings are renumbered. -/
theorem IsPlain.normalizeZ (plain : s.IsPlain) : (s.normalizeZ parent).IsPlain := plain.numberBy

/-- Siblings that were renumbered are layered. -/
theorem layered_normalizeZ (distinct : s.ids.Nodup) :
    (s.normalizeZ parent).Layered parent := layered_numberBy distinct childIds_perm

/-- Renumbering siblings leaves all others as they were. -/
theorem children_normalizeZ_other (distinct : s.ids.Nodup)
    (differs : other ≠ parent) : (s.normalizeZ parent).children other = s.children other :=
  children_numberBy_other distinct (fun _ => childIds_perm.mem_iff.mp) differs

/-- Renumbering the children of one parent spoils the layers of none. -/
theorem Layered.normalizeZ (distinct : s.ids.Nodup)
    (layered : s.Layered other) : (s.normalizeZ parent).Layered other := by
  by_cases same : other = parent
  · exact same ▸ layered_normalizeZ distinct
  · exact layered.congr (by rw [children_normalizeZ_other distinct same])

/-- Renumbering keeps the order. -/
theorem sameOrder_normalizeZ (plain : s.IsPlain) (distinct : s.ids.Nodup) :
    SameOrder s (s.normalizeZ parent) := by
  have renumbered : ∀ {k n : Node α}, n ∈ s.nodes → k ∈ (s.normalizeZ parent).nodes → k.id = n.id →
      k = if (s.childIds parent).elem n.id then n.setZ (((s.childIds parent).idxOf n.id : Int) + 1)
        else n := by
    intro k n member member' same
    obtain ⟨l, isNode, rfl⟩ := List.mem_map.mp member'
    have sameId : l.id = n.id := by
      split at same <;> exact same
    rw [eq_of_id_eq distinct isNode member sameId]
  have listed : ∀ {n : Node α}, n ∈ s.nodes → ((s.childIds parent).elem n.id ↔ n.parent = parent) := fun member =>
    List.elem_iff.trans (id_mem_childIds distinct member)
  intro n left m right siblings first n' left' m' right' sameLeft sameRight
  rw [renumbered left left' sameLeft, renumbered right right' sameRight]
  by_cases isChild : n.parent = parent
  · have isChild' : m.parent = parent := siblings ▸ isChild
    rw [if_pos ((listed left).mpr isChild), if_pos ((listed right).mpr isChild')]
    have places := idxOf_childIds_le plain distinct (mem_childrenOf.mpr ⟨left, isChild⟩)
      (mem_childrenOf.mpr ⟨right, isChild'⟩) first
    rw [Node.drawnBefore_iff]
    rcases Nat.lt_or_eq_of_le places with lower | same
    · left
      simp only [Node.setZ]
      omega
    · right
      refine ⟨by simp only [Node.setZ, same], ?_⟩
      exact ((List.idxOf_inj ((id_mem_childIds distinct left).mpr isChild)).mp same).le
  · have isChild' : ¬m.parent = parent := siblings ▸ isChild
    rw [if_neg (mt (listed left).mp isChild), if_neg (mt (listed right).mp isChild')]
    exact first

end

section

/-- Of plain nodes the one with the lesser layer is lower. -/
theorem Node.isLower_plain [Arith α] {a b : Node α} (left : a.unchecked = [])
    (right : b.unchecked = []) : a.isLower b = decide (a.z < b.z) := by
  simp [Node.isLower, left, right, Unchecked.value?]

variable [Arith α]

/-- The top of plain nodes is one of them, and none is higher. -/
theorem foldl_top {first : Node α} {rest : List (Node α)} (plain : ∀ n ∈ first :: rest, n.unchecked = []) :
    let top := rest.foldl (fun top n => if top.isLower n then n else top) first
    top ∈ first :: rest ∧ ∀ n ∈ first :: rest, n.z ≤ top.z := by
  induction rest generalizing first with
  | nil => simp
  | cons next rest ih =>
      have lower : first.isLower next = decide (first.z < next.z) :=
        Node.isLower_plain (plain _ (by simp)) (plain _ (by simp))
      simp only [List.foldl_cons, lower, decide_eq_true_eq]
      split
      · next below =>
          obtain ⟨member, greatest⟩ := @ih next fun n isNode => plain n (List.mem_cons_of_mem _ isNode)
          refine ⟨List.mem_cons_of_mem _ member, ?_⟩
          intro n isNode
          rcases List.mem_cons.mp isNode with rfl | inRest
          · exact below.le.trans (greatest next List.mem_cons_self)
          · exact greatest n inRest
      · next above =>
          obtain ⟨member, greatest⟩ := @ih first fun n isNode => by
            rcases List.mem_cons.mp isNode with rfl | inRest
            · exact plain _ List.mem_cons_self
            · exact plain n (List.mem_cons_of_mem _ (List.mem_cons_of_mem _ inRest))
          constructor
          · rcases List.mem_cons.mp member with isFirst | inRest
            · rw [isFirst]
              exact List.mem_cons_self
            · exact List.mem_cons_of_mem _ (List.mem_cons_of_mem _ inRest)
          · intro n isNode
            rcases List.mem_cons.mp isNode with rfl | inRest
            · exact greatest _ List.mem_cons_self
            · rcases List.mem_cons.mp inRest with rfl | inRest
              · exact (not_lt.mp above).trans (greatest first List.mem_cons_self)
              · exact greatest n (List.mem_cons_of_mem _ inRest)

/-- Where no layer is below the first, the next one is not either. -/
theorem one_le_nextZ (plain : s.IsPlain) (layers : ∀ n ∈ s.nodes, 1 ≤ n.z) (parent : Text) :
    1 ≤ s.nextZ parent := by
  have children : ∀ n ∈ s.children parent, n.unchecked = [] ∧ 1 ≤ n.z := fun n child =>
    ⟨plain n (mem_children.mp child).1, layers n (mem_children.mp child).1⟩
  rw [nextZ, topmost?]
  cases same : s.children parent with
  | nil => exact le_rfl
  | cons first rest =>
      rw [same] at children
      have above := (children _ (foldl_top fun n child => (children n child).1).1).2
      exact above.trans (Int.le_add_one le_rfl)

/-- Above dense layers comes the next one. -/
theorem nextZ_of_layered (plain : s.IsPlain) (layered : s.Layered parent) :
    s.nextZ parent = (s.children parent).length + 1 := by
  rw [nextZ, topmost?]
  have plainChildren : ∀ n ∈ s.children parent, n.unchecked = [] := plain.children
  rw [Layered] at layered
  cases same : s.children parent with
  | nil => rfl
  | cons first rest =>
      rw [same] at layered plainChildren
      obtain ⟨member, greatest⟩ := foldl_top plainChildren
      change (rest.foldl (fun top n => if top.isLower n then n else top) first).z + 1 = _
      generalize rest.foldl (fun top n => if top.isLower n then n else top) first = top
        at member greatest ⊢
      have bounded : top.z ≤ (first :: rest).length := by
        have listed := layered.mem_iff.mp (List.mem_map_of_mem (f := Node.z) member)
        obtain ⟨i, inRange, isLayer⟩ := List.mem_map.mp listed
        have below := List.mem_range.mp inRange
        omega
      have reached : ((first :: rest).length : Int) ≤ top.z := by
        have isLayer : ((first :: rest).length : Int) ∈ firstLayers (first :: rest).length := by
          exact List.mem_map.mpr ⟨rest.length, List.mem_range.mpr (by simp), by simp⟩
        obtain ⟨n, isNode, isTop⟩ := List.mem_map.mp (layered.mem_iff.mpr isLayer)
        exact isTop ▸ greatest n isNode
      omega

/-- In a plain store a node comes on top on the next layer. -/
theorem onTop_plain (plain : s.IsPlain) (parent : Text) (n : Node α) :
    s.onTop parent n = .ok (n.setZ (s.nextZ parent)) := by
  have none : (s.topmost? parent).bind (fun top => top.unchecked.value? .zIndex) = none := by
    have plainChildren : ∀ n ∈ s.children parent, n.unchecked = [] := plain.children
    rw [topmost?]
    cases same : s.children parent with
    | nil => rfl
    | cons first rest =>
        rw [same] at plainChildren
        have member := (foldl_top plainChildren).1
        simp [plainChildren _ member, Unchecked.value?]
  have numbers : (s.children parent).all fun n => n.unchecked.areNumbers [.zIndex] := by
    rw [List.all_eq_true]
    intro m member
    simp [Unchecked.areNumbers, Unchecked.value?, plain.children m member]
  simp [onTop, nextLayer, none, numbers]
  rfl

end

/-- A new child on the next layer continues the numbering. -/
theorem Layered.add (layered : s.Layered parent) (n : Node α)
    (isNext : n.parent = parent → n.z = (s.children parent).length + 1) :
    ({ s with nodes := s.nodes ++ [n] } : Store α).Layered parent := by
  by_cases isChild : n.parent = parent
  · have children : ({ s with nodes := s.nodes ++ [n] } : Store α).children parent =
        s.children parent ++ [n] := by
      simp [Store.children, List.filter_append, isChild]
    rw [Layered, children, List.map_append, List.length_append, List.length_singleton, firstLayers,
      List.range_succ, List.map_append]
    refine List.Perm.append layered ?_
    simp [isNext isChild]
  · have children : ({ s with nodes := s.nodes ++ [n] } : Store α).children parent =
        s.children parent := by
      simp [Store.children, List.filter_append, isChild]
    exact layered.congr (by rw [children])

end Store

end LayoutDesigner
