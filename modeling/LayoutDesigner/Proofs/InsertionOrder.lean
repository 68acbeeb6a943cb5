import LayoutDesigner.HitTest
import LayoutDesigner.Number
import LayoutDesigner.Script
import LayoutDesigner.Proofs.Layers

/-!
# The order in which nodes came

A design is drawn, hit and written by its nodes alone: two stores with the same nodes, however they
came, have the same children in drawing order, and everything else is read off those and off the
nodes found by their ids. The links between the nodes may lead nowhere or in a circle.
-/

namespace LayoutDesigner

variable {α : Type}

namespace Store

/-- The same nodes on the same surface, in any order. Ids are distinct, and layers are integers. -/
structure Reordered (s t : Store α) : Prop where
  width : t.canvasW = s.canvasW
  height : t.canvasH = s.canvasH
  nodes : t.nodes.Perm s.nodes
  distinct : s.ids.Nodup
  ordered : ∀ n ∈ s.nodes, n.isOrdered

/-- Nodes in drawing order are determined by which they are, where their ids are distinct. -/
theorem mergeSort_drawnBefore_eq {left right : List (Node α)} (perm : left.Perm right)
    (distinct : (right.map Node.id).Nodup) :
    left.mergeSort Node.drawnBefore = right.mergeSort Node.drawnBefore := by
  have sorted : ∀ nodes : List (Node α),
      (nodes.mergeSort Node.drawnBefore).Pairwise fun a b => a.drawnBefore b :=
    List.pairwise_mergeSort Node.drawnBefore_trans Node.drawnBefore_total
  have isRight : ∀ {n : Node α}, n ∈ left.mergeSort Node.drawnBefore → n ∈ right := fun member =>
    perm.mem_iff.mp (List.mem_mergeSort.mp member)
  refine List.Perm.eq_of_pairwise ?_ (sorted left) (sorted right)
    ((List.mergeSort_perm ..).trans (perm.trans (List.mergeSort_perm ..).symm))
  intro a b inLeft inRight before after
  exact List.inj_on_of_nodup_map distinct (isRight inLeft) (List.mem_mergeSort.mp inRight)
    (Node.drawnBefore_antisymm before after)

/-- A check that fails with one fault only fails exactly where some item fails. -/
theorem forM_eq_ite {β : Type} {items : List β} {check : β → Except Fault Unit} {fault : Fault}
    {passes : β → Bool} (each : ∀ item, check item = if passes item then .ok () else .error fault) :
    items.forM check = if items.all passes then .ok () else .error fault := by
  induction items with
  | nil => rfl
  | cons item rest ih =>
      change (do check item; rest.forM check) = _
      rw [each, List.all_cons]
      cases passes item with
      | true => exact ih
      | false => rfl

namespace Reordered

variable {s t : Store α}

section

variable (same : Reordered s t)

include same

/-- The number of nodes does not go by their order in the store. -/
theorem size_eq : t.size = s.size := same.nodes.length_eq

/-- Which nodes there are does not go by their order in the store. -/
theorem mem_nodes {n : Node α} : n ∈ t.nodes ↔ n ∈ s.nodes := same.nodes.mem_iff

/-- What is found does not go by the order of the store. -/
theorem find?_eq (id : Text) : t.find? id = s.find? id := by
  have distinct : t.ids.Nodup := (same.nodes.map Node.id).nodup_iff.mpr same.distinct
  ext n
  rw [find?_eq_some distinct, find?_eq_some same.distinct, same.mem_nodes]

/-- What ids there are does not go by the order of the store. -/
theorem contains_eq (id : Text) : t.contains id = s.contains id := by
  rw [contains, contains, same.find?_eq]

variable [Arith α]

/-- The drawing order of siblings does not go by the order of the store. -/
theorem childrenOf_eq (parent : Text) : t.childrenOf parent = s.childrenOf parent := by
  have perm : (t.children parent).Perm (s.children parent) := same.nodes.filter _
  have ordered : ∀ n ∈ s.children parent, n.isOrdered := fun n child =>
    same.ordered n (mem_children.mp child).1
  have distinct : ((s.children parent).map Node.id).Nodup :=
    same.distinct.sublist (List.filter_sublist.map _)
  rw [childrenOf, childrenOf, inDrawingOrder_ordered ordered,
    inDrawingOrder_ordered fun n child => ordered n (perm.mem_iff.mp child)]
  exact mergeSort_drawnBefore_eq perm distinct

/-- Nor does that of their ids. -/
theorem childIds_eq (parent : Text) : t.childIds parent = s.childIds parent := by
  rw [childIds, childIds, same.childrenOf_eq]

omit [Arith α] in
/-- A walk up does not go by the order of the store. -/
theorem ancestorsFrom_eq (bound : Nat) (met : List Text) (id : Text) :
    t.ancestorsFrom bound met id = s.ancestorsFrom bound met id := by
  induction bound generalizing met id with
  | zero => rfl
  | succ bound ih => simp only [ancestorsFrom, same.find?_eq, same.contains_eq, ih]

omit [Arith α] in
/-- The ancestors do not go by the order of the store. -/
theorem ancestors_eq (id : Text) : t.ancestors id = s.ancestors id := by
  rw [ancestors, ancestors, same.size_eq, same.ancestorsFrom_eq]

/-- Siblings have an order, so only a parent that is no id is refused, and it is refused in any
order. -/
theorem checkAllLayers_eq : t.checkAllLayers = s.checkAllLayers := by
  have ordered : ∀ n ∈ t.nodes, n.isOrdered := fun n member => same.ordered n (same.mem_nodes.mp member)
  have layers : ∀ {u : Store α}, (∀ n ∈ u.nodes, n.isOrdered) → ∀ parent,
      u.checkLayers parent = .ok () := by
    intro u ordered parent
    rw [checkLayers, inDrawingOrder_ordered fun n child => ordered n (mem_children.mp child).1]
    rfl
  have named : ∀ n : Node α, (do let _ ← (n.written .parent).asId) =
      if (n.written .parent).asId.isOk then .ok () else Except.error Fault.wrongType := by
    intro n
    cases n.written .parent <;> rfl
  simp only [checkAllLayers]
  rw [forM_eq_ite named, forM_eq_ite named, forM_ok fun parent _ => layers ordered parent,
    forM_ok fun parent _ => layers same.ordered parent, same.nodes.all_eq]

/-- What is listed below a parent does not go by the order of the store. -/
theorem preorder_eq (skip : Option Text) (depth : Nat) (parent : Text) :
    t.preorder skip depth parent = s.preorder skip depth parent := by
  induction depth generalizing parent with
  | zero => rfl
  | succ depth ih => simp only [preorder, same.childIds_eq, ih]

/-- The drawing order of all nodes does not go by the order of the store. -/
theorem paintOrder_eq (skip : Option Text) : t.paintOrder skip = s.paintOrder skip := by
  rw [paintOrder, paintOrder, same.size_eq, same.preorder_eq]

/-- The rows below a parent do not go by the order of the store. -/
theorem rowsBelow_eq (depth level : Nat) (parent : Text) :
    t.rowsBelow depth level parent = s.rowsBelow depth level parent := by
  induction depth generalizing level parent with
  | zero => rfl
  | succ depth ih => simp only [rowsBelow, same.childrenOf_eq, ih]

/-- The rows of the tree do not go by the order of the store. -/
theorem treeRows_eq : t.treeRows = s.treeRows := by
  rw [treeRows, treeRows, same.size_eq, same.rowsBelow_eq]

/-- The boxes on the canvas do not go by the order of the store. -/
theorem absoluteRect_eq (id : Text) : t.absoluteRect id = s.absoluteRect id := by
  simp only [absoluteRect, absoluteTopLeft, offsetBy, same.find?_eq, same.ancestors_eq, same.width,
    same.height]

/-- The first node at a point does not go by the order of the store. -/
theorem firstAt_eq (p : Point α) (ids : List Text) : t.firstAt p ids = s.firstAt p ids := by
  induction ids with
  | nil => rfl
  | cons id rest ih => simp only [firstAt, same.absoluteRect_eq, ih]

/-- What is hit at a point does not go by the order of the store. -/
theorem nodeAt_eq (p : Point α) (skip : Option Text) : t.nodeAt p skip = s.nodeAt p skip := by
  simp only [nodeAt, same.checkAllLayers_eq, same.paintOrder_eq, same.firstAt_eq]

/-- Where a node is dropped does not go by the order of the store. -/
theorem dropContainer_eq (p : Point α) (exclude : Option Text) :
    t.dropContainer p exclude = s.dropContainer p exclude := by
  simp only [dropContainer, same.nodeAt_eq, same.ancestors_eq, firstContainer, same.find?_eq]

/-- A walk in levels does not go by the order of the store. -/
theorem walk_eq (bound : Nat) (seen queue : List Text) :
    Script.walk t bound seen queue = Script.walk s bound seen queue := by
  induction bound generalizing seen queue with
  | zero => rfl
  | succ bound ih =>
      cases queue with
      | nil => rfl
      | cons id rest => simp only [Script.walk, same.childIds_eq, ih]

/-- The order of levels does not go by the order of the store. -/
theorem levelOrder_eq : Script.levelOrder t = Script.levelOrder s := by
  rw [Script.levelOrder, Script.levelOrder, same.size_eq, same.childIds_eq, same.walk_eq]

omit [Arith α] in
/-- What is written before a node does not go by the order of the store. -/
theorem write_eq (bound : Nat) (done : Script.Written) (id : Text) :
    Script.write t bound done id = Script.write s bound done id := by
  induction bound generalizing done id with
  | zero => rfl
  | succ bound ih => simp only [Script.write, same.find?_eq, ih]

/-- The order of writing does not go by the order of the store. -/
theorem writingOrder_eq : Script.writingOrder t = Script.writingOrder s := by
  have writes : Script.write t (t.size + 1) = Script.write s (s.size + 1) := by
    funext done id
    rw [same.size_eq, same.write_eq]
  rw [Script.writingOrder, Script.writingOrder, same.levelOrder_eq, writes]

/-- The statements for nodes do not go by the order of the store. -/
theorem treeStatements_eq (names : Script.Names) (ids : List Text) :
    Script.treeStatements t names ids = Script.treeStatements s names ids := by
  induction ids generalizing names with
  | nil => rfl
  | cons id rest ih => simp only [Script.treeStatements, same.find?_eq, ih]

/-- The script does not go by the order of the store. -/
theorem generate_eq (p : Project α) : Script.generate t p = Script.generate s p := by
  simp only [Script.generate, Script.ofStore, same.checkAllLayers_eq, same.writingOrder_eq,
    same.treeStatements_eq]

end

end Reordered

/-- **The order of insertion does not matter.** Of two stores with the same nodes, whatever their
links are, the script has the same order and the same text for every project. Where no node has the
id of the root, the tree is drawn and shown in the same order, and a point hits the same node and
drops into the same container. What fails of one fails of the other with the same fault. -/
theorem output_of_reordered [Arith α] {s t : Store α} (same : Reordered s t) :
    t.checkAllLayers = s.checkAllLayers ∧ Script.levelOrder t = Script.levelOrder s ∧
      (∀ p, Script.generate t p = Script.generate s p) ∧
      (root ∉ s.ids →
        (∀ skip, t.paintOrder skip = s.paintOrder skip) ∧ t.treeRows = s.treeRows ∧
          (∀ p skip, t.nodeAt p skip = s.nodeAt p skip) ∧
          ∀ p exclude, t.dropContainer p exclude = s.dropContainer p exclude) :=
  ⟨same.checkAllLayers_eq, same.levelOrder_eq, same.generate_eq, fun _ =>
    ⟨same.paintOrder_eq, same.treeRows_eq, same.nodeAt_eq, same.dropContainer_eq⟩⟩

/-- Two frames of one layer, one whose parent is missing, and two that hold each other. -/
def adrift : Store Number :=
  let frame (id parent : Text) : Node Number :=
    { id, kind := .frame, name := Kind.frame.name, parent, x := .int 40, y := .int 40, w := .int 60, h := .int 60
      anchorX := Arith.half, anchorY := Arith.half, z := 1, bgColor := Rgb.white, bgAlpha := Arith.one, border := false
      text := [], textColor := Rgb.white, textScaled := false, font := defaultFont, image := []
      canvasW := 0, canvasH := 0, scrollbarThickness := 8, extensions := [] }
  { canvasW := .int 980, canvasH := .int 620
    nodes := [frame "b" root, frame "a" root, frame "lost" "gone", frame "c" "d", frame "d" "c"] }

/-- The frames from the last to the first give the same script and the same picture. -/
theorem output_of_reordered_adrift :
    let reversed : Store Number := { adrift with nodes := adrift.nodes.reverse }
    Reordered adrift reversed ∧
      (∀ p, Script.generate reversed p = Script.generate adrift p) ∧
      (∀ skip, reversed.paintOrder skip = adrift.paintOrder skip) ∧
      reversed.nodeAt (.int 15, .int 15) (some "b") = adrift.nodeAt (.int 15, .int 15) (some "b") := by
  intro reversed
  have same : Reordered adrift reversed :=
    ⟨rfl, rfl, List.reverse_perm _, by decide +kernel, by decide +kernel⟩
  obtain ⟨-, -, scripts, below⟩ := output_of_reordered same
  obtain ⟨drawn, -, hit, -⟩ := below (by decide +kernel)
  exact ⟨same, scripts, drawn, hit _ _⟩

end Store

end LayoutDesigner
