import LayoutDesigner.DrawOrder
import LayoutDesigner.Proofs.Housed
import LayoutDesigner.Proofs.SiblingOrder
import LayoutDesigner.Proofs.TreeOrder

/-!
# The order of drawing

What comes to the root is drawn in pre-order, whatever the links of the other nodes. The walk down is
bounded by the number of nodes, which is as deep as what comes to the root can be; without a bound it is a
stack from which the top id is taken and its children put in its place. The rows of the hierarchy view come
from a second such stack, which counts the levels on its way down.
-/

namespace LayoutDesigner.Store

variable {α : Type} {s : Store α} {id child parent skip : Text} {ids : List Text}

section

variable {β γ : Type} {skips : β → Prop} {below : β → List β} {stack stack' taken taken' : List β}

/-- What is taken from a stack until it is empty: the item on top is left out, or it is taken and what is
below it is put in its place. -/
inductive Unstacks (skips : β → Prop) (below : β → List β) : (stack taken : List β) → Prop
  | empty : Unstacks skips below [] []
  | skip {top : β} {stack taken : List β} (skipped : skips top) (goesOn : Unstacks skips below stack taken) :
      Unstacks skips below (top :: stack) taken
  | take {top : β} {stack taken : List β} (kept : ¬skips top)
      (goesOn : Unstacks skips below (below top ++ stack) taken) :
      Unstacks skips below (top :: stack) (top :: taken)

namespace Unstacks

/-- Two stacks are taken off one after the other. -/
theorem append (upper : Unstacks skips below stack taken) (lower : Unstacks skips below stack' taken') :
    Unstacks skips below (stack ++ stack') (taken ++ taken') := by
  induction upper with
  | empty => exact lower
  | skip skipped _ ih => exact .skip skipped ih
  | take kept _ ih => exact .take kept (by rwa [List.append_assoc] at ih)

/-- The items of a stack are worked off one after another. -/
theorem flatMap {f : β → List β} (each : ∀ item ∈ stack, Unstacks skips below [item] (f item)) :
    Unstacks skips below stack (stack.flatMap f) := by
  induction stack with
  | nil => exact .empty
  | cons top rest ih =>
      have last := ih fun item listed => each item (List.mem_cons_of_mem _ listed)
      simpa using (each top List.mem_cons_self).append last

/-- A stack of items that carry more is worked off alike. -/
theorem map {f : β → γ} {skips' : γ → Prop} {below' : γ → List γ} (unstacks : Unstacks skips below stack taken)
    (skipped : ∀ item, skips' (f item) ↔ skips item)
    (same : ∀ item ∈ taken, below' (f item) = (below item).map f) :
    Unstacks skips' below' (stack.map f) (taken.map f) := by
  induction unstacks with
  | empty => exact .empty
  | skip left _ ih => exact .skip ((skipped _).mpr left) (ih same)
  | take kept _ ih =>
      refine .take (mt (skipped _).mp kept) ?_
      rw [same _ List.mem_cons_self, ← List.map_append]
      exact ih fun item listed => same item (List.mem_cons_of_mem _ listed)

end Unstacks

end

variable [Arith α]

/-- What is drawn below a parent, without the subtree of `skip`. -/
def drawnBelow (s : Store α) (skip : Option Text) (parent : Text) : List Text := s.preorder skip s.size parent

section

variable (distinct : s.ids.Nodup) (unreserved : root ∉ s.ids)

include distinct unreserved

/-- A walk down that has as many levels left as there can be below a parent goes through its children; on
the last level there are none. -/
theorem preorder_eq {skip : Option Text} {depth : Nat} (grounded : s.Grounded parent)
    (enough : s.size ≤ depth + s.level parent) :
    s.preorder skip depth parent = (s.childIds parent).flatMap fun id =>
      if skip = some id then [] else id :: s.preorder skip (depth - 1) id := by
  cases depth with
  | succ depth => rfl
  | zero =>
      have childless : s.childIds parent = [] := by
        refine List.eq_nil_iff_forall_not_mem.mpr fun child isChild => ?_
        have link := (mem_childIds_iff distinct).mp isChild
        have deep := level_le_size unreserved (.step link grounded)
        rw [level_of_parent? unreserved grounded link] at deep
        omega
      rw [childless]
      rfl

/-- More levels make no difference. -/
theorem preorder_congr {skip : Option Text} {depth depth' : Nat} (grounded : s.Grounded parent)
    (enough : s.size ≤ depth + s.level parent) (enough' : s.size ≤ depth' + s.level parent) :
    s.preorder skip depth parent = s.preorder skip depth' parent := by
  induction grounded using Grounded.descend unreserved generalizing depth depth' with
  | step parent grounded ih =>
      rw [preorder_eq distinct unreserved grounded enough, preorder_eq distinct unreserved grounded enough']
      refine List.flatMap_congr fun child isChild => ?_
      have link := (mem_childIds_iff distinct).mp isChild
      have below := level_of_parent? unreserved grounded link
      have same : s.preorder skip (depth - 1) child = s.preorder skip (depth' - 1) child :=
        ih child link (by omega) (by omega)
      rw [same]

/-- What is drawn below a parent: each child, followed by what is drawn below it. -/
theorem drawnBelow_eq {skip : Option Text} (grounded : s.Grounded parent) :
    s.drawnBelow skip parent = (s.childIds parent).flatMap fun id =>
      if skip = some id then [] else id :: s.drawnBelow skip id := by
  have deeper : s.drawnBelow skip parent = s.preorder skip (s.size + 1) parent :=
    preorder_congr distinct unreserved grounded (by omega) (by omega)
  rw [deeper, preorder]
  rfl

/-- Where nothing is skipped, each child is followed by what is below it. -/
theorem drawnBelow_none (grounded : s.Grounded parent) :
    s.drawnBelow none parent = (s.childIds parent).flatMap fun id => id :: s.drawnBelow none id := by
  rw [drawnBelow_eq distinct unreserved grounded]
  rfl

/-- Below a parent is drawn what leads up to it. -/
theorem mem_drawnBelow (grounded : s.Grounded parent) : id ∈ s.drawnBelow none parent ↔ s.LeadsUp id parent := by
  induction grounded using Grounded.descend unreserved with
  | step parent grounded ih =>
      rw [drawnBelow_none distinct unreserved grounded, leadsUp_iff_child, List.mem_flatMap]
      refine exists_congr fun child => ?_
      rw [mem_childIds_iff distinct]
      refine and_congr_right fun link => ?_
      rw [List.mem_cons, ih child link]
      rfl

/-- The stack with the children of a parent on it is worked off in the order of drawing. -/
theorem unstacks_drawnBelow (skip : Option Text) (grounded : s.Grounded parent) :
    Unstacks (skip = some ·) s.childIds (s.childIds parent) (s.drawnBelow skip parent) := by
  induction grounded using Grounded.descend unreserved with
  | step parent grounded ih =>
      rw [drawnBelow_eq distinct unreserved grounded]
      refine .flatMap fun child isChild => ?_
      split
      · next skipped => exact .skip skipped .empty
      · next kept => exact .take kept (by simpa using ih child ((mem_childIds_iff distinct).mp isChild))

/-- What is drawn below a node stands right behind it. -/
theorem split_drawnBelow (grounded : s.Grounded parent) (drawn : id ∈ s.drawnBelow none parent) :
    ∃ before after, s.drawnBelow none parent = before ++ id :: s.drawnBelow none id ++ after := by
  induction grounded using Grounded.descend unreserved with
  | step parent grounded ih =>
      rw [drawnBelow_none distinct unreserved grounded] at drawn ⊢
      obtain ⟨child, isChild, drawn⟩ := List.mem_flatMap.mp drawn
      obtain ⟨left, right, siblings⟩ := List.append_of_mem isChild
      rcases List.mem_cons.mp drawn with rfl | drawn
      · exact ⟨left.flatMap fun id => id :: s.drawnBelow none id, right.flatMap fun id => id :: s.drawnBelow none id,
          by simp [siblings]⟩
      · obtain ⟨before, after, split⟩ := ih child ((mem_childIds_iff distinct).mp isChild) drawn
        exact ⟨(left.flatMap fun id => id :: s.drawnBelow none id) ++ child :: before,
          after ++ right.flatMap fun id => id :: s.drawnBelow none id, by simp [siblings, split]⟩

/-- Below a parent no id is drawn before one that it is within, and siblings from the lowest layer up. -/
theorem pairwise_drawnBelow (plain : s.IsPlain) (grounded : s.Grounded parent) :
    (s.drawnBelow none parent).Pairwise s.Precedes := by
  induction grounded using Grounded.descend unreserved with
  | step parent grounded ih =>
      have below : ∀ {child}, child ∈ s.childIds parent → s.parent? child = some parent ∧ s.Grounded child ∧
          ∀ other, other ∈ child :: s.drawnBelow none child ↔ s.IsWithin other child := by
        intro child isChild
        have link := (mem_childIds_iff distinct).mp isChild
        have grounded' : s.Grounded child := .step link grounded
        exact ⟨link, grounded', fun other => by rw [List.mem_cons, mem_drawnBelow distinct unreserved grounded']; rfl⟩
      -- In the part of one child, the child stands first. Of two parts, all that counts is which child is lower.
      rw [drawnBelow_none distinct unreserved grounded, List.pairwise_flatMap]
      constructor
      · intro child isChild
        obtain ⟨link, grounded', -⟩ := below isChild
        refine List.pairwise_cons.mpr ⟨fun other drawn => ?_, ih child link⟩
        exact .of_leadsUp unreserved grounded' ((mem_drawnBelow distinct unreserved grounded').mp drawn)
      · refine ((childIds_sorted plain distinct parent).and (nodup_childIds distinct parent)).imp_of_mem ?_
        intro child top isChild isTop ⟨inOrder, differs⟩ id drawn other drawn'
        obtain ⟨link, -, within⟩ := below isChild
        obtain ⟨link', -, within'⟩ := below isTop
        exact .of_siblings unreserved grounded link link' differs inOrder ((within id).mp drawn) ((within' other).mp drawn')

omit [Arith α] distinct in
/-- Where a parent is drawn without the subtree of an id, so is its child, unless this is the id. -/
theorem kept_child_iff (grounded : s.Grounded parent) (link : s.parent? child = some parent)
    (kept : parent = root ∨ parent ≠ skip ∧ skip ∉ s.ancestors parent) :
    (child ≠ skip ∧ skip ∉ s.ancestors child) ↔ child ≠ skip := by
  refine and_iff_left ?_
  rcases kept with rfl | ⟨other, above⟩
  · simp [ancestors_of_top unreserved link]
  · by_cases atRoot : parent = root
    · simp [ancestors_of_top unreserved (atRoot ▸ link)]
    · rw [ancestors_of_parent? unreserved grounded atRoot link, List.mem_cons, not_or]
      exact ⟨other.symm, above⟩

/-- Skipping an id leaves out the id and what it is above. -/
theorem drawnBelow_some (grounded : s.Grounded parent)
    (kept : parent = root ∨ parent ≠ skip ∧ skip ∉ s.ancestors parent) :
    s.drawnBelow (some skip) parent =
      (s.drawnBelow none parent).filter fun id => id ≠ skip ∧ skip ∉ s.ancestors id := by
  induction grounded using Grounded.descend unreserved with
  | step parent grounded ih =>
      rw [drawnBelow_eq distinct unreserved grounded, drawnBelow_none distinct unreserved grounded, List.filter_flatMap]
      refine List.flatMap_congr fun child isChild => ?_
      have link := (mem_childIds_iff distinct).mp isChild
      have keeps := kept_child_iff unreserved grounded link kept
      split
      · next skipped =>
          obtain rfl := Option.some.inj skipped
          refine (List.filter_eq_nil_iff.mpr fun other drawn => ?_).symm
          rw [decide_eq_true_eq, not_and]
          intro differs
          have leads := (mem_drawnBelow distinct unreserved (.step link grounded)).mp
            ((List.mem_cons.mp drawn).resolve_left differs)
          exact not_not_intro ((mem_ancestors unreserved).mpr ⟨mem_ids_of_parent? link, differs.symm, leads⟩)
      · next other =>
          have kept' := keeps.mpr fun same => other (congrArg some same.symm)
          rw [List.filter_cons, if_pos (decide_eq_true kept'), ih child link (.inr kept')]

/-- Skipping a node leaves out the node and what is below it. -/
theorem paintOrder_some (isNode : skip ∈ s.ids) :
    s.paintOrder (some skip) = s.paintOrder.filter fun id => id ≠ skip ∧ id ∉ s.descendants skip := by
  change s.drawnBelow (some skip) root = (s.drawnBelow none root).filter _
  rw [drawnBelow_some distinct unreserved .atRoot (.inl rfl)]
  refine List.filter_congr fun id _ => decide_eq_decide.mpr (and_congr_right fun differs => not_congr ?_)
  rw [mem_ancestors unreserved, mem_descendants unreserved isNode]
  exact ⟨fun ⟨_, _, leads⟩ => ⟨differs, leads⟩, fun ⟨_, leads⟩ => ⟨isNode, differs.symm, leads⟩⟩

/-- Skipping what is no node leaves out nothing. -/
theorem paintOrder_some_of_notMem (missing : skip ∉ s.ids) : s.paintOrder (some skip) = s.paintOrder := by
  change s.drawnBelow (some skip) root = s.drawnBelow none root
  rw [drawnBelow_some distinct unreserved .atRoot (.inl rfl), List.filter_eq_self]
  intro id drawn
  have isNode := ((mem_drawnBelow distinct unreserved .atRoot).mp drawn).mem_ids
  rw [decide_eq_true_eq, mem_ancestors unreserved]
  exact ⟨fun same => missing (same ▸ isNode), fun above => missing above.1⟩

/-- Without the subtree of a node is drawn what comes to the root and is not within the node. -/
theorem mem_paintOrder_some (isNode : skip ∈ s.ids) :
    id ∈ s.paintOrder (some skip) ↔ s.LeadsUp id root ∧ ¬s.IsWithin id skip := by
  rw [paintOrder_some distinct unreserved isNode, List.mem_filter, decide_eq_true_eq, mem_descendants unreserved isNode]
  refine and_congr (mem_drawnBelow distinct unreserved .atRoot) ?_
  rw [IsWithin, not_or]
  exact and_congr_right fun differs => not_congr (and_iff_right differs)

/-- The rows below a parent are those of what is drawn below it, each with its depth. -/
theorem map_rowsBelow (grounded : s.Grounded parent) (depth : Nat) :
    (s.rowsBelow depth (s.level parent) parent).map (fun row => (row.id, row.depth)) =
      (s.preorder none depth parent).map fun id => (id, s.depthOf id) := by
  induction depth generalizing parent with
  | zero => rfl
  | succ depth ih =>
      rw [rowsBelow, preorder, childIds, List.flatMap_map, List.map_flatMap, List.map_flatMap]
      refine List.flatMap_congr fun n isChild => ?_
      obtain ⟨isNode, isChild⟩ := mem_childrenOf.mp isChild
      have link : s.parent? n.id = some parent := isChild ▸ parent?_of_mem distinct isNode
      rw [if_neg (by simp), List.map_cons, List.map_cons, ← ih (.step link grounded),
        level_of_parent? unreserved grounded link, depthOf_of_parent? unreserved grounded link]

/-- The rows of the tree have the ids in drawing order, each with its depth. -/
theorem map_treeRows :
    s.treeRows.map (fun row => (row.id, row.depth)) = s.paintOrder.map fun id => (id, s.depthOf id) := by
  have rows := map_rowsBelow distinct unreserved .atRoot s.size
  rwa [level_root] at rows

/-- The second stack, which has the number of levels beside each id, is worked off in the order of the rows. -/
theorem unstacks_treeRows :
    Unstacks (fun _ => False) (fun entry : Text × Nat => (s.childIds entry.1).map fun id => (id, entry.2 + 1))
      ((s.childIds root).map fun id => (id, 0)) (s.treeRows.map fun row => (row.id, row.depth)) := by
  have depths : ∀ {parent depth}, s.Grounded parent → depth = s.level parent →
      ((s.childIds parent).map fun id => (id, depth)) = (s.childIds parent).map fun id => (id, s.depthOf id) := by
    rintro parent depth grounded rfl
    refine List.map_congr_left fun child isChild => ?_
    rw [depthOf_of_parent? unreserved grounded ((mem_childIds_iff distinct).mp isChild)]
  rw [map_treeRows distinct unreserved, depths .atRoot (level_root s).symm]
  refine (unstacks_drawnBelow distinct unreserved none .atRoot).map (by simp) fun id drawn => ?_
  have leads := (mem_drawnBelow distinct unreserved .atRoot).mp drawn
  exact depths (.of_leadsUp_root leads) (level_of_ne fun isRoot => unreserved (isRoot ▸ leads.mem_ids)).symm

/-- What is drawn is a tree order. -/
theorem isTreeOrder_paintOrder (plain : s.IsPlain) : s.IsTreeOrder s.paintOrder :=
  .of_precedes unreserved (fun _ => mem_drawnBelow distinct unreserved .atRoot)
    (pairwise_drawnBelow distinct unreserved plain .atRoot)

end

/-- The order of drawing is a complete pre-order, and so are the rows of the hierarchy view. -/
structure DrawsTree (s : Store α) : Prop where
  /-- Siblings have an order. -/
  ordered : s.checkAllLayers = .ok ()
  /-- Just what comes to the root is drawn, each node once, after its parent and from the lowest layer up. -/
  tree : s.IsTreeOrder s.paintOrder
  /-- What is below a node is drawn right behind it. -/
  contiguous : ∀ id ∈ s.paintOrder, ∃ before below after, s.paintOrder = before ++ id :: below ++ after ∧
    ∀ other, other ∈ below ↔ other ∈ s.descendants id
  /-- The order is what comes off the stack with the children of the root, which becomes empty. -/
  stack : ∀ skip, Unstacks (skip = some ·) s.childIds (s.childIds root) (s.paintOrder skip)
  /-- Skipping a node leaves out this node and what is below it, and nothing else. -/
  skipping : ∀ skip ∈ s.ids,
    s.paintOrder (some skip) = s.paintOrder.filter fun id => id ≠ skip ∧ id ∉ s.descendants skip
  /-- Skipping an id of no node leaves out nothing. -/
  skippingNothing : ∀ skip ∉ s.ids, s.paintOrder (some skip) = s.paintOrder
  /-- The rows come off a stack that counts levels, which becomes empty. -/
  rowStack : Unstacks (fun _ => False)
    (fun entry : Text × Nat => (s.childIds entry.1).map fun id => (id, entry.2 + 1))
    ((s.childIds root).map fun id => (id, 0)) (s.treeRows.map fun row => (row.id, row.depth))
  /-- The rows are those of the drawn nodes in their order, each with the number of nodes above it. -/
  rows : s.treeRows.map (fun row => (row.id, row.depth)) = s.paintOrder.map fun id => (id, s.depthOf id)

/-- **The order of drawing is a complete pre-order on every graph of links.** Take any store with distinct ids
of which none is the root's, where links may lead nowhere or in a circle and values have their types. Walking
down from the root ends, and it lists exactly the nodes whose parents lead to the root, each once, every node
after its parent, each subtree in one piece and siblings by layer and id. Skipping an id leaves out the node
of that id and what is below it; the root is no node, so skipping it leaves out nothing. The rows of the
hierarchy view are the same ids in the same order, each with its depth. -/
theorem drawsTree (plain : s.IsPlain) (distinct : s.ids.Nodup) (unreserved : root ∉ s.ids) : s.DrawsTree where
  ordered := checkAllLayers_plain plain
  tree := isTreeOrder_paintOrder distinct unreserved plain
  contiguous := by
    intro id drawn
    have leads := (mem_drawnBelow distinct unreserved .atRoot).mp drawn
    have grounded := Grounded.of_leadsUp_root leads
    obtain ⟨before, after, split⟩ := split_drawnBelow distinct unreserved .atRoot drawn
    refine ⟨before, s.drawnBelow none id, after, split, fun other => ?_⟩
    rw [mem_drawnBelow distinct unreserved grounded, mem_descendants unreserved leads.mem_ids]
    refine (and_iff_right_of_imp ?_).symm
    rintro leads rfl
    exact grounded.not_leadsUp_self unreserved leads
  stack skip := unstacks_drawnBelow distinct unreserved skip .atRoot
  skipping _ := paintOrder_some distinct unreserved
  skippingNothing _ := paintOrder_some_of_notMem distinct unreserved
  rowStack := unstacks_treeRows distinct unreserved
  rows := map_treeRows distinct unreserved

/-- Two frames on the canvas with a label in the front one, two frames inside each other and a label on a
missing parent. -/
def straying : Store ℚ where
  canvasW := .int 980
  canvasH := .int 620
  nodes := [{ Node.square .frame "front" root (1 / 2) 200 300 with z := 2 },
    Node.square .frame "back" root (1 / 2) 200 300, Node.square .textLabel "held" "front" (1 / 2) 40 60,
    Node.square .frame "here" "there" (1 / 2) 40 60, Node.square .frame "there" "here" (1 / 2) 40 60,
    Node.square .textLabel "lost" "nowhere" (1 / 2) 40 60]

/-- No node of the straying store has anything unchecked. -/
theorem plain_straying : straying.IsPlain := by simp [straying, Node.square, IsPlain]

/-- The ids of the straying store are distinct. -/
theorem distinct_straying : straying.ids.Nodup := by decide

/-- The children of the straying store in drawing order. -/
theorem childIds_straying : straying.childIds root = [("back" : Text), "front"] ∧
    straying.childIds "front" = [("held" : Text)] ∧ straying.childIds "back" = [] ∧ straying.childIds "held" = [] := by
  refine ⟨?_, ?_, ?_, ?_⟩
  · exact childIds_eq plain_straying distinct_straying [straying.nodes[1], straying.nodes[0]] (.swap ..) (by decide +kernel)
  · exact childIds_eq plain_straying distinct_straying [straying.nodes[2]] (.refl _) (by decide +kernel)
  · exact childIds_eq plain_straying distinct_straying [] (.refl _) .nil
  · exact childIds_eq plain_straying distinct_straying [] (.refl _) .nil

/-- Only the frames on the canvas and the label in one of them are drawn. -/
theorem drawsTree_straying : straying.DrawsTree ∧ straying.paintOrder = [("back" : Text), "front", "held"] := by
  refine ⟨drawsTree plain_straying distinct_straying (by decide), ?_⟩
  obtain ⟨top, front, back, held⟩ := childIds_straying
  change straying.preorder none 6 root = _
  simp [preorder, top, front, back, held]

end LayoutDesigner.Store
