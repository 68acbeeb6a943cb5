import LayoutDesigner.Stage
import LayoutDesigner.Proofs.DrawOrder
import LayoutDesigner.Proofs.Reorder
import LayoutDesigner.Proofs.Spaces

/-!
# Where a drop lands

A drop lands in the nearest container at or above the node that is drawn last under the pointer, where the
dragged node is looked through with all that is below it. What is above a node that is not within the dragged
one is not within it either, so the drop is legal. Where every node is inside the box of its parent, a point
of its box is in the boxes of all that is above it, so the drop lands under the pointer.
-/

namespace LayoutDesigner

/-- The box of a node is inside a box of the given sides. -/
@[mk_iff]
structure Node.IsInside (n : Node ℚ) (room : ℚ × ℚ) : Prop where
  left : 0 ≤ n.corner.1
  right : n.corner.1 + n.w ≤ room.1
  top : 0 ≤ n.corner.2
  bottom : n.corner.2 + n.h ≤ room.2

instance (n : Node ℚ) (room : ℚ × ℚ) : Decidable (n.IsInside room) := decidable_of_iff' _ (Node.isInside_iff ..)

/-- A point is in a box; the far edges do not belong to it. -/
@[mk_iff]
structure Rect.Contains (r : Rect ℚ) (p : Point ℚ) : Prop where
  left : r.x ≤ p.1
  right : p.1 < r.x + r.w
  top : r.y ≤ p.2
  bottom : p.2 < r.y + r.h

instance (r : Rect ℚ) (p : Point ℚ) : Decidable (r.Contains p) := decidable_of_iff' _ (Rect.contains_iff ..)

namespace Store

variable {s : Store ℚ} {id child parent top : Text} {ids : List Text} {n m d : Node ℚ} {p q start : Point ℚ} {r : Rect ℚ}

/-- The box of a node on the canvas contains a point. -/
def Covers (s : Store ℚ) (id : Text) (p : Point ℚ) : Prop := ∃ r, s.absoluteRect id = .ok r ∧ r.Contains p

/-- Over the rationals a box can tell of any point whether it is inside. -/
theorem boxContains_num (r : Rect ℚ) (p : Point ℚ) : boxContains r p = .ok (decide (r.Contains p)) := by
  have le : ∀ a b : ℚ, Arith.le a b = decide (a ≤ b) := fun _ _ => rfl
  have lt : ∀ a b : ℚ, Arith.lt a b = decide (a < b) := fun _ _ => rfl
  have add : ∀ a b : ℚ, Arith.add a b = .ok (a + b) := fun _ _ => rfl
  simp only [boxContains, le, lt, add, Rect.contains_iff]
  by_cases left : r.x ≤ p.1 <;> by_cases right : p.1 < r.x + r.w <;> by_cases upper : r.y ≤ p.2 <;>
    simp [left, right, upper, Bind.bind, Except.bind, pure, Except.pure]

section

variable (unreserved : root ∉ s.ids) (numeric : s.IsNumeric)

include unreserved numeric

/-- A point of a node's box is in its parent's box, where the node is inside that. -/
theorem Covers.up (above : s.Grounded n.parent) (notRoot : n.parent ≠ root) (found : s.find? id = some n)
    (inside : n.IsInside (s.room n.parent)) (covers : s.Covers id p) : s.Covers n.parent p := by
  obtain ⟨chain, climbs⟩ := above.exists_climbs notRoot
  obtain ⟨m, found'⟩ := exists_find? climbs.mem_ids
  obtain ⟨start, isStart, -⟩ := absoluteTopLeft_ok numeric.isMeasured n.parent
  obtain ⟨r, isRect, contains⟩ := covers
  rw [absoluteRect, found, absoluteTopLeft_of_parent unreserved numeric.plain above notRoot found isStart] at isRect
  obtain rfl := Except.ok.inj isRect
  refine ⟨⟨start.1, start.2, m.w, m.h⟩, ?_, ?_⟩
  · rw [absoluteRect, found', isStart]
    rfl
  · rw [room_of_find? notRoot found' (numeric.plain m (mem_of_find? found'))] at inside
    obtain ⟨left, right, upper, lower⟩ := contains
    obtain ⟨left', right', upper', lower'⟩ := inside
    dsimp only at left right upper lower right' lower'
    constructor <;> dsimp only <;> linarith

end

/-- So it is in the boxes of all that is above the node. -/
theorem Covers.of_leadsUp (rooted : s.IsRooted) (numeric : s.IsNumeric)
    (inside : ∀ n ∈ s.nodes, n.IsInside (s.room n.parent)) (leads : s.LeadsUp id top) (covers : s.Covers id p) :
    top = root ∨ s.Covers top p := by
  suffices up : ∀ child parent, child = root ∨ s.Covers child p → s.parent? child = some parent →
      parent = root ∨ s.Covers parent p from leads.of_closed up (.inr covers)
  intro child parent start link
  obtain ⟨n, found⟩ := exists_find? (mem_ids_of_parent? link)
  obtain rfl := Option.some.inj ((parent?_of_find? found).symm.trans link)
  by_cases notRoot : n.parent = root
  · exact .inl notRoot
  · have isNode := mem_ids_of_find? found
    have above := (rooted.grounded_of_mem isNode).of_parent? rooted.unreserved link
    have covers := start.resolve_left fun isRoot => rooted.unreserved (isRoot ▸ isNode)
    exact .inr (covers.up rooted.unreserved numeric above notRoot found (inside n (mem_of_find? found)))

/-- Where the listed boxes are known, looking for one that contains a point returns, and what it finds does. -/
theorem firstAt_num (known : ∀ id ∈ ids, ∃ r, s.absoluteRect id = .ok r) (p : Point ℚ) :
    ∃ hit, s.firstAt p ids = .ok hit ∧ ∀ id ∈ hit, id ∈ ids ∧ s.Covers id p := by
  induction ids with
  | nil => exact ⟨none, rfl, by simp⟩
  | cons id rest ih =>
      obtain ⟨r, isRect⟩ := known id List.mem_cons_self
      obtain ⟨hit, isHit, covered⟩ := ih fun other listed => known other (List.mem_cons_of_mem _ listed)
      have first : s.firstAt p (id :: rest) = if r.Contains p then .ok (some id) else s.firstAt p rest := by
        rw [firstAt, isRect]
        change (boxContains r p >>= fun answer => if answer = true then _ else _) = _
        rw [boxContains_num]
        change (if decide (r.Contains p) = true then _ else _) = _
        simp only [decide_eq_true_eq]
        rfl
      by_cases contains : r.Contains p
      · refine ⟨some id, by rw [first, if_pos contains], fun other same => ?_⟩
        obtain rfl := Option.some.inj same
        exact ⟨List.mem_cons_self, r, isRect, contains⟩
      · refine ⟨hit, by rw [first, if_neg contains, isHit], fun other isOther => ?_⟩
        exact (covered other isOther).imp_left (List.mem_cons_of_mem _)

/-- In a numeric store every node has a box on the canvas. -/
theorem absoluteRect_ok (numeric : s.IsNumeric) (id : Text) : ∃ r, s.absoluteRect id = .ok r := by
  rw [absoluteRect]
  cases s.find? id with
  | none =>
      obtain ⟨⟨w, isWidth⟩, h, isHeight⟩ := And.intro numeric.canvasW numeric.canvasH
      exact ⟨⟨Arith.zero, Arith.zero, w, h⟩, by rw [isWidth, isHeight]; rfl⟩
  | some n =>
      obtain ⟨start, isStart, -⟩ := absoluteTopLeft_ok numeric.isMeasured id
      exact ⟨⟨start.1, start.2, n.w, n.h⟩, by rw [isStart]; rfl⟩

/-- In a numeric store what is hit at a point is drawn and covers the point. -/
theorem nodeAt_num (numeric : s.IsNumeric) (p : Point ℚ) (skip : Option Text) :
    ∃ hit, s.nodeAt p skip = .ok hit ∧ ∀ id ∈ hit, id ∈ s.paintOrder skip ∧ s.Covers id p := by
  have known : ∀ id ∈ (s.paintOrder skip).reverse, ∃ r, s.absoluteRect id = .ok r :=
    fun id _ => absoluteRect_ok numeric id
  obtain ⟨hit, isHit, covered⟩ := firstAt_num known p
  refine ⟨hit, ?_, fun id isId => (covered id isId).imp_left List.mem_reverse.mp⟩
  rw [nodeAt, checkAllLayers_plain numeric.plain]
  exact isHit

/-- The nearest container among some ids is one of them, or it is the root. -/
theorem firstContainer_cases (s : Store ℚ) (ids : List Text) : s.firstContainer ids = root ∨
    s.firstContainer ids ∈ ids ∧ ∃ m ∈ s.nodes, m.id = s.firstContainer ids ∧ m.kind.isContainer := by
  rw [firstContainer]
  cases isFirst : ids.find? fun id => (s.find? id).any fun n => n.kind.isContainer with
  | none => exact .inl rfl
  | some c =>
      have holds := List.find?_some isFirst
      cases found : s.find? c with
      | none => simp [found] at holds
      | some m =>
          exact .inr ⟨List.mem_of_find?_eq_some isFirst, m, mem_of_find? found, id_of_find? found,
            by simpa [found] using holds⟩

/-- A container that is not the node nor below it, under a point of the canvas. -/
structure Receives (s : Store ℚ) (id : Text) (p : Point ℚ) (target : Text) : Prop where
  container : ∃ m ∈ s.nodes, m.id = target ∧ m.kind.isContainer
  other : target ≠ id
  apart : ¬s.isBelow target id
  covers : s.Covers target p

section

variable (forest : s.IsForest) (numeric : s.IsNumeric)

include forest numeric

/-- Above what is drawn without the subtree of a node is nothing of that subtree. -/
theorem dropContainer_receives (inside : ∀ n ∈ s.nodes, n.IsInside (s.room n.parent)) (isNode : id ∈ s.ids)
    (p : Point ℚ) : ∃ c, s.dropContainer p (some id) = .ok c ∧ (c = root ∨ s.Receives id p c) := by
  obtain ⟨hit, isHit, covered⟩ := nodeAt_num numeric p (some id)
  cases hit with
  | none => exact ⟨root, by rw [dropContainer, isHit]; rfl, .inl rfl⟩
  | some hit =>
      obtain ⟨drawn, covers⟩ := covered hit rfl
      obtain ⟨-, outside⟩ := (mem_paintOrder_some forest.distinct forest.unreserved isNode).mp drawn
      refine ⟨s.firstContainer (hit :: s.ancestors hit), by rw [dropContainer, isHit]; rfl, ?_⟩
      refine (firstContainer_cases s (hit :: s.ancestors hit)).imp_right ?_
      generalize s.firstContainer (hit :: s.ancestors hit) = c
      rintro ⟨listed, m, isMember, rfl, isContainer⟩
      -- If the container were within the dragged node, so would be what is drawn under the point.
      have above : s.IsWithin hit m.id :=
        (List.mem_cons.mp listed).imp Eq.symm fun listed => ((mem_ancestors forest.unreserved).mp listed).2.2
      have apart : ¬s.IsWithin m.id id := by
        rw [isWithin_iff] at outside above ⊢
        exact fun within => outside (above.trans within)
      rw [IsWithin, not_or] at apart
      refine ⟨⟨m, isMember, rfl, isContainer⟩, apart.1, mt forest.isBelow_iff.mp apart.2, ?_⟩
      rcases above with rfl | leads
      · exact covers
      · refine (covers.of_leadsUp forest.isRooted numeric inside leads).resolve_left fun isRoot => ?_
        exact forest.unreserved (isRoot ▸ id_mem_ids isMember)

omit numeric in
/-- What receives a drop of a node is not within the node. -/
theorem apart_of_receives {c : Text} (isNode : id ∈ s.ids) (receives : c = root ∨ s.Receives id p c) :
    c ≠ id ∧ ¬s.isBelow c id := by
  rcases receives with rfl | receives
  · refine ⟨fun same => forest.unreserved (same ▸ isNode), fun below => ?_⟩
    exact forest.unreserved (forest.isBelow_iff.mp below).mem_ids
  · exact ⟨receives.other, receives.apart⟩

omit numeric in
/-- It is the parent of the node, or the node may be moved there. -/
theorem canReparent_of_receives {c : Text} (isNode : d ∈ s.nodes) (receives : c = root ∨ s.Receives d.id p c)
    (elsewhere : c ≠ d.parent) : s.canReparent d.id c := by
  refine (canReparent_iff_admits forest (find?_of_mem forest.distinct isNode)).mpr ⟨?_, elsewhere⟩
  exact receives.imp_right fun receives =>
    ⟨receives.container, receives.other, mt forest.isBelow_iff.mpr receives.apart⟩

end

end Store

namespace Stage

open Store

/-- An event lets go of a node that is moved, over a point of the canvas. -/
structure LetsGo (stage : Stage ℚ) (e : PointerEvent ℚ) (id : Text) (p : Point ℚ) : Prop where
  moves : ∃ g, stage.drag = some g ∧ g.nodeId = id ∧ g.resizing = false ∧ isFollowed g e
  world : stage.eventWorld e = .ok p

variable {stage : Stage ℚ} {e : PointerEvent ℚ} {d : Node ℚ} {p : Point ℚ} {c : Text}

/-- An event at two numbers is on the canvas where they are divided by the zoom. -/
theorem eventWorld_num {x y : ℚ} (isX : e.x.asOperand = .ok x) (isY : e.y.asOperand = .ok y) (notZero : stage.zoom ≠ 0) :
    stage.eventWorld e = .ok (x / stage.zoom, y / stage.zoom) := by
  have divide : ∀ v : ℚ, Arith.div v stage.zoom = .ok (v / stage.zoom) := fun _ => if_neg notZero
  refine bind_eq_ok.mpr ⟨x, isX, bind_eq_ok.mpr ⟨_, divide x, ?_⟩⟩
  exact bind_eq_ok.mpr ⟨y, isY, bind_eq_ok.mpr ⟨_, divide y, rfl⟩⟩

/-- Letting go of a node ends the drag, and drops the node into what receives it. -/
theorem ends_pointerUp {done : Bool → Stage ℚ → Prop} {failed : Fault → Stage ℚ → Prop}
    (found : stage.store.find? d.id = some d) (letsGo : stage.LetsGo e d.id p)
    (isTarget : stage.store.dropContainer p (some d.id) = .ok c)
    (stays : c = d.parent ∨ c = d.id ∨ stage.store.isBelow c d.id → done false { stage with drag := none })
    (moves : c ≠ d.parent → (reparent d.id c).Ends stage.store
      (fun answer store => done answer { stage with drag := none, store })
      fun fault store => failed fault { stage with drag := none, store }) :
    (pointerUp e).Ends stage done failed := by
  obtain ⟨⟨g, isDragged, isId, moving, followed⟩, world⟩ := letsGo
  unfold pointerUp
  simp only [Edit.ends_bind, Edit.ends_get, isDragged, followed, Bool.not_true, Bool.false_eq_true, if_false,
    losePointer, Edit.ends_modify, isId, found, moving]
  refine Edit.ends_lift_ok world ((Edit.ends_focus ..).mpr ?_)
  unfold drop
  simp only [Edit.ends_bind, Edit.ends_get]
  refine Edit.ends_lift_ok isTarget ?_
  split
  · next refused => exact stays refused
  · next admitted => exact moves fun same => admitted (.inl same)

/-- **A drop lands under the pointer, where it is legal.** Take a store over the rationals whose nodes are a
forest of containers, each inside the box of its parent, one of the nodes and any point. Looking for what
receives a drop of the node there returns the root, or a container that is neither the node nor below it and
whose box on the canvas contains the point. This is the parent of the node, or the node may be moved there. So
letting go of the node over the point moves it just where what receives it is another one than its parent: the
answer is yes then, and the node is under it; else the answer is no, and nothing but the drag is changed. -/
theorem dropContainer_legal {s : Store ℚ} (forest : s.IsForest) (numeric : s.IsNumeric)
    (inside : ∀ n ∈ s.nodes, n.IsInside (s.room n.parent)) (isNode : d ∈ s.nodes) (p : Point ℚ) :
    ∃ c, s.dropContainer p (some d.id) = .ok c ∧ (c = root ∨ s.Receives d.id p c) ∧
      (c = d.parent ∨ s.canReparent d.id c) ∧
      ∀ stage : Stage ℚ, stage.store = s → ∀ e, stage.LetsGo e d.id p →
        (c = d.parent → pointerUp e stage = .ok false { stage with drag := none }) ∧
        (c ≠ d.parent → ∃ t, reparent d.id c s = .ok true t ∧ t.parent? d.id = some c ∧
          pointerUp e stage = .ok true { stage with drag := none, store := t }) := by
  have found := find?_of_mem forest.distinct isNode
  obtain ⟨c, isTarget, receives⟩ := dropContainer_receives forest numeric inside (id_mem_ids isNode) p
  have can : c ≠ d.parent → s.canReparent d.id c := canReparent_of_receives forest isNode receives
  refine ⟨c, isTarget, receives, or_iff_not_imp_left.mpr can, ?_⟩
  rintro stage rfl e letsGo
  constructor
  · intro isParent
    have ends : (pointerUp e).Ends stage (fun answer t => answer = false ∧ t = { stage with drag := none })
        fun _ _ => False :=
      ends_pointerUp found letsGo isTarget (fun _ => ⟨rfl, rfl⟩) fun elsewhere => absurd isParent elsewhere
    obtain ⟨_, _, ran, rfl, rfl⟩ := ends.ok
    exact ran
  · intro elsewhere
    obtain ⟨t, _, _, _, moved, -⟩ := moored_reparent forest numeric found (can elsewhere)
    refine ⟨t, moved, ?_, ?_⟩
    · obtain ⟨links, -⟩ := (ends_reparent_of_can forest numeric.plain found (can elsewhere)).returned moved
      rw [parent?_congr links, parent?_setParent, if_pos rfl, parent?_of_find? found, Option.map_some]
    · obtain ⟨other, apart⟩ := apart_of_receives forest (id_mem_ids isNode) receives
      have ends : (pointerUp e).Ends stage (fun answer u => answer = true ∧ u = { stage with drag := none, store := t })
          fun _ _ => False :=
        ends_pointerUp found letsGo isTarget (fun refused => by simp [elsewhere, other, apart] at refused)
          fun _ => (Edit.ends_of_ok moved).mpr ⟨rfl, rfl⟩
      obtain ⟨_, _, ran, rfl, rfl⟩ := ends.ok
      exact ran

/-- A frame inside a frame on the canvas, and a label beside them. -/
def trays : Store ℚ where
  canvasW := .int 980
  canvasH := .int 620
  nodes := [Node.square .frame "inner" "outer" (1 / 2) 60 100, Node.square .frame "outer" root (1 / 2) 200 300,
    { Node.square .textLabel "tag" root (1 / 2) 40 60 with z := 2 }]

/-- At twice the size the label is moved over the inner frame. -/
def hovering : Stage ℚ :=
  { Stage.ofStore trays (.arr [.num (1 / 2), .num 2]) (.int 20) with
    zoom := 2
    drag := some {
      resizing := false, nodeId := "tag", handle := .null, parent := root
      start := { Node.square .textLabel "tag" root (1 / 2) 40 60 with z := 2 }.geometry
      startPointer := (60, 60), pointerId := .int 1, descendantStarts := [] } }

/-- The trays have rational measures. -/
theorem numeric_trays : trays.IsNumeric := ⟨by simp [trays, Node.square, IsPlain], ⟨_, rfl⟩, ⟨_, rfl⟩⟩

/-- The trays are a forest. -/
theorem forest_trays : trays.IsForest := by
  have outer : trays.Grounded "outer" := .step (by decide : trays.parent? "outer" = some root) .atRoot
  have inner : trays.Grounded "inner" := .step (by decide : trays.parent? "inner" = some "outer") outer
  have tag : trays.Grounded "tag" := .step (by decide : trays.parent? "tag" = some root) .atRoot
  refine ⟨by decide, by decide, by decide, fun n member => ?_⟩
  simp only [trays, List.mem_cons, List.not_mem_nil, or_false] at member
  rcases member with rfl | rfl | rfl
  · exact inner
  · exact outer
  · exact tag

/-- The tag is dropped into the inner tray. -/
theorem dropContainer_trays : (trays.dropContainer (600 / 2, 600 / 2) (some "tag")).toOption = some ("inner" : Text) := by
  have plain := numeric_trays.plain
  have distinct := forest_trays.distinct
  have top : trays.childIds root = [("outer" : Text), "tag"] :=
    childIds_eq plain distinct [trays.nodes[1], trays.nodes[2]] (.refl _) (by decide +kernel)
  have outer : trays.childIds "outer" = [("inner" : Text)] :=
    childIds_eq plain distinct [trays.nodes[0]] (.refl _) (by decide +kernel)
  have inner : trays.childIds "inner" = [] := childIds_eq plain distinct [] (.refl _) .nil
  have order : trays.paintOrder (some "tag") = [("outer" : Text), "inner"] := by
    have apart : ("tag" : Text) ≠ "outer" ∧ ("tag" : Text) ≠ "inner" := by decide
    change trays.preorder (some "tag") 3 root = _
    simp [preorder, top, outer, inner, apart]
  rw [dropContainer, nodeAt, checkAllLayers_plain numeric_trays.plain, order]
  decide +kernel

/-- The label comes into the inner frame. -/
theorem dropContainer_legal_trays : ∃ t, t.parent? "tag" = some ("inner" : Text) ∧
    pointerUp ⟨.int 600, .int 600, .int 1, .int 0, .null, .null⟩ hovering =
      .ok true { hovering with drag := none, store := t } := by
  have inside : ∀ n ∈ trays.nodes, n.IsInside (trays.room n.parent) := by decide +kernel
  obtain ⟨c, isTarget, -, -, released⟩ := dropContainer_legal forest_trays numeric_trays inside
    (d := trays.nodes[2]) (List.getElem_mem _) (600 / 2, 600 / 2)
  have onInner : some c = some "inner" := (congrArg Except.toOption isTarget).symm.trans dropContainer_trays
  obtain rfl := Option.some.inj onInner
  have letsGo : hovering.LetsGo ⟨.int 600, .int 600, .int 1, .int 0, .null, .null⟩ "tag" (600 / 2, 600 / 2) :=
    ⟨⟨_, rfl, rfl, rfl, by decide +kernel⟩, eventWorld_num rfl rfl (by decide +kernel)⟩
  obtain ⟨t, -, isMoved, ran⟩ := (released hovering rfl _ letsGo).2 (by decide)
  exact ⟨t, isMoved, ran⟩

end Stage

end LayoutDesigner
