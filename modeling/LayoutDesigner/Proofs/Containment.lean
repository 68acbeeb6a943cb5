import LayoutDesigner.Proofs.Fitting
import LayoutDesigner.Proofs.Housed
import Mathlib.Tactic.Linarith
import Mathlib.Tactic.MkIffOfInductiveProp

/-!
# Nodes inside their parents

A node lies in a box where its sides are neither below the least one nor above those of the box, and
where the box of the node, held at its anchor, is inside. A store is contained where every node lies
in the box of its parent. This is one way to fit a box, and over the rationals clamping a node makes
it lie in its box, so every edit keeps a store contained.
-/

namespace LayoutDesigner

/-- A side lies in a room: it is not below the least side, and both its ends are inside. -/
@[mk_iff]
structure Lies (room anchor side place : ℚ) : Prop where
  least : leastSide ≤ side
  most : side ≤ room
  low : anchor * side ≤ place
  high : place ≤ room - (1 - anchor) * side

instance (room anchor side place : ℚ) : Decidable (Lies room anchor side place) :=
  decidable_of_iff' _ (lies_iff ..)

/-- A box has room for a node of the least sides. -/
def IsRoomy (room : ℚ × ℚ) : Prop := leastSide ≤ room.1 ∧ leastSide ≤ room.2

instance (room : ℚ × ℚ) : Decidable (IsRoomy room) := inferInstanceAs (Decidable (_ ∧ _))

/-- What lies in a room that is large enough is any side after clamping. -/
theorem lies_boxed {room : ℚ} (roomy : leastSide ≤ room) (anchor side place : ℚ) :
    Lies room anchor (Node.boxedSide room side) (Node.boxedPlace room anchor (Node.boxedSide room side) place) :=
  have housed : Housed leastSide room anchor _ _ := housed_roundedInto roomy rfl
  ⟨housed.least, housed.most, housed.low, housed.high⟩

namespace Node

variable {n m : Node ℚ}

/-- The node lies in a box of the given sides. -/
@[mk_iff]
structure LiesIn (n : Node ℚ) (room : ℚ × ℚ) : Prop where
  x : Lies room.1 n.anchorX n.w n.x
  y : Lies room.2 n.anchorY n.h n.y

instance (n : Node ℚ) (room : ℚ × ℚ) : Decidable (n.LiesIn room) := decidable_of_iff' _ (liesIn_iff ..)

/-- Whether a node lies in a box goes by its place, its sides and its anchor alone. -/
theorem LiesIn.congr {room : ℚ × ℚ} (lies : n.LiesIn room) (same : m.placing = n.placing) : m.LiesIn room := by
  simp only [placing, Placing.mk.injEq, Prod.mk.injEq] at same
  obtain ⟨-, ⟨anchorX, anchorY⟩, ⟨w, h⟩, x, y⟩ := same
  exact ⟨anchorX ▸ w ▸ x ▸ lies.x, anchorY ▸ h ▸ y ▸ lies.y⟩

/-- Where a node lies there is room. -/
theorem LiesIn.isRoomy {room : ℚ × ℚ} (lies : n.LiesIn room) : IsRoomy (n.w, n.h) :=
  ⟨lies.x.least, lies.y.least⟩

/-- A node that was put into a box lies in it. -/
theorem liesIn_boxed {room : ℚ × ℚ} (roomy : IsRoomy room) (n : Node ℚ) : (n.boxed room).LiesIn room :=
  ⟨lies_boxed roomy.1 .., lies_boxed roomy.2 ..⟩

end Node

/-- The sides of a box as far as they are numbers. -/
def sides (room : Value ℚ × Value ℚ) : ℚ × ℚ := (room.1.number?.getD 0, room.2.number?.getD 0)

/-- The sides of a box with room for a node are numbers. -/
theorem eq_num_of_isRoomy {room : Value ℚ × Value ℚ} (roomy : IsRoomy (sides room)) :
    room = (.num (sides room).1, .num (sides room).2) := by
  have number : ∀ v : Value ℚ, leastSide ≤ v.number?.getD 0 → v = .num (v.number?.getD 0) := by
    intro v large
    have none : ¬(leastSide : ℚ) ≤ 0 := by decide
    cases v with
    | num r => rfl
    | bool b => cases b <;> exact absurd large (by decide)
    | null | str | arr | obj => exact absurd large none
  exact Prod.ext (number _ roomy.1) (number _ roomy.2)

/-- To lie in a box is one way to fit it. -/
def lying : Fitting ℚ where
  Surface room := IsRoomy (sides room)
  Roomy room := IsRoomy (sides room)
  Fits n room := n.LiesIn (sides room)
  congr same lies := lies.congr same
  surface roomy := roomy
  roomy lies := lies.isRoomy

/-- Clamping makes a node lie in its parent's box. -/
theorem clampedBy_lying : lying.ClampedBy (.int leastSide) := by
  intro n room plain roomy
  rw [eq_num_of_isRoomy roomy, Edit.ends_of_ok (Node.clampIn_num plain (sides room))]
  exact Node.liesIn_boxed roomy n

namespace Store

/-- Every node lies in the box of its parent, and the surface has room for a node. -/
@[mk_iff]
structure IsContained (s : Store ℚ) : Prop where
  roomy : IsRoomy (s.room root)
  nodes : ∀ n ∈ s.nodes, n.LiesIn (s.room n.parent)

instance (s : Store ℚ) : Decidable s.IsContained := decidable_of_iff' _ (isContained_iff s)

variable {s : Store ℚ} {id other parent : Text} {n : Node ℚ}

/-- A store is fitted to lie exactly where it is contained. -/
theorem isFitted_lying_iff : s.IsFitted lying ↔ s.IsContained := by
  have canvas : s.room root = sides (s.canvasW, s.canvasH) := congrArg sides (parentSize_eq_canvas (.inl rfl))
  rw [isContained_iff, canvas]
  exact ⟨fun fitted => ⟨fitted.surface, fitted.nodes⟩, fun contained => ⟨contained.1, contained.2⟩⟩

/-- A store that is fitted to lie is contained. -/
theorem IsFitted.isContained (fitted : s.IsFitted lying) : s.IsContained := isFitted_lying_iff.mp fitted

/-- A contained store is fitted to lie. -/
theorem IsContained.isFitted (contained : s.IsContained) : s.IsFitted lying := isFitted_lying_iff.mpr contained

/-- An edit that keeps a store fitted keeps it contained; it fails no otherwise than is known. -/
theorem IsContained.ends_of_fitted {β : Type} {edit : Edit (Store ℚ) β} {done : β → Store ℚ → Prop}
    {failed failed' : Fault → Store ℚ → Prop} (contained : s.IsContained)
    (fitted : s.IsFitted lying → edit.Ends s (fun _ t => t.IsFitted lying) failed')
    (known : edit.Ends s done failed) : edit.Ends s (fun _ t => t.IsContained) failed :=
  ((fitted contained.isFitted).and known).mono (fun _ _ both => both.1.isContained) fun _ _ both => both.2

/-- A placed node is put into the box of its parent. -/
theorem contained_place (contained : s.IsContained) (forest : s.IsForest) (numeric : s.IsNumeric)
    (plain : n.unchecked = []) (under : n.parent = root ∨ n.parent ∈ s.ids) (fresh : n.id ∉ s.ids) :
    (Store.place n).Ends s (fun _ t => t.IsContained) fun _ _ => False :=
  contained.ends_of_fitted (fun fitted => fitted_place clampedBy_lying fitted forest numeric.plain plain under)
    (ends_place numeric.isMeasured (Node.isMeasured_of_plain plain) fresh)

/-- A duplicate is put into the box of the parent; there is none of a node that cannot be copied. -/
theorem contained_duplicate {newId : Text} {offset : ℚ} {extensionId : Option (Nat → Text)} {depth : Nat}
    (contained : s.IsContained) (forest : s.IsForest) (numeric : s.IsNumeric) (fresh : newId ∉ s.ids) :
    (duplicate id newId (.num offset) extensionId depth).Ends s (fun _ t => t.IsContained) fun _ t =>
      t = s ∧ ∃ n, s.find? id = some n ∧ ¬n.IsCopyableWhole depth := by
  unfold duplicate
  simp only [Edit.ends_bind, Edit.ends_get]
  split
  · exact contained
  · next n found =>
      have isNode := mem_of_find? found
      have isPlain := numeric.plain n isNode
      simp only [Edit.ends_bind, Edit.ends_pure]
      by_cases copyable : n.IsCopyableWhole depth
      case neg => exact Edit.ends_lift_error (copyOf_tooDeep copyable newId) ⟨rfl, n, found, copyable⟩
      obtain ⟨m, copied⟩ : ∃ m, s.copyOf n newId (.num offset) depth = .ok m :=
        exists_copyOf numeric.plain isPlain copyable rfl rfl rfl newId
      obtain ⟨sameId, sameParent, -, isPlain', -⟩ := copyOf_ok numeric.plain isPlain copied
      have under : m.parent = root ∨ m.parent ∈ s.ids := sameParent ▸ forest.parent_known isNode
      -- Giving the extensions of the copy new ids changes nothing that placing it looks at.
      have placed : ∀ k : Node ℚ, k.id = newId → k.parent = m.parent → k.unchecked = [] →
          (Store.place k).Ends s (fun _ t => t.IsContained) fun _ t =>
            t = s ∧ ∃ n, s.find? id = some n ∧ ¬n.IsCopyableWhole depth := fun k isNew beside plain =>
        (contained_place contained forest numeric plain (beside ▸ under) (isNew ▸ fresh)).mono
          (fun _ _ contained => contained) fun _ _ fails => fails.elim
      refine Edit.ends_lift_ok copied ?_
      split
      · exact placed m sameId rfl isPlain'
      · exact placed _ sameId rfl isPlain'

/-- **Edits keep nodes inside their parents.** In a forest of typed nodes, each in the box of its
parent, every edit of the hierarchy and of a property leaves each node in the box of its parent. None
of them fails but creating what is no kind, duplicating a node that cannot be copied, and writing what
cannot be read; these change nothing. -/
theorem contained_edits (s : Store ℚ) (forest : s.IsForest) (numeric : s.IsNumeric) (contained : s.IsContained) :
    (∀ kind id parent, id ∉ s.ids →
      parent = root ∨ (∃ p ∈ s.nodes, p.id = parent ∧ p.kind.isContainer) →
      (createNode kind id parent).Ends s (fun _ t => t.IsContained) fun _ t =>
        t = s ∧ ∀ k : Kind, kind ≠ .str k.name) ∧
    (∀ id parent, (reparent id parent).Ends s (fun _ t => t.IsContained) fun _ _ => False) ∧
    (∀ id other position,
      (reorderRelative id other position).Ends s (fun _ t => t.IsContained) fun _ _ => False) ∧
    (∀ id up, (swapWithNeighbor id up).Ends s (fun _ t => t.IsContained) fun _ _ => False) ∧
    (∀ id, (deleteSubtree id).Ends s (fun _ t => t.IsContained) fun _ _ => False) ∧
    (∀ id newId offset extensionId depth, newId ∉ s.ids →
      (duplicate id newId (.num offset) extensionId depth).Ends s (fun _ t => t.IsContained) fun _ t =>
        t = s ∧ ∃ n, s.find? id = some n ∧ ¬n.IsCopyableWhole depth) ∧
    ∀ id name v, (applyField id name v).Ends s (fun _ t => t.IsContained) fun _ t => t = s := by
  refine ⟨fun kind id parent fresh under => ?_, fun id parent => ?_, fun id other position => ?_, fun id up => ?_,
    fun id => ?_, fun id newId offset extensionId depth fresh => ?_, fun id name v => ?_⟩
  · have known := under.imp_right fun ⟨p, isNode, same, _⟩ => same ▸ id_mem_ids isNode
    have created : (createNode kind id parent).Ends s (fun _ t => t.IsContained) fun _ t => t = s :=
      (fitted_createNode clampedBy_lying contained.isFitted forest numeric.plain known).mono
        (fun _ _ fitted => fitted.isContained) fun _ _ same => same
    by_cases named : ∃ k : Kind, kind = .str k.name
    · obtain ⟨k, rfl⟩ := named
      exact (created.and (ends_createNode numeric.isMeasured fresh k parent)).mono (fun _ _ both => both.1)
        fun _ _ both => both.2.elim
    · exact created.mono (fun _ _ contained => contained) fun _ _ same =>
        ⟨same, fun k isName => named ⟨k, isName⟩⟩
  · exact contained.ends_of_fitted (fun fitted => (fitted_reparent clampedBy_lying fitted forest numeric.plain).mono
      (fun _ _ after => after.1) fun _ _ _ => trivial) (measured_reparent forest numeric.isMeasured)
  · exact contained.ends_of_fitted (fun fitted => fitted_reorderRelative clampedBy_lying fitted forest numeric.plain position)
      (measured_reorderRelative forest numeric.isMeasured position)
  · exact (fitted_swapWithNeighbor contained.isFitted numeric.plain up).mono
      (fun _ _ fitted => fitted.isContained) fun _ _ fails => fails
  · exact (fitted_deleteSubtree contained.isFitted forest numeric.plain).mono
      (fun _ _ fitted => fitted.isContained) fun _ _ fails => fails
  · exact contained_duplicate contained forest numeric fresh
  · exact contained.ends_of_fitted (fun fitted => fitted_applyField clampedBy_lying fitted forest numeric.plain)
      (measured_applyField forest numeric.isMeasured)

/-- A frame with another one inside that touches one of its edges. -/
def nested : Store ℚ :=
  let frame (id parent : Text) (side place : ℚ) : Node ℚ :=
    { id, kind := .frame, name := Kind.frame.name, parent, x := place, y := place, w := side, h := side
      anchorX := 1 / 2, anchorY := 0, z := 1, bgColor := Rgb.white, bgAlpha := 1, border := false
      text := [], textColor := Rgb.white, textScaled := false, font := defaultFont, image := []
      canvasW := 0, canvasH := 0, scrollbarThickness := 8, extensions := [] }
  { canvasW := .num (981 / 2), canvasH := .num 310
    nodes := [frame "inner" "outer" 45 (45 / 2), frame "outer" root 91 (91 / 2)] }

/-- The inner frame goes to the front of the canvas, and the outer one is made narrower than it. -/
theorem contained_edits_nested :
    (reparent "inner" root).Ends nested (fun _ t => t.IsContained) (fun _ _ => False) ∧
      (applyField "outer" "w" (.num 30)).Ends nested (fun _ t => t.IsContained) fun _ t => t = nested := by
  have outer : nested.parent? "outer" = some root := by decide
  have inner : nested.parent? "inner" = some "outer" := by decide
  have forest : nested.IsForest := by
    refine ⟨by decide, by decide, fun n member => ?_, fun n member => ?_⟩ <;>
      simp only [nested, List.mem_cons, List.not_mem_nil, or_false] at member <;>
      rcases member with rfl | rfl
    · exact .inr ⟨_, List.mem_cons_of_mem _ List.mem_cons_self, rfl, rfl⟩
    · exact .inl rfl
    · exact .step inner (.step outer .atRoot)
    · exact .step outer .atRoot
  have numeric : nested.IsNumeric := by
    refine ⟨fun n member => ?_, ⟨_, rfl⟩, ⟨_, rfl⟩⟩
    simp only [nested, List.mem_cons, List.not_mem_nil, or_false] at member
    rcases member with rfl | rfl <;> rfl
  have contained : nested.IsContained := by decide +kernel
  obtain ⟨-, moves, -, -, -, -, writes⟩ := contained_edits nested forest numeric contained
  exact ⟨moves "inner" root, writes "outer" "w" (.num 30)⟩

end Store

end LayoutDesigner
