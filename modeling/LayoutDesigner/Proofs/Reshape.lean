import LayoutDesigner.Resize
import LayoutDesigner.Proofs.Edit
import LayoutDesigner.Proofs.Layers

/-!
# What moving and resizing leaves alone

Clamping, moving and resizing change position and size and nothing else: links, layers and anchors
stay, whether the edit returns or fails on the way.
-/

namespace LayoutDesigner

variable {α : Type}

/-- A typed node has no foreign value to take back. -/
theorem Node.checked_plain {n : Node α} (plain : n.unchecked = []) (a : Attribute) : n.checked a = n := by
  rw [checked, Unchecked.without, plain, List.filter_nil, ← plain]

/-- Putting a typed node back to its own measures changes nothing. -/
theorem Node.setGeometry_geometry {n : Node α} (plain : n.unchecked = []) : n.setGeometry n.geometry = n := by
  cases n
  cases plain
  rfl

/-- The nodes differ at most in position and size. -/
structure Node.Reshaped (n m : Node α) : Prop where
  rest : ∀ g, m.setGeometry g = n.setGeometry g
  plain : n.unchecked = [] → m.unchecked = []

namespace Node.Reshaped

instance : IsPreorder (Node α) Reshaped where
  refl _ := ⟨fun _ => rfl, fun plain => plain⟩
  trans _ _ _ first second :=
    ⟨fun g => (second.rest g).trans (first.rest g), fun plain => second.plain (first.plain plain)⟩

variable {n m : Node α}

/-- What does not depend on position and size is the same. -/
theorem common {β : Type} (reshaped : Reshaped n m) (f : Node α → β)
    (apart : ∀ (n : Node α) g, f (n.setGeometry g) = f n) : f m = f n := by
  rw [← apart m n.geometry, reshaped.rest, apart]

/-- A reshaped node has its link. -/
theorem link (reshaped : Reshaped n m) : m.link = n.link := reshaped.common Node.link fun _ _ => rfl

/-- A reshaped node has its id. -/
theorem id (reshaped : Reshaped n m) : m.id = n.id := reshaped.common Node.id fun _ _ => rfl

/-- A reshaped node has its parent. -/
theorem parent (reshaped : Reshaped n m) : m.parent = n.parent :=
  reshaped.common Node.parent fun _ _ => rfl

/-- A reshaped node has its layer. -/
theorem z (reshaped : Reshaped n m) : m.z = n.z := reshaped.common Node.z fun _ _ => rfl

/-- A reshaped node has its anchor across. -/
theorem anchorX (reshaped : Reshaped n m) : m.anchorX = n.anchorX :=
  reshaped.common Node.anchorX fun _ _ => rfl

/-- A reshaped node has its anchor down. -/
theorem anchorY (reshaped : Reshaped n m) : m.anchorY = n.anchorY :=
  reshaped.common Node.anchorY fun _ _ => rfl

/-- Taking back an unchecked measure changes no other attribute. -/
theorem of_checked {a : Attribute} (isMeasure : a ∈ Attribute.measures)
    (rest : ∀ g, (n.checked a).setGeometry g = m.setGeometry g)
    (unchecked : m.unchecked = n.unchecked.without a) : Reshaped n m where
  rest g := by
    have others : (n.unchecked.without a).filter (fun entry => !Attribute.measures.elem entry.1) =
        n.unchecked.filter fun entry => !Attribute.measures.elem entry.1 := by
      rw [Unchecked.without, List.filter_filter]
      refine List.filter_congr fun entry _ => ?_
      by_cases same : entry.1 = a
      · simp [same, isMeasure]
      · simp [same]
    rw [← rest g]
    simp only [setGeometry, checked, others]
  plain isPlain := by simp [unchecked, isPlain, Unchecked.without]

/-- Putting a node back to typed measures changes no other attribute. -/
theorem setGeometry (n : Node α) {g : Geometry α} (plain : g.unchecked = []) : Reshaped n (n.setGeometry g) where
  rest h := by simp [Node.setGeometry, plain]
  plain isPlain := by simp [Node.setGeometry, plain, isPlain]

/-- Typed nodes that differ at most in position and size. -/
theorem eq_of_plain (reshaped : Reshaped n m) (plain : n.unchecked = [])
    (plain' : m.unchecked = []) : m = { n with x := m.x, y := m.y, w := m.w, h := m.h } := by
  have same := reshaped.rest ⟨m.x, m.y, m.w, m.h, []⟩
  obtain ⟨⟩ := n
  obtain ⟨⟩ := m
  subst plain plain'
  simpa [Node.setGeometry] using same

/-- Another abscissa reshapes a node. -/
theorem setX (n : Node α) (x : α) : Reshaped n (n.setX x) := of_checked (by decide) (fun _ => rfl) rfl

/-- Another ordinate reshapes a node. -/
theorem setY (n : Node α) (y : α) : Reshaped n (n.setY y) := of_checked (by decide) (fun _ => rfl) rfl

/-- Another width reshapes a node. -/
theorem setW (n : Node α) (w : α) : Reshaped n (n.setW w) := of_checked (by decide) (fun _ => rfl) rfl

/-- Another height reshapes a node. -/
theorem setH (n : Node α) (h : α) : Reshaped n (n.setH h) := of_checked (by decide) (fun _ => rfl) rfl

end Node.Reshaped

/-- The property of nodes goes by nothing that a repair changes: position and size, parent, layer. -/
structure Node.Lasting (P : Node α → Prop) : Prop where
  reshaped {n m : Node α} : P n → Reshaped n m → P m
  setParent {n : Node α} (parent : Text) : P n → P (n.setParent parent)
  setZ {n : Node α} (z : Int) : P n → P (n.setZ z)

namespace Node

open Edit (Keeps)

variable [Arith α] {parentW parentH least dx dy handle parentSize : Value α} {start : Geometry α}

/-- Clamping reshapes a node. -/
theorem keeps_clampIn : Keeps Reshaped (clampIn parentW parentH least) :=
  .bind .get fun _ => .bind (.lift _) fun w => .bind (.modify fun n => .setW n w) fun _ =>
    .bind .get fun _ => .bind (.lift _) fun h => .bind (.modify fun n => .setH n h) fun _ =>
    .bind .get fun _ => .bind (.lift _) fun _ => .bind (.lift _) fun _ => .bind (.lift _) fun _ =>
    .bind (.lift _) fun x => .bind (.modify fun n => .setX n x) fun _ =>
    .bind (.lift _) fun y => .modify fun n => .setY n y

/-- Moving reshapes a node. -/
theorem keeps_applyMove : Keeps Reshaped (applyMove start dx dy parentSize least) :=
  .bind (.lift _) fun _ => .bind (.lift _) fun _ => .bind (.lift _) fun x =>
    .bind (.modify fun n => .setX n x) fun _ => .bind (.lift _) fun _ => .bind (.lift _) fun _ =>
    .bind (.lift _) fun y => .bind (.modify fun n => .setY n y) fun _ =>
    .bind (.lift _) fun _ => keeps_clampIn

/-- Resizing reshapes a node. -/
theorem keeps_applyResize : Keeps Reshaped (applyResize start dx dy handle parentSize least) := by
  refine .bind .get fun _ => .bind (.lift _) fun _ => .bind (.lift _) fun _ => .bind (.lift _) fun _ =>
    .bind (.lift _) fun _ => .bind (.lift _) fun _ => .bind (.lift _) fun _ =>
    .bind (.lift _) fun _ => .bind (.lift _) fun _ => .bind (.lift _) fun _ =>
    .bind (.lift _) fun _ => .bind (.lift _) fun _ => .bind (.lift _) fun _ => .bind (.lift _) fun _ =>
    .bind (.modify fun n => .setW n _) fun _ => .bind (.lift _) fun _ => .bind (.lift _) fun _ =>
    .bind (.modify fun n => .setH n _) fun _ => .bind (.lift _) fun _ => .bind (.lift _) fun x =>
    .bind (.modify fun n => .setX n x) fun _ => .bind (.lift _) fun _ => .bind (.lift _) fun y =>
    .bind (.modify fun n => .setY n y) fun _ => .bind (.lift _) fun _ => keeps_clampIn

end Node

namespace Store

open Edit (Keeps)

/-- The stores differ at most in the positions and sizes of their nodes. -/
def Reshaped (s t : Store α) : Prop := Pointwise Node.Reshaped s t

namespace Reshaped

instance : IsPreorder (Store α) Reshaped where
  refl s := Pointwise.refl (fun n => refl_of Node.Reshaped n) s
  trans _ _ _ := Pointwise.trans fun first second => trans_of Node.Reshaped first second

variable {s t : Store α} {parent : Text}

/-- A reshaped store has its links. -/
theorem links (reshaped : Reshaped s t) : t.links = s.links :=
  reshaped.map_eq fun _ _ step => step.link

/-- A reshaped store has its ids. -/
theorem ids (reshaped : Reshaped s t) : t.ids = s.ids := ids_congr reshaped.links

/-- A reshaped store is plain if it was before. -/
theorem isPlain (reshaped : Reshaped s t) (plain : s.IsPlain) : t.IsPlain :=
  plain.pointwise reshaped fun _ _ step => step.plain

/-- The children of a parent stay on their layers. -/
theorem layers (reshaped : Reshaped s t) :
    (t.children parent).map Node.z = (s.children parent).map Node.z :=
  Pointwise.map_children reshaped (fun _ _ step => step.parent) fun _ _ _ step _ => step.z

/-- A reshaped store is layered where it was before. -/
theorem layered (reshaped : Reshaped s t) (layered : s.Layered parent) : t.Layered parent :=
  layered.congr reshaped.layers

/-- Children stay in drawing order. -/
theorem childIds [Arith α] (reshaped : Reshaped s t) (plain : s.IsPlain) :
    t.childIds parent = s.childIds parent :=
  Pointwise.childIds reshaped plain (reshaped.isPlain plain) (fun _ _ step => step.parent)
    (fun _ _ step => step.z) fun _ _ step => step.id

end Reshaped

variable {s : Store α} {id : Text} {n : Node α}

section

variable {edit : Edit (Node α) Unit} {done : Unit → Store α → Prop} {failed : Fault → Store α → Prop}

/-- An edit of a node that is not there does nothing. -/
theorem ends_onNode_of_missing (missing : s.find? id = none) :
    (onNode id edit).Ends s done failed ↔ done () s := by
  simp only [Edit.Ends, onNode, missing]

/-- An edit of a node that is there ends as on this node, which is put back. -/
theorem ends_onNode_of_found (found : s.find? id = some n) :
    (onNode id edit).Ends s done failed ↔
      edit.Ends n (fun _ m => done () (s.put m)) fun fault m => failed fault (s.put m) := by
  simp only [Edit.Ends, onNode, found]
  cases edit n <;> rfl

variable [Arith α] {least : Value α}

/-- Clamping a node that is not there does nothing. -/
theorem ends_clampNode_of_missing (missing : s.find? id = none) :
    (clampNode id least).Ends s done failed ↔ done () s := by
  simp only [Edit.Ends, clampNode, missing]

/-- Clamping a node that is there clamps it in the room of its parent and puts it back. -/
theorem ends_clampNode_of_found (found : s.find? id = some n) :
    (clampNode id least).Ends s done failed ↔
      (Node.clampIn (s.parentSize n.parent).1 (s.parentSize n.parent).2 least).Ends n
        (fun _ m => done () (s.put m)) fun fault m => failed fault (s.put m) := by
  rw [← ends_onNode_of_found found]
  simp only [Edit.Ends, clampNode, found]

end

/-- Putting back a reshaped node reshapes the store. -/
theorem Reshaped.put {m : Node α} (found : s.find? id = some n) (step : Node.Reshaped n m) :
    Reshaped s (s.put m) :=
  Pointwise.put (fun n => refl_of Node.Reshaped n) ((step.id.trans (id_of_find? found)) ▸ found) step

/-- An edit that reshapes a node reshapes the store. -/
theorem keeps_onNode {edit : Edit (Node α) Unit} (keeps : Keeps Node.Reshaped edit) :
    Keeps Reshaped (onNode id edit) := by
  intro s
  cases found : s.find? id with
  | none => exact (ends_onNode_of_missing found).mpr (refl_of Reshaped s)
  | some n =>
      rw [ends_onNode_of_found found]
      exact (keeps n).mono (fun _ _ => Reshaped.put found) fun _ _ => Reshaped.put found

variable [Arith α] {least : Value α}

/-- Clamping a node reshapes the store. -/
theorem keeps_clampNode : Keeps Reshaped (clampNode id least) := by
  intro s
  cases found : s.find? id with
  | none => exact (ends_clampNode_of_missing found).mpr (refl_of Reshaped s)
  | some n =>
      rw [ends_clampNode_of_found found]
      exact (Node.keeps_clampIn n).mono (fun _ _ => Reshaped.put found) fun _ _ => Reshaped.put found

/-- Clamping a queue of nodes reshapes the store. -/
theorem keeps_clampQueue (bound : Nat) (queue : List Text) :
    Keeps Reshaped (clampQueue least bound queue) := by
  induction bound generalizing queue with
  | zero =>
      cases queue with
      | nil => exact .pure ()
      | cons id rest => exact .throw .endless
  | succ bound ih =>
      cases queue with
      | nil => exact .pure ()
      | cons id rest =>
          refine .bind .get fun s => .ite ?_ (ih rest)
          exact .bind keeps_clampNode fun _ => .bind .get fun s => ih _

/-- Clamping a subtree reshapes the store. -/
theorem keeps_clampSubtree : Keeps Reshaped (clampSubtree id least) :=
  .bind .get fun _ => .bind (.lift _) fun _ => keeps_clampQueue _ _

end Store

end LayoutDesigner
