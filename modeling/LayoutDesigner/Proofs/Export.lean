import LayoutDesigner.Proofs.Legible
import LayoutDesigner.Proofs.MeasuredStore
import LayoutDesigner.Proofs.Rebuild

/-!
# Which designs have a script

A script gives every number of a node, so it can be written where these fit: the measures, what a
node looks like, its layer, and what is read from the properties of its extensions.
-/

namespace LayoutDesigner

open Arith
open Script (Expr)

variable {α : Type} [Arith α]

/-- What a script says of the node beside its measures, its layer and its extensions fits. -/
structure Node.IsStyled (n : Node α) : Prop where
  bgAlpha : IsReal n.bgAlpha
  canvasW : Fits (Arith.ofInt n.canvasW : α)
  canvasH : Fits (Arith.ofInt n.canvasH : α)
  scrollbarThickness : Fits (Arith.ofInt n.scrollbarThickness : α)

/-- That the style of a node fits lasts through a repair. -/
theorem Node.IsStyled.lasting : Node.Lasting (Node.IsStyled (α := α)) where
  reshaped styled reshaped := {
    bgAlpha := reshaped.common Node.bgAlpha (fun _ _ => rfl) ▸ styled.bgAlpha
    canvasW := reshaped.common Node.canvasW (fun _ _ => rfl) ▸ styled.canvasW
    canvasH := reshaped.common Node.canvasH (fun _ _ => rfl) ▸ styled.canvasH
    scrollbarThickness := reshaped.common Node.scrollbarThickness (fun _ _ => rfl) ▸ styled.scrollbarThickness }
  setParent _ styled := { styled with }
  setZ _ styled := { styled with }

/-- Over the rationals everything fits. -/
theorem Node.isStyled_rational (n : Node ℚ) : n.IsStyled := ⟨rfl, ⟨_, rfl⟩, ⟨_, rfl⟩, ⟨_, rfl⟩⟩

/-- The layers of all nodes fit, and their extensions are legible. -/
def Store.IsExportable (s : Store α) : Prop :=
  ∀ n ∈ s.nodes, Fits (Arith.ofInt n.z : α) ∧ ∀ e ∈ n.extensions, e.IsLegible

instance {s : Store α} : Decidable s.IsExportable :=
  inferInstanceAs (Decidable (∀ n ∈ s.nodes, Fits (Arith.ofInt n.z : α) ∧ ∀ e ∈ n.extensions, e.IsLegible))

variable [Lawful α]

/-- Numbers that fit are written as offsets along both axes. -/
theorem roundedOffsets_ok {x y : α} (xFits : Fits x) (yFits : Fits y) :
    ∃ e, Expr.roundedOffsets (.num x) (.num y) = .ok e := by
  obtain ⟨i, isX, -⟩ := roundHalfUp_ok xFits
  obtain ⟨j, isY, -⟩ := roundHalfUp_ok yFits
  exact ⟨_, bind_eq_ok.mpr ⟨i, isX, bind_eq_ok.mpr ⟨j, isY, rfl⟩⟩⟩

namespace Node

variable {n : Node α}

omit [Lawful α] in
/-- What a typed node shows of an attribute. -/
theorem written_plain (plain : n.unchecked = []) (a : Attribute) :
    n.written a = ({ n with unchecked := [] } : Node α).written a := by
  simp only [written, plain]

omit [Lawful α] in
/-- The texts of a plain node can be written. -/
theorem textAssignments_ok (plain : n.unchecked = []) : ∃ assignments, n.textAssignments = .ok assignments := by
  have channels : ∀ c : Rgb, ∃ e, Expr.ofChannels (.arr (c.channels : List (Value α))) = .ok e := fun _ => ⟨_, rfl⟩
  rw [textAssignments, written_plain plain .textColor]
  exact exists_ok_bind (channels n.textColor) fun _ => ⟨_, rfl⟩

omit [Lawful α] in
/-- The image of a plain node can be written. -/
theorem imageAssignments_ok (plain : n.unchecked = []) : ∃ assignments, n.imageAssignments = .ok assignments := by
  rw [imageAssignments, written_plain plain .image]
  exact ⟨_, rfl⟩

/-- The canvas and the scroll bar of a plain node whose style fits can be written. -/
theorem scrollAssignments_ok (plain : n.unchecked = []) (styled : n.IsStyled) :
    ∃ assignments, n.scrollAssignments = .ok assignments := by
  rw [scrollAssignments, written_plain plain .canvasWidth, written_plain plain .canvasHeight,
    written_plain plain .scrollbarThickness]
  exact exists_ok_bind (roundedOffsets_ok styled.canvasW styled.canvasH) fun _ =>
    exists_ok_bind (rounded_ok styled.scrollbarThickness).2 fun _ => ⟨_, rfl⟩

/-- The transparency of a plain node whose style fits can be computed. -/
theorem transparency_ok (plain : n.unchecked = []) (styled : n.IsStyled) :
    ∃ x, n.transparency = .ok x := by
  obtain ⟨rest, isRest⟩ := Lawful.sub_ok (Lawful.fits_ofInt (n := 1) (by decide)) styled.bgAlpha.fits
  exact ⟨_, bind_eq_ok.mpr ⟨(), needNumbers_plain plain _, bind_eq_ok.mpr ⟨rest, isRest, rfl⟩⟩⟩

/-- The lines that only nodes of some kinds have can be written. -/
theorem kindAssignments_ok (plain : n.unchecked = []) (styled : n.IsStyled) :
    (∃ texts, (if n.kind.isTextual then n.textAssignments else .ok []) = .ok texts) ∧
      (∃ images, (if n.kind.isImageLike then n.imageAssignments else .ok []) = .ok images) ∧
      ∃ scrolls, (if n.kind.isScrollable then n.scrollAssignments else .ok []) = .ok scrolls := by
  refine ⟨?_, ?_, ?_⟩
  · split
    · exact textAssignments_ok plain
    · exact ⟨_, rfl⟩
  · split
    · exact imageAssignments_ok plain
    · exact ⟨_, rfl⟩
  · split
    · exact scrollAssignments_ok plain styled
    · exact ⟨_, rfl⟩

variable [Refuses α]

/-- The layer of a node is written exactly where it fits. -/
theorem reads_layer (z : Int) : ReadsWhen (Expr.rounded (.int z : Value α)) (Fits (Arith.ofInt z : α)) := by
  have legible : (Value.int z : Value α).IsLegible ↔ Fits (Arith.ofInt z : α) := by
    simp [Value.IsLegible, Value.int]
  have rounded : ReadsWhen (Value.int z : Value α).roundHalfUp (Fits (Arith.ofInt z : α)) :=
    ((Value.reads_toNumber isReal_zero.fits).congr legible).mapped
  exact rounded.map

/-- What all kinds have in common can be written exactly where the layer fits. -/
theorem reads_commonAssignments (measured : n.IsMeasured) (styled : n.IsStyled) :
    ReadsWhen n.commonAssignments (Fits (Arith.ofInt n.z : α)) := by
  obtain ⟨size, isSize⟩ := roundedOffsets_ok measured.w measured.h
  obtain ⟨dx, dy, left, top, isDx, isDy, isLeft, isTop, leftReal, topReal⟩ := measured.corner_ok
  obtain ⟨position, isPosition⟩ := roundedOffsets_ok leftReal.fits topReal.fits
  obtain ⟨anchorX, isAnchorX⟩ := scriptNumeral_ok measured.anchorX.fits
  obtain ⟨anchorY, isAnchorY⟩ := scriptNumeral_ok measured.anchorY.fits
  obtain ⟨transparency, isTransparency⟩ := transparency_ok measured.plain styled
  have color : ∃ e, Expr.ofChannels (n.written .bgColor) = .ok e := by
    rw [written_plain measured.plain]
    exact ⟨_, rfl⟩
  obtain ⟨color, isColor⟩ := color
  rw [commonAssignments, show n.written .zIndex = .int n.z from written_plain measured.plain _]
  refine .known isSize <| .known (needNumbers_plain measured.plain _) <| .known isDx <| .known isLeft <|
    .known isDy <| .known isTop <| .known isPosition <| .known isAnchorX <| .known isAnchorY <|
    (reads_layer n.z).then_ok fun _ _ => ?_
  exact ⟨_, bind_eq_ok.mpr ⟨color, isColor, bind_eq_ok.mpr ⟨transparency, isTransparency, rfl⟩⟩⟩

/-- A node can be written exactly where its layer fits. -/
theorem reads_assignments (measured : n.IsMeasured) (styled : n.IsStyled) :
    ReadsWhen n.assignments (Fits (Arith.ofInt n.z : α)) := by
  rw [Script.assignments_eq]
  refine (reads_commonAssignments measured styled).then_ok fun common _ => ?_
  obtain ⟨texts, images, scrolls⟩ := kindAssignments_ok measured.plain styled
  exact exists_ok_bind texts fun _ => exists_ok_bind images fun _ => exists_ok_bind scrolls fun _ => ⟨_, rfl⟩

end Node

namespace Script

variable {s : Store α} {p : Project α}

/-- A node can be written exactly where its layer fits and its extensions are legible. -/
theorem isWritable_iff [Refuses α] {n : Node α} (measured : n.IsMeasured) (styled : n.IsStyled) (nested : Bool) :
    IsWritable nested n ↔ Fits (Arith.ofInt n.z : α) ∧ ∀ e ∈ n.extensions, e.IsLegible := by
  have assigned := (Node.reads_assignments measured styled).returns
  constructor
  · intro writable
    exact ⟨assigned.mp writable.assignments, fun e listed =>
      Extension.reads_assignments.returns.mp (writable.extensions e listed)⟩
  · rintro ⟨fits, legible⟩
    exact ⟨fun _ => Node.calledText_plain measured.plain, assigned.mpr fits, fun e listed =>
      Extension.reads_assignments.returns.mpr (legible e listed)⟩

omit [Lawful α] in
/-- The screen of a typed project has a name. -/
theorem exists_screenName (typed : p.IsTyped) : ∃ name, screenName p = .ok name := by
  obtain ⟨name, isName⟩ := typed.guiName
  exact ⟨_, by rw [screenName, isName]⟩

/-- **Which designs have a script.** Where measures and looks fit and the project is typed, there is a
script exactly where the layers fit and the extensions are legible. -/
theorem generate_ok_iff [Refuses α] (forest : s.IsForest) (measured : s.IsMeasured) (styled : s.All Node.IsStyled)
    (typed : p.IsTyped) : (∃ text, generate s p = .ok text) ↔ s.IsExportable := by
  have whole : (∃ text, generate s p = .ok text) ↔ ∃ script, ofStore s p = .ok script :=
    ⟨fun ⟨_, ran⟩ => (bind_eq_ok.mp ran).imp fun _ both => both.1, fun ⟨script, ran⟩ =>
      ⟨_, bind_eq_ok.mpr ⟨script, ran, rfl⟩⟩⟩
  rw [whole, ofStore_ok_iff forest p]
  rw [and_iff_right (exists_screenName typed), and_iff_right (Store.checkAllLayers_plain measured.isPlain)]
  exact forall₂_congr fun n isNode => isWritable_iff (measured.nodes n isNode) (styled n isNode) _

/-- A script is made where all that it says of the nodes fits and is legible, also of nodes that do not hang
in a tree. -/
theorem exists_generate [Refuses α] (measured : s.IsMeasured) (styled : s.All Node.IsStyled)
    (typed : p.IsTyped) (exportable : s.IsExportable) : ∃ text, generate s p = .ok text := by
  obtain ⟨first, isFirst⟩ := (header_ok p).mpr (exists_screenName typed)
  obtain ⟨rest, isRest⟩ := (treeStatements_ok s { counted := p.isNested } (writingOrder s)).mpr
    fun id _ n found => (isWritable_iff (measured.of_find? found) (styled n (Store.mem_of_find? found)) _).mpr
      (exportable n (Store.mem_of_find? found))
  have checked := Store.checkAllLayers_plain measured.isPlain
  exact ⟨_, bind_eq_ok.mpr ⟨_, ofStore_iff.mpr ⟨first, rest, isFirst, checked, isRest, rfl⟩, rfl⟩⟩

end Script

end LayoutDesigner
