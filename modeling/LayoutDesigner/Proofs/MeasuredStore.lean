import LayoutDesigner.Hierarchy
import LayoutDesigner.Proofs.Faithful
import LayoutDesigner.Proofs.Repair
import LayoutDesigner.Proofs.Sweep

/-!
# Stores whose measures fit

Where the measures of all nodes and the sides of the surface fit, nothing that is computed along
the links of a forest fails: a node can be found on the canvas, everything below a node can be
clamped, and a repair returns.
-/

namespace LayoutDesigner

open Arith

variable {α : Type} [Arith α]

/-- The measures of the nodes and the sides of the surface fit. -/
structure Store.IsMeasured (s : Store α) : Prop where
  nodes : ∀ n ∈ s.nodes, n.IsMeasured
  canvasW : s.canvasW.IsMeasure
  canvasH : s.canvasH.IsMeasure

namespace Store

variable {s t : Store α} {id parent : Text} {n m : Node α} {least : Value α} {ids : List Text}

/-- Where every number is a real, the measures of typed nodes fit. -/
theorem isMeasured_of_plain [Faithful α] (plain : s.IsPlain) (width : s.canvasW.IsMeasure)
    (height : s.canvasH.IsMeasure) : s.IsMeasured :=
  ⟨fun n isNode => Node.isMeasured_of_plain (plain n isNode), width, height⟩

namespace IsMeasured

/-- The nodes of a measured store are plain. -/
theorem isPlain (measured : s.IsMeasured) : s.IsPlain := fun n member => (measured.nodes n member).plain

/-- What is found in a measured store is measured. -/
theorem of_find? (measured : s.IsMeasured) (found : s.find? id = some n) : n.IsMeasured :=
  measured.nodes n (mem_of_find? found)

/-- A change of one node that keeps it measured keeps the store measured. -/
theorem modifyNode {f : Node α → Node α} (measured : s.IsMeasured) (id : Text)
    (changed : ∀ n, n.IsMeasured → (f n).IsMeasured) : (s.modifyNode id f).IsMeasured where
  nodes := All.modifyNode measured.nodes id changed
  canvasW := measured.canvasW
  canvasH := measured.canvasH

/-- Numbering keeps a store measured. -/
theorem numberBy (measured : s.IsMeasured) : (s.numberBy ids).IsMeasured where
  nodes := All.numberBy measured.nodes fun _ z isMeasured => isMeasured.setZ z
  canvasW := measured.canvasW
  canvasH := measured.canvasH

/-- Renumbering siblings keeps a store measured. -/
theorem normalizeZ (measured : s.IsMeasured) : (s.normalizeZ parent).IsMeasured := measured.numberBy

/-- Putting back a measured node keeps a store measured. -/
theorem put (measured : s.IsMeasured) (isMeasured : m.IsMeasured) : (s.put m).IsMeasured where
  nodes := All.put measured.nodes isMeasured
  canvasW := measured.canvasW
  canvasH := measured.canvasH

end IsMeasured

/-- The room of every parent in a measured store is of two measures. -/
theorem parentSize_isMeasure (measured : s.IsMeasured) (parent : Text) :
    (s.parentSize parent).1.IsMeasure ∧ (s.parentSize parent).2.IsMeasure := by
  rw [parentSize]
  split
  · exact ⟨measured.canvasW, measured.canvasH⟩
  · split
    · next p found =>
        have isMeasured := measured.of_find? found
        simp only [Node.written, isMeasured.plain, Unchecked.value?]
        exact ⟨Value.isMeasure_num.mpr isMeasured.w, Value.isMeasure_num.mpr isMeasured.h⟩
    · exact ⟨measured.canvasW, measured.canvasH⟩

/-- Cutting links keeps a store measured. -/
theorem IsMeasured.cutWhere {broken : Store α → Node α → Bool} (measured : s.IsMeasured) (ids : List Text) :
    (cutWhere broken ids s).2.IsMeasured where
  nodes := All.cutWhere measured.nodes (fun _ isMeasured => isMeasured.setParent root) ids
  canvasW := (isCut_cutWhere ids s).width ▸ measured.canvasW
  canvasH := (isCut_cutWhere ids s).height ▸ measured.canvasH

variable [Lawful α]

/-- Both coordinates are reals. -/
def IsRealPoint (p : Point α) : Prop := IsReal p.1 ∧ IsReal p.2

/-- The origin is a real point. -/
theorem isRealPoint_origin : IsRealPoint (origin : Point α) := ⟨isReal_zero, isReal_zero⟩

/-- A real point can be moved by what fits. -/
theorem add_ok {p q : Point α} (real : IsRealPoint p) (xFits : Fits q.1) (yFits : Fits q.2) :
    ∃ r, Point.add p q = .ok r ∧ IsRealPoint r := by
  obtain ⟨x, isX⟩ := Lawful.add_ok real.1.fits xFits
  obtain ⟨y, isY⟩ := Lawful.add_ok real.2.fits yFits
  refine ⟨(x, y), ?_, Lawful.isReal_add isX (.inl real.1), Lawful.isReal_add isY (.inl real.2)⟩
  simp only [Point.add, isX, isY]
  rfl

/-- A distance from a real point is real. -/
theorem isRealPoint_sub {p q d : Point α} (real : IsRealPoint p) (isDistance : Point.sub p q = .ok d) : IsRealPoint d := by
  obtain ⟨x, isX, isDistance⟩ := bind_eq_ok.mp isDistance
  obtain ⟨y, isY, isDistance⟩ := bind_eq_ok.mp isDistance
  obtain rfl := Except.ok.inj isDistance
  exact ⟨Lawful.isReal_sub isX (.inl real.1), Lawful.isReal_sub isY (.inl real.2)⟩

/-- The corner of a measured node is a real point. -/
theorem localTopLeft_ok (measured : n.IsMeasured) : ∃ p, n.localTopLeft = .ok p ∧ IsRealPoint p := by
  obtain ⟨dx, dy, x, y, isDx, isDy, isX, isY, xReal, yReal⟩ := measured.corner_ok
  refine ⟨(x, y), ?_, xReal, yReal⟩
  rw [Node.localTopLeft, Node.needNumbers_plain measured.plain]
  simp only [isDx, isDy]
  change (do
    let x ← Arith.sub n.x dx
    let y ← Arith.sub n.y dy
    Except.ok (x, y)) = _
  rw [isX, isY]
  rfl

/-- A real point can be moved by the corners of nodes that there are. -/
theorem offsetBy_ok (measured : s.IsMeasured) {start : Point α} (real : IsRealPoint start)
    (known : ∀ id ∈ ids, id ∈ s.ids) : ∃ p, s.offsetBy start ids = .ok p ∧ IsRealPoint p := by
  induction ids generalizing start with
  | nil => exact ⟨start, rfl, real⟩
  | cons id rest ih =>
      obtain ⟨n, found⟩ := exists_find? (known id List.mem_cons_self)
      obtain ⟨p, isCorner, cornerReal⟩ := localTopLeft_ok (measured.of_find? found)
      obtain ⟨q, isSum, sumReal⟩ := add_ok real cornerReal.1.fits cornerReal.2.fits
      obtain ⟨r, isLast, lastReal⟩ := ih sumReal fun id member => known id (List.mem_cons_of_mem _ member)
      refine ⟨r, ?_, lastReal⟩
      rw [offsetBy, List.foldlM_cons]
      simp only [found, isCorner]
      change (do let q ← Point.add start p; s.offsetBy q rest) = _
      rw [isSum]
      exact isLast

/-- Every node of a measured store has a real corner on the canvas. -/
theorem absoluteTopLeft_ok (measured : s.IsMeasured) (id : Text) :
    ∃ p, s.absoluteTopLeft id = .ok p ∧ IsRealPoint p := by
  rw [absoluteTopLeft]
  cases found : s.find? id with
  | none => exact ⟨origin, rfl, isRealPoint_origin⟩
  | some n =>
      obtain ⟨p, isCorner, cornerReal⟩ := localTopLeft_ok (measured.of_find? found)
      have known : ∀ above ∈ s.ancestors id, above ∈ s.ids := fun _ member =>
        (ancestorsFrom_sound member).1
      obtain ⟨q, isSum, sumReal⟩ := offsetBy_ok measured cornerReal known
      refine ⟨q, ?_, sumReal⟩
      simp only [isCorner]
      exact isSum

/-- The origin of every parent in a measured store is a real point. -/
theorem spaceOrigin_ok (measured : s.IsMeasured) (parent : Text) :
    ∃ p, s.spaceOrigin parent = .ok p ∧ IsRealPoint p := by
  rw [spaceOrigin]
  split
  · exact ⟨origin, rfl, isRealPoint_origin⟩
  · exact absoluteTopLeft_ok measured parent

/-- Every node is somewhere on the canvas. -/
theorem absoluteAnchor_ok (measured : s.IsMeasured) (id : Text) :
    ∃ p, s.absoluteAnchor id = .ok p ∧ IsRealPoint p := by
  rw [absoluteAnchor]
  cases found : s.find? id with
  | none => exact ⟨origin, rfl, isRealPoint_origin⟩
  | some n =>
      have isMeasured := measured.of_find? found
      obtain ⟨p, isStart, startReal⟩ := spaceOrigin_ok measured n.parent
      obtain ⟨q, isSum, sumReal⟩ := add_ok (q := (n.x, n.y)) startReal isMeasured.x isMeasured.y
      refine ⟨q, ?_, sumReal⟩
      simp only [isStart, Node.needNumbers_plain isMeasured.plain]
      exact isSum

/-- Clamping one node keeps a store measured and returns. -/
theorem ends_clampNode (measured : s.IsMeasured) (leastMeasure : least.IsMeasure) (id : Text) :
    (clampNode id least).Ends s (fun _ t => t.IsMeasured) fun _ _ => False := by
  cases found : s.find? id with
  | none => exact (ends_clampNode_of_missing found).mpr measured
  | some n =>
      rw [ends_clampNode_of_found found]
      have sizes := parentSize_isMeasure measured n.parent
      exact (Node.ends_clampIn (measured.of_find? found) leastMeasure sizes.1 sizes.2).mono
        (fun _ _ isMeasured => measured.put isMeasured) fun _ _ fails => fails

/-- Where all measures fit, clamping a queue fails only by having no end. -/
theorem measured_clampQueue (measured : s.IsMeasured) (leastMeasure : least.IsMeasure) (bound : Nat)
    (queue : List Text) : (clampQueue least bound queue).Ends s (fun _ t => t.IsMeasured)
      fun fault t => t.IsMeasured ∧ fault = .endless := by
  induction bound generalizing queue s with
  | zero =>
      cases queue with
      | nil => exact measured
      | cons id rest => exact ⟨measured, rfl⟩
  | succ bound ih =>
      cases queue with
      | nil => exact measured
      | cons id rest =>
          unfold clampQueue
          simp only [Edit.ends_bind, Edit.ends_get]
          split
          · simp only [Edit.ends_bind, Edit.ends_get]
            exact (ends_clampNode measured leastMeasure id).mono (fun _ t isMeasured => ih isMeasured _)
              fun _ _ fails => fails.elim
          · exact ih measured rest

/-- Where all measures fit, clamping everything below a node fails only by having no end. -/
theorem measured_clampSubtree (measured : s.IsMeasured) (leastMeasure : least.IsMeasure) (id : Text) :
    (clampSubtree id least).Ends s (fun _ t => t.IsMeasured) fun fault t => t.IsMeasured ∧ fault = .endless := by
  unfold clampSubtree
  simp only [Edit.ends_bind, Edit.ends_get]
  exact Edit.ends_lift_ok (checkAllLayers_plain measured.isPlain) (measured_clampQueue measured leastMeasure _ _)

/-- Clamping everything below a node returns. -/
theorem ends_clampSubtree (measured : s.IsMeasured) (rooted : IsRooted s)
    (leastMeasure : least.IsMeasure) (known : id = root ∨ id ∈ s.ids) :
    (clampSubtree id least).Ends s (fun _ t => t.IsMeasured) fun _ _ => False := by
  refine (ends_clampSubtree_of (fun _ t => t.IsMeasured) rooted measured.isPlain known measured
    fun _ _ _ isMeasured => ends_clampNode isMeasured leastMeasure _).mono ?_ fun _ _ fails => fails
  rintro _ t ⟨_, -, -, isMeasured⟩
  exact isMeasured

/-- Lifting nodes from their leaves keeps a store measured and returns. -/
theorem ends_liftFromLeaves (measured : s.IsMeasured) (ids : List Text) :
    (liftFromLeaves ids).Ends s (fun _ t => t.IsMeasured) fun _ _ => False := by
  induction ids generalizing s with
  | nil => exact measured
  | cons id rest ih =>
      unfold liftFromLeaves
      simp only [Edit.ends_bind, Edit.ends_get]
      split
      · exact ih measured
      · split
        · simp only [Edit.ends_bind, Edit.ends_modify, Edit.ends_pure]
          refine Edit.ends_lift_of (absoluteAnchor_ok measured id) fun anchor real => ih ?_
          exact measured.modifyNode id fun n isMeasured =>
            ((isMeasured.setX real.1.fits).setY real.2.fits).setParent root
        · exact ih measured

/-- A store whose measures fit can be repaired. -/
theorem ends_repair (measured : s.IsMeasured) (distinct : s.ids.Nodup) (unreserved : root ∉ s.ids)
    (leastMeasure : least.IsMeasure) :
    (repair least).Ends s (fun _ t => t.IsMeasured) fun _ _ => False := by
  have measured₂ : s.cutDangling.2.cutCycles.2.IsMeasured := (measured.cutWhere s.ids).cutWhere _
  refine ends_repair_of distinct unreserved (ends_liftFromLeaves measured₂ _) fun _ t passes isMeasured => ?_
  refine (ends_clampSubtree isMeasured passes.forest.isRooted leastMeasure (.inl rfl)).mono ?_ fun _ _ fails => fails
  exact fun _ _ isMeasured => normalizeAll_induct _ (fun _ isMeasured => isMeasured.normalizeZ) isMeasured

/-- **Repair of the links.** Where the ids of a store are distinct and none is that of the root, a
repair that returns leaves a forest of containers with dense layers. It puts exactly three kinds of
node under the root and answers with them in this order: those whose parent is no node, the first
node of each circle, and those whose parent is then no container. Siblings that stay keep their
order. The repair returns where the measures of the nodes fit. -/
theorem repair_rehomes (s : Store α) (leastSide : Value α) (plain : s.IsPlain)
    (distinct : s.ids.Nodup) (unreserved : root ∉ s.ids) :
    (∀ rehomed t, repair leastSide s = .ok rehomed t → Repaired s rehomed t) ∧
      (s.IsMeasured → leastSide.IsMeasure → ∃ rehomed t, repair leastSide s = .ok rehomed t) := by
  constructor
  · intro rehomed t ran
    exact (repair_ends plain distinct unreserved leastSide).returned ran
  · intro measured leastMeasure
    obtain ⟨rehomed, t, ran, -⟩ := (ends_repair measured distinct unreserved leastMeasure).ok
    exact ⟨rehomed, t, ran⟩

/-- Two frames inside each other, a label in one of them, a label without a parent, and a label on
that label. -/
def tangled : Store Number :=
  let node (id parent : Text) (kind : Kind) : Node Number :=
    { id, kind, name := kind.name, parent, x := .int 10, y := .int 10, w := .int 40, h := .int 40
      anchorX := zero, anchorY := zero, z := 1, bgColor := Rgb.white, bgAlpha := one, border := false
      text := [], textColor := Rgb.white, textScaled := false, font := defaultFont, image := []
      canvasW := 0, canvasH := 0, scrollbarThickness := 8, extensions := [] }
  { canvasW := .int 980, canvasH := .int 620
    nodes := [node "inner" "outer" .frame, node "outer" "inner" .frame,
      node "held" "outer" .textLabel, node "lost" "nowhere" .textLabel,
      node "upon" "lost" .textLabel] }

/-- The tangled store is repaired. -/
theorem repair_rehomes_tangled :
    ∃ rehomed t, repair (.int 20) tangled = .ok rehomed t ∧ Repaired tangled rehomed t := by
  have fits : ∀ {n : Int}, n.natAbs ≤ 2 ^ 53 → Fits (Arith.ofInt n : Number) := Lawful.fits_ofInt
  have measured : tangled.IsMeasured := by
    constructor
    · intro n member
      simp only [tangled, List.mem_cons, List.not_mem_nil, or_false] at member
      rcases member with rfl | rfl | rfl | rfl | rfl <;>
        exact ⟨rfl, isReal_zero, isReal_zero, fits (by decide), fits (by decide), fits (by decide),
          fits (by decide)⟩
    · exact Value.isMeasure_num.mpr (fits (by decide))
    · exact Value.isMeasure_num.mpr (fits (by decide))
  have leastMeasure : (Value.int 20 : Value Number).IsMeasure :=
    Value.isMeasure_num.mpr (fits (by decide))
  obtain ⟨right, returns⟩ := repair_rehomes tangled (.int 20) measured.isPlain (by decide) (by decide)
  obtain ⟨rehomed, t, ran⟩ := returns measured leastMeasure
  exact ⟨rehomed, t, ran, right rehomed t ran⟩

end Store

end LayoutDesigner
