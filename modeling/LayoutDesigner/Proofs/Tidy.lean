import LayoutDesigner.Proofs.Fitted
import LayoutDesigner.Proofs.Mended
import LayoutDesigner.Proofs.Settling

/-!
# Edits keep a store tidy

A store of rationals is tidy where all nodes are savable and all sides are as clamping leaves them. What
an edit writes is mended, and to be sized is one way to fit a box, so every edit of a design keeps it tidy.
-/

namespace LayoutDesigner

/-- A record of the node reads back: everything that reading would mend is in order. -/
structure Node.IsSavable (n : Node ℚ) : Prop where
  plain : n.unchecked = []
  id : n.id ≠ []
  name : n.name ≠ []
  font : n.font ≠ []
  anchorX : 0 ≤ n.anchorX ∧ n.anchorX ≤ 1
  anchorY : 0 ≤ n.anchorY ∧ n.anchorY ≤ 1
  bgAlpha : 0 ≤ n.bgAlpha ∧ n.bgAlpha ≤ 1
  bgColor : n.bgColor.InRange
  textColor : n.textColor.InRange
  extensions : ∀ e ∈ n.extensions, e.unchecked = none

/-- A node with rational measures can be saved exactly where it is mended. -/
theorem Node.isSavable_iff {n : Node ℚ} : n.IsSavable ↔ n.IsMended :=
  ⟨fun ⟨plain, id, name, font, anchorX, anchorY, bgAlpha, bgColor, textColor, extensions⟩ =>
    ⟨plain, id, name, font, Exact.isFraction_iff.mpr anchorX, Exact.isFraction_iff.mpr anchorY,
      Exact.isFraction_iff.mpr bgAlpha, bgColor, textColor, extensions⟩,
  fun ⟨plain, id, name, font, anchorX, anchorY, bgAlpha, bgColor, textColor, extensions⟩ =>
    ⟨plain, id, name, font, Exact.isFraction_iff.mp anchorX, Exact.isFraction_iff.mp anchorY,
      Exact.isFraction_iff.mp bgAlpha, bgColor, textColor, extensions⟩⟩

/-- To be sized is one way to fit a box whose sides are as clamping leaves them. -/
def sizing : Fitting ℚ where
  Surface room := (∃ v, room.1 = .num v ∧ IsSide v) ∧ ∃ v, room.2 = .num v ∧ IsSide v
  Roomy room := (∃ v, room.1 = .num v ∧ IsSide v) ∧ ∃ v, room.2 = .num v ∧ IsSide v
  Fits n _ := n.IsSized
  congr {n m _} same sized := by
    simp only [Node.placing, Placing.mk.injEq, Prod.mk.injEq] at same
    exact ⟨same.2.2.1.1 ▸ sized.w, same.2.2.1.2 ▸ sized.h⟩
  surface sides := sides
  roomy sized := ⟨⟨_, rfl, sized.w⟩, _, rfl, sized.h⟩

/-- Clamping makes sides that are clamped. -/
theorem clampedBy_sizing : sizing.ClampedBy (.int leastSide) := by
  rintro n ⟨_, _⟩ plain ⟨⟨width, rfl, widthSide⟩, height, rfl, heightSide⟩
  rw [Edit.ends_of_ok (Node.clampIn_num plain (width, height))]
  exact Node.isSized_boxed widthSide heightSide n

namespace Store

/-- All nodes are savable, and all sides are as clamping leaves them. -/
structure IsTidy (s : Store ℚ) : Prop extends s.IsSized where
  savable : s.All Node.IsSavable

variable {s : Store ℚ}

/-- A store is tidy exactly where its nodes are mended and its sides are clamped. -/
theorem isTidy_iff : s.IsTidy ↔ s.All Node.IsMended ∧ s.IsFitted sizing := by
  constructor
  · intro tidy
    exact ⟨fun n isNode => Node.isSavable_iff.mp (tidy.savable n isNode), ⟨tidy.canvasW, tidy.canvasH⟩, tidy.nodes⟩
  · rintro ⟨mended, ⟨width, height⟩, sized⟩
    exact ⟨⟨⟨fun n isNode => (mended n isNode).plain, width, height⟩, sized⟩, fun n isNode =>
      Node.isSavable_iff.mpr (mended n isNode)⟩

end Store

/-- The measures are typed, and the sides are as clamping leaves them. -/
structure Geometry.IsSized (g : Geometry ℚ) : Prop where
  plain : g.unchecked = []
  w : IsSide g.w
  h : IsSide g.h

/-- A plain node of clamped sides has a box of clamped sides. -/
theorem Node.IsSized.geometry {n : Node ℚ} (sized : n.IsSized) (plain : n.unchecked = []) : n.geometry.IsSized where
  plain := by simp [Node.geometry, plain]
  w := sized.w
  h := sized.h

namespace Contract

open Store

variable {offset zoomRange : Value ℚ}

/-- The contract that the store is sound and tidy and the project typed. -/
def tidy (offset zoomRange : Value ℚ) : Contract ℚ where
  mayFail := True
  least := .int leastSide
  offset := offset
  zoomRange := zoomRange
  Good s := s.IsSound True ∧ s.IsTidy
  Start g := (g.unchecked = [] ∧ (True → g.IsMeasured)) ∧ g.IsSized
  Fresh id := id ≠ root ∧ id ≠ []
  Known := Project.IsTyped

/-- To be tidy is to be sound and mended and to have sized nodes, and a drag begins with sized ones. -/
theorem tidy_eq (offset zoomRange : Value ℚ) :
    tidy offset zoomRange = ((mended (.int leastSide) offset zoomRange).fitted sizing).starting Geometry.IsSized := by
  have good : (fun s : Store ℚ => s.IsSound True ∧ s.IsTidy) =
      fun s => (s.IsSound True ∧ s.All Node.IsMended) ∧ s.IsFitted sizing :=
    funext fun s => propext (by rw [isTidy_iff, and_assoc])
  simp only [tidy, starting, fitted, mended, upholding, typed, soundTyped, sound, good]

/-- What a step of a resize puts back is sized, and so is everything that it leaves alone. -/
theorem sized_dragBy {s : Store ℚ} {g : Gesture ℚ} {n : Node ℚ} {dx dy : ℚ} (fitted : s.IsFitted sizing)
    (orderly : s.IsOrderly) (found : s.find? n.id = some n)
    (starts : ∀ entry ∈ g.descendantStarts, entry.2.IsSized) :
    (Stage.dragBy g n dx dy (.int leastSide)).Ends s (fun _ t => t.IsFitted sizing) fun _ _ => True := by
  have isNode := mem_of_find? found
  have plain := orderly.plain n isNode
  refine Stage.fitted_dragBy clampedBy_sizing fitted orderly.forest orderly.plain found (fun x y => ?_)
    (fun entry listed => (starts entry listed).plain) fun m reshaped k member apart => ?_
  · have roomy := fitted.roomy_parentSize orderly.plain n.parent
    have typed : ((n.setX x).setY y).unchecked = [] := by simp [Node.setX, Node.setY, Node.checked, plain, Unchecked.without]
    exact (clampedBy_sizing typed roomy).mono (fun _ _ sized => ⟨sized, fun _ sized => sized⟩) fun _ _ _ => trivial
  · have all : (Stage.restore g.descendantStarts (s.put m)).All fun k => k.id = n.id ∨ k.IsSized :=
      Stage.all_restore (fun entry listed k => .inr ⟨(starts entry listed).w, (starts entry listed).h⟩)
        (All.put (fun k isNode => .inr (fitted.nodes k isNode)) (.inl reshaped.id))
    exact (all k member).resolve_left fun same => apart (.inl same)

/-- The contract for tidy sessions is kept. -/
theorem kept_tidy (offset zoomRange : Value ℚ) : (tidy offset zoomRange).Kept := by
  have kept : (mended (.int leastSide) offset zoomRange).Kept :=
    kept_mended (Value.isMeasure_num.mpr (Arith.fits _))
  rw [tidy_eq]
  exact {
    (keptAtRest_fitted kept.toKeptAtRest (fun good => good.1.orderly) clampedBy_sizing clampedBy_sizing).starting
      fun good isNode => (good.2.nodes _ isNode).geometry (good.1.1.orderly.plain _ isNode) with
    drag := fun good found start starts real =>
      ends_and (kept.drag good.1 found start.1 (fun entry listed => (starts entry listed).1) real)
        (sized_dragBy good.2 good.1.1.orderly found fun entry listed => (starts entry listed).2) }

end Contract

/-- A session in which nothing was done yet. -/
theorem Session.holds_tidy_new {canvas : Value ℚ × Value ℚ} {offset zoomRange : Value ℚ} {zoom : ℚ}
    {defaults : Project ℚ} {idSupply : Nat → Text} {depth : Nat} (exact : Store.IsExact ⟨canvas.1, canvas.2, []⟩)
    (typed : defaults.IsTyped) (fresh : ∀ taken, idSupply taken ≠ root ∧ idSupply taken ≠ []) :
    (Contract.tidy offset zoomRange).Holds
      (new canvas (.int leastSide) offset zoom zoomRange defaults idSupply depth) := by
  have measure : ∀ {v : Value ℚ}, (∃ r, v = .num r ∧ IsSide r) → v.IsMeasure := by
    rintro _ ⟨r, rfl, -⟩
    exact Value.isMeasure_num.mpr (Arith.fits r)
  have mended : (Contract.mended (.int leastSide) offset zoomRange).Holds
      (new canvas (.int leastSide) offset zoom zoomRange defaults idSupply depth) :=
    holds_mended_new (measure exact.canvasW) (measure exact.canvasH) typed fresh
  rw [Contract.tidy_eq]
  exact { mended with
    good := ⟨mended.good, ⟨exact.canvasW, exact.canvasH⟩, by simp [store, new]⟩
    drag := fun g found => by cases found }

/-- The usual surface has sides as clamping leaves them. -/
theorem Store.isExact_usual : Store.IsExact ⟨.int 980, .int 620, []⟩ where
  plain := by simp [Store.IsPlain]
  canvasW := ⟨_, rfl, 980, by decide, rfl⟩
  canvasH := ⟨_, rfl, 620, by decide, rfl⟩

/-- A new session of the usual measures, with numbered ids. -/
def Session.usual : Session ℚ :=
  new (.int 980, .int 620) (.int leastSide) (.int 12) 1 (.arr [.num (1 / 2), .num 2]) {}
    fun taken => ("n" : Text) ++ Text.ofNat taken

/-- The usual session keeps the contract for tidy sessions. -/
theorem Session.holds_usual : (Contract.tidy (.int 12) (.arr [.num (1 / 2), .num 2])).Holds usual :=
  holds_tidy_new Store.isExact_usual ⟨⟨_, rfl⟩, ⟨_, rfl⟩, ⟨_, rfl⟩, ⟨_, rfl⟩⟩ Text.numbered_fresh

end LayoutDesigner
