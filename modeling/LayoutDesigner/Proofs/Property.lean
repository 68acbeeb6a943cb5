import LayoutDesigner.Property
import LayoutDesigner.Proofs.Hierarchy

/-!
# Editing a property

A property edit writes one node and clamps what is below it. Only the property of the layer moves
the node among its siblings, and these are numbered anew. What is typed for a measure is read as a
real, so that measures go on fitting.
-/

namespace LayoutDesigner

open Arith

variable {α : Type} [Arith α]

namespace Node

variable {n m : Node α} {f : Field} {v : Value α}

/-- What a node becomes where a property is written, one case for each property. -/
inductive Becomes (n : Node α) (v : Value α) : Field → Node α → Prop
  | name : Becomes n v .name { n.checked .name with name := typedName v n.kind.name }
  | x {a : α} (typed : v.toNumberOrZero = .ok a) : Becomes n v .x (n.setX a)
  | y {a : α} (typed : v.toNumberOrZero = .ok a) : Becomes n v .y (n.setY a)
  | w {a : α} (typed : v.toNumberOrZero = .ok a) : Becomes n v .w (n.setW a)
  | h {a : α} (typed : v.toNumberOrZero = .ok a) : Becomes n v .h (n.setH a)
  | anchor {anchorX anchorY : α} (typed : parseAnchor v = .ok (anchorX, anchorY)) :
    Becomes n v .anchor { (n.checked .anchorX).checked .anchorY with anchorX, anchorY }
  | zIndex {a : α} (typed : v.toNumber (.int 1) = .ok a) : Becomes n v .zIndex (n.setZ (max 1 (floorHalf a)))
  | bgColor : Becomes n v .bgColor { n.checked .bgColor with bgColor := typedColor v }
  | bgAlpha {a : α} (typed : v.toNumberOrZero = .ok a) :
    Becomes n v .bgAlpha { n.checked .bgAlpha with bgAlpha := clamp a zero one }
  | border : Becomes n v .border { n.checked .border with border := v.toBool }
  | text : Becomes n v .text { n.checked .text with text := typedText v }
  | textColor : Becomes n v .textColor { n.checked .textColor with textColor := typedColor v }
  | textScaled : Becomes n v .textScaled { n.checked .textScaled with textScaled := v.toBool }
  | font : Becomes n v .font { n.checked .font with font := typedName v defaultFont }
  | image : Becomes n v .image { n.checked .image with image := typedText v }
  | canvasW {a : α} (typed : v.toNumber (.int 0) = .ok a) :
    Becomes n v .canvasW { n.checked .canvasWidth with canvasW := max 0 (floorHalf a) }
  | canvasH {a : α} (typed : v.toNumber (.int 0) = .ok a) :
    Becomes n v .canvasH { n.checked .canvasHeight with canvasH := max 0 (floorHalf a) }
  | scrollbarThickness {a : α} (typed : v.toNumber (.int 0) = .ok a) :
    Becomes n v .scrollbarThickness
      { n.checked .scrollbarThickness with scrollbarThickness := max 0 (floorHalf a) }

/-- A property is written where what was typed can be read, and the node becomes so. -/
theorem setField_iff : n.setField f v = .ok m ↔ Becomes n v f m := by
  constructor
  · intro written
    cases f with
    | anchor =>
        obtain ⟨⟨anchorX, anchorY⟩, typed, written⟩ := bind_eq_ok.mp written
        obtain rfl := Except.ok.inj written
        exact .anchor typed
    | x | y | w | h | zIndex | bgAlpha | canvasW | canvasH | scrollbarThickness =>
        obtain ⟨a, typed, written⟩ := bind_eq_ok.mp written
        obtain rfl := Except.ok.inj written
        constructor
        exact typed
    | name | bgColor | border | text | textColor | textScaled | font | image =>
        obtain rfl := Except.ok.inj written
        constructor
  · intro becomes
    cases becomes with
    | x typed | y typed | w typed | h typed | anchor typed | zIndex typed | bgAlpha typed | canvasW typed | canvasH typed
    | scrollbarThickness typed => exact bind_eq_ok.mpr ⟨_, typed, rfl⟩
    | name | bgColor | border | text | textColor | textScaled | font | image => rfl

/-- Both parts of an anchor are read alike. -/
theorem forall_parseAnchor {P : α → Prop} {anchorX anchorY : α}
    (each : ∀ {part : Value α} {a : α}, readAnchorPart part = .ok a → P a)
    (typed : parseAnchor v = .ok (anchorX, anchorY)) : P anchorX ∧ P anchorY := by
  obtain ⟨_, isX, typed⟩ := bind_eq_ok.mp typed
  obtain ⟨_, isY, typed⟩ := bind_eq_ok.mp typed
  obtain ⟨rfl, rfl⟩ := Prod.mk.inj (Except.ok.inj typed)
  exact ⟨each isX, each isY⟩

/-- All properties but the layer leave a node where it is in the tree. -/
theorem alike_setField (written : n.setField f v = .ok m) (other : f ≠ .zIndex) : Alike n m := by
  cases setField_iff.mp written with
  | zIndex => exact absurd rfl other
  | anchor => exact ⟨rfl, rfl, fun plain => without_plain (without_plain plain _) _⟩
  | _ => exact ⟨rfl, rfl, fun plain => without_plain plain _⟩

/-- Writing a property adjusts the node. -/
theorem adjusted_setField (written : n.setField f v = .ok m) : Adjusted n.id n m := by
  by_cases isLayer : f = .zIndex
  · subst isLayer
    cases setField_iff.mp written with
    | zIndex => exact .setZ rfl _
  · exact .of_alike (alike_setField written isLayer)

/-- Writing a property leaves the extensions as they are. -/
theorem extensions_setField (written : n.setField f v = .ok m) : m.extensions = n.extensions := by
  cases setField_iff.mp written <;> rfl

variable [Lawful α]

/-- A part of an anchor that is typed is a real. -/
theorem isReal_readAnchorPart {part : α} (read : readAnchorPart v = .ok part) : IsReal part := by
  obtain ⟨typed, isTyped, read⟩ := bind_eq_ok.mp read
  obtain rfl := Except.ok.inj read
  exact isReal_clamp (Value.isReal_toNumber isTyped) isReal_zero isReal_one

/-- A node whose measures fit is still one after a property was written. -/
theorem IsMeasured.setField (measured : n.IsMeasured) (written : n.setField f v = .ok m) :
    m.IsMeasured := by
  have plain : m.unchecked = [] := (adjusted_setField written).plain measured.plain
  cases setField_iff.mp written with
  | anchor typed =>
      obtain ⟨anchorX, anchorY⟩ := forall_parseAnchor isReal_readAnchorPart typed
      exact { measured with plain, anchorX, anchorY }
  | x typed => exact measured.setX (Value.isReal_toNumber typed).fits
  | y typed => exact measured.setY (Value.isReal_toNumber typed).fits
  | w typed => exact measured.setW (Value.isReal_toNumber typed).fits
  | h typed => exact measured.setH (Value.isReal_toNumber typed).fits
  | _ => exact { measured with plain }

end Node

namespace Store

variable {s t : Store α} {id name : Text} {v : Value α}

/-- What writing a property of a node does: the node is changed, its siblings are renumbered where its layer
was written, and then what is within it is clamped. -/
theorem ends_applyField_of {n : Node α} {f : Field} (plain : s.IsPlain) (found : s.find? id = some n)
    (named : Field.ofName? name = some f) (applies : f.appliesTo n.kind) {done : Bool → Store α → Prop}
    {failed : Fault → Store α → Prop} (fails : ∀ fault, n.setField f v = .error fault → failed fault s)
    (writes : ∀ m, n.setField f v = .ok m → (clampSubtree id (Value.int leastSide)).Ends
      (if f = .zIndex then (s.put m).normalizeZ n.parent else s.put m) (fun _ t => done true t) failed) :
    (applyField id name v).Ends s done failed := by
  unfold applyField
  simp only [Edit.ends_bind, Edit.ends_get, found, named, applies, Bool.not_true, Bool.false_eq_true, if_false,
    Edit.ends_modify, Edit.ends_lift]
  refine ⟨fun m written => ?_, fails⟩
  have next := writes m written
  have adjusted := Node.adjusted_setField written
  split
  · next isLayer =>
      rw [if_pos isLayer] at next
      simp only [Edit.ends_bind, Edit.ends_get, Edit.ends_modify]
      rw [adjusted.parent_eq]
      refine Edit.ends_lift_ok (checkLayers_plain (All.put plain ?_)) next
      exact adjusted.plain (plain n (mem_of_find? found))
  · next other =>
      rw [if_neg other] at next
      exact (Edit.ends_bind _ _).mpr next

/-- What writing a property does, where there is such a node and it has such a property. -/
theorem ends_applyField (plain : s.IsPlain) {done : Bool → Store α → Prop}
    {failed : Fault → Store α → Prop} (fails : ∀ fault, failed fault s) (stays : done false s)
    (writes : ∀ n f m, s.find? id = some n → n.setField f v = .ok m →
      (clampSubtree id (Value.int leastSide)).Ends
        (if f = .zIndex then (s.put m).normalizeZ n.parent else s.put m) (fun _ t => done true t) failed) :
    (applyField id name v).Ends s done failed := by
  cases found : s.find? id with
  | none =>
      unfold applyField
      simp only [Edit.ends_bind, Edit.ends_get, found]
      exact stays
  | some n =>
      cases named : Field.ofName? name with
      | none =>
          unfold applyField
          simp only [Edit.ends_bind, Edit.ends_get, found, named]
          exact stays
      | some f =>
          by_cases applies : f.appliesTo n.kind
          · exact ends_applyField_of plain found named applies (fun fault _ => fails fault) fun m => writes n f m found
          · unfold applyField
            simp only [Edit.ends_bind, Edit.ends_get, found, named, applies, Bool.not_false, if_true]
            exact stays

/-- Writing a property of a node keeps a store orderly. -/
theorem orderly_applyField (orderly : s.IsOrderly) :
    (applyField id name v).Ends s (fun _ t => t.IsOrderly ∧ t.ids = s.ids) fun _ _ => True := by
  refine ends_applyField orderly.plain (fun _ => trivial) ⟨orderly, rfl⟩ fun n f m found written => ?_
  have clamped : ∀ {t : Store α}, t.IsOrderly → t.ids = s.ids →
      (clampSubtree id (Value.int leastSide)).Ends t
        (fun _ u => u.IsOrderly ∧ u.ids = s.ids) fun _ _ => True := by
    intro t orderly' same
    refine (keeps_clampSubtree t).mono (fun _ u reshaped => ?_) fun _ _ _ => trivial
    exact ⟨(Alike.of_reshaped reshaped).orderly orderly', reshaped.ids.trans same⟩
  split
  · have adjusted := Adjusted.put found (id_of_find? found ▸ Node.adjusted_setField written)
    refine clamped (isOrderly_normalizeZ (orderly.forest.congr adjusted.links)
      (adjusted.isPlain orderly.plain) fun place other => ?_) ?_
    · refine (orderly.layered place).congr (adjusted.layers fun k isNode here isChild => ?_)
      have same := eq_of_id_eq orderly.forest.distinct isNode (mem_of_find? found)
        (here.trans (id_of_find? found).symm)
      exact other (isChild.symm.trans (same ▸ rfl))
    · rw [ids_normalizeZ, ids_congr adjusted.links]
  · next other =>
      have alike := Alike.put found (Node.alike_setField written other)
      exact clamped (alike.orderly orderly) alike.ids

/-- Where measures fit, writing a property fails only where the typed value cannot be read; then
nothing is changed. -/
theorem measured_applyField [Lawful α] (forest : s.IsForest) (measured : s.IsMeasured) :
    (applyField id name v).Ends s (fun _ t => t.IsMeasured) fun _ t => t = s := by
  refine ends_applyField measured.isPlain (fun _ => rfl) measured fun n f m found written => ?_
  have adjusted := Adjusted.put found (id_of_find? found ▸ Node.adjusted_setField written)
  have forest' := forest.congr adjusted.links
  have isMeasured := measured.put ((measured.of_find? found).setField written)
  have leastMeasure : (Value.int leastSide : Value α).IsMeasure :=
    Value.isMeasure_num.mpr (Lawful.fits_ofInt (by decide))
  have isNode : id ∈ (s.put m).ids := ids_congr adjusted.links ▸ mem_ids_of_find? found
  split
  · exact (ends_clampSubtree isMeasured.normalizeZ (forest'.congr links_normalizeZ).isRooted leastMeasure
      (.inr (ids_normalizeZ (s := s.put m) ▸ isNode))).mono (fun _ _ isMeasured => isMeasured)
      fun _ _ fails => fails.elim
  · exact (ends_clampSubtree isMeasured forest'.isRooted leastMeasure (.inr isNode)).mono
      (fun _ _ isMeasured => isMeasured) fun _ _ fails => fails.elim

end Store

end LayoutDesigner
