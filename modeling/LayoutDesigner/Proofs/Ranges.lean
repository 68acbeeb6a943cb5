import LayoutDesigner.Proofs.Mended
import LayoutDesigner.Proofs.Numerals
import LayoutDesigner.Proofs.Standing

/-!
# Ranges of properties

Whatever is typed for a property, and whatever a document says of it, a node has a name and a font, its
anchor and the alpha of its background are from zero to one, the channels of its colours from 0 to 255,
and its layer is the first one or above it. What a node scrolls over, and how thick its scroll bars are,
is kept from being negative only where it is typed: a document is taken at its word.
-/

namespace LayoutDesigner

open Arith

namespace Number

/-- The number is zero, one or between them. -/
def InUnit (v : Number) : Prop := le zero v ∧ le v one

/-- What is less is at most as great. -/
theorem le_of_lt {a b : Number} (less : lt a b) : le a b := by
  rw [show le a b = (a.order b == some .lt || a.order b == some .eq) from rfl, Bool.or_eq_true]
  exact .inl less

/-- A half is between zero and one. -/
theorem inUnit_half : (half : Number).InUnit := by
  constructor <;> decide +kernel

/-- One is between zero and one. -/
theorem inUnit_one : (one : Number).InUnit := by
  constructor <;> decide +kernel

/-- What was kept between zero and one is zero, one, or a number that is above the one and below the
other. -/
theorem inUnit_clamp (v : Number) : (clamp v zero one).InUnit := by
  have inUnit_zero : (zero : Number).InUnit := by constructor <;> decide +kernel
  have inUnit_max : ∀ w : Number, le w one → (Arith.max zero w).InUnit := by
    intro w below
    rw [Arith.max]
    split
    · next above => exact ⟨le_of_lt above, below⟩
    · exact inUnit_zero
  rw [clamp, Arith.min]
  split
  · next below => exact inUnit_max v (le_of_lt below)
  · exact inUnit_max one inUnit_one.2

/-- A decimal number is not written as nothing. -/
theorem write_ne_nil (d : Decimal) : d.write plainStyle ≠ [] := by
  simp only [Decimal.write]
  split
  · simp [exponentText, Text.ofNat_ne_nil]
  · split
    · simp [Text.ofNat_ne_nil]
    · split
      · simp [Text.ofString]
      · simp [Text.ofNat_ne_nil]

/-- A float is not written as nothing. -/
theorem floatText_ne_nil (x : Float) : floatText x ≠ [] := by
  rw [floatText]
  split
  · decide
  · split <;> decide
  · dsimp only
    split
    · simp [Text.ofString]
    · simp [write_ne_nil]

end Number

instance : HasNumerals Number where
  numeral_ne_nil
    | .int n => Text.ofInt_ne_nil n
    | .real x => Number.floatText_ne_nil x

/-- Every kind is in the list of kinds. -/
theorem Kind.mem_all (kind : Kind) : kind ∈ Kind.all := by
  cases kind <;> decide

variable {supply : Nat → Text} {Admitted : Nat → List (Text × Value Number) → Prop} {taken : Nat}

namespace Node

variable {n m : Node Number} {f : Field} {v : Value Number}

/-- A part of an anchor that is typed is between zero and one. -/
theorem inUnit_readAnchorPart {part : Number} (read : readAnchorPart v = .ok part) : part.InUnit := by
  obtain ⟨typed, -, read⟩ := bind_eq_ok.mp read
  obtain rfl := Except.ok.inj read
  exact Number.inUnit_clamp typed

/-- A fraction that is read is between zero and one. -/
theorem inUnit_readFraction {d : List (Text × Value Number)} {key : Text} {default x : Number}
    (read : readFraction d key default = .ok x) : x.InUnit := by
  obtain ⟨typed, -, read⟩ := bind_eq_ok.mp read
  obtain rfl := Except.ok.inj read
  exact Number.inUnit_clamp typed

/-- The properties of the node that have a range are in it, apart from its layer and those of
scrolling. -/
structure InRange (n : Node Number) : Prop where
  kind : n.kind ∈ Kind.all
  name : n.name ≠ []
  font : n.font ≠ []
  anchorX : n.anchorX.InUnit
  anchorY : n.anchorY.InUnit
  bgAlpha : n.bgAlpha.InUnit
  bgColor : n.bgColor.InRange
  textColor : n.textColor.InRange

/-- A change of place and sides alone leaves a node in range. -/
theorem InRange.reshaped (inRange : n.InRange) (step : Reshaped n m) : m.InRange where
  kind := step.common Node.kind (fun _ _ => rfl) ▸ inRange.kind
  name := step.common Node.name (fun _ _ => rfl) ▸ inRange.name
  font := step.common Node.font (fun _ _ => rfl) ▸ inRange.font
  anchorX := step.anchorX ▸ inRange.anchorX
  anchorY := step.anchorY ▸ inRange.anchorY
  bgAlpha := step.common Node.bgAlpha (fun _ _ => rfl) ▸ inRange.bgAlpha
  bgColor := step.common Node.bgColor (fun _ _ => rfl) ▸ inRange.bgColor
  textColor := step.common Node.textColor (fun _ _ => rfl) ▸ inRange.textColor

/-- A new node is in range. -/
theorem inRange_created {kind : Kind} {id parent : Text} {z : Int} (created : Store.IsCreated kind id parent z n) :
    n.InRange where
  kind := n.kind.mem_all
  name := created.name ▸ kind.name_ne_nil
  font := created.font ▸ defaultFont_ne_nil
  anchorX := created.anchorX ▸ Number.inUnit_half
  anchorY := created.anchorY ▸ Number.inUnit_half
  bgAlpha := created.bgAlpha ▸ Number.inUnit_one
  bgColor := created.bgColor ▸ Rgb.inRange_descriptor kind
  textColor := created.textColor ▸ Rgb.inRange_white

/-- A node that was read is in range. -/
theorem inRange_read {d : List (Text × Value Number)} (read : IsRead depth d n) : n.InRange where
  kind := n.kind.mem_all
  name := read.name ▸ readText_ne_nil n.kind.name_ne_nil
  font := read.font ▸ readText_ne_nil defaultFont_ne_nil
  anchorX := inUnit_readFraction read.anchorX
  anchorY := inUnit_readFraction read.anchorY
  bgAlpha := inUnit_readFraction read.bgAlpha
  bgColor := Rgb.inRange_ofValue (Rgb.inRange_descriptor _) read.bgColor
  textColor := Rgb.inRange_ofValue Rgb.inRange_white read.textColor

/-- Whatever is typed for a property comes to a value in its range. -/
theorem InRange.setField (inRange : n.InRange) (written : n.setField f v = .ok m) : m.InRange := by
  cases setField_iff.mp written with
  | anchor typed =>
      obtain ⟨anchorX, anchorY⟩ := forall_parseAnchor inUnit_readAnchorPart typed
      exact { inRange with anchorX, anchorY }
  | bgAlpha => exact { inRange with bgAlpha := Number.inUnit_clamp _ }
  | name => exact { inRange with name := Text.orElse_ne_nil n.kind.name_ne_nil }
  | font => exact { inRange with font := Text.orElse_ne_nil defaultFont_ne_nil }
  | bgColor => exact { inRange with bgColor := Rgb.inRange_typedColor v }
  | textColor => exact { inRange with textColor := Rgb.inRange_typedColor v }
  | _ => exact { inRange with }

/-- However a node came about, its properties are in their ranges. -/
theorem Arises.inRange (arises : n.Arises supply Admitted taken) : n.InRange := by
  induction arises with
  | created source => exact inRange_created source
  | read _ source => exact inRange_read source
  | reshaped _ step inRange => exact inRange.reshaped step
  | setField _ written inRange => exact inRange.setField written
  | renamed _ named inRange => exact { inRange with name := named }
  | later _ inRange | setParent _ _ inRange | setZ _ _ inRange | setText _ _ inRange | relabelled _ inRange
  | extended _ _ inRange | filtered _ _ inRange | writeProp _ _ _ _ inRange => exact { inRange with }

/-- What the node scrolls over, and how thick its bars are, is not negative. -/
structure IsUnsigned (n : Node Number) : Prop where
  canvasW : 0 ≤ n.canvasW
  canvasH : 0 ≤ n.canvasH
  scrollbarThickness : 0 ≤ n.scrollbarThickness

/-- A change of place and sides alone leaves the sizes of a node unsigned. -/
theorem IsUnsigned.reshaped (unsigned : n.IsUnsigned) (step : Reshaped n m) : m.IsUnsigned where
  canvasW := step.common Node.canvasW (fun _ _ => rfl) ▸ unsigned.canvasW
  canvasH := step.common Node.canvasH (fun _ _ => rfl) ▸ unsigned.canvasH
  scrollbarThickness := step.common Node.scrollbarThickness (fun _ _ => rfl) ▸ unsigned.scrollbarThickness

/-- The sizes of a new node are unsigned. -/
theorem isUnsigned_created {kind : Kind} {id parent : Text} {z : Int} (created : Store.IsCreated kind id parent z n) :
    n.IsUnsigned := by
  obtain ⟨width, height⟩ := Prod.ext_iff.mp created.canvas
  refine ⟨?_, ?_, ?_⟩
  · rw [show n.canvasW = _ from width]
    cases kind <;> decide
  · rw [show n.canvasH = _ from height]
    cases kind <;> decide
  · rw [created.scrollbarThickness]
    cases kind <;> decide

/-- Typing a property leaves nothing negative. -/
theorem IsUnsigned.setField (unsigned : n.IsUnsigned) (written : n.setField f v = .ok m) : m.IsUnsigned := by
  cases setField_iff.mp written with
  | canvasW => exact { unsigned with canvasW := le_max_left _ _ }
  | canvasH => exact { unsigned with canvasH := le_max_left _ _ }
  | scrollbarThickness => exact { unsigned with scrollbarThickness := le_max_left _ _ }
  | _ => exact { unsigned with }

/-- What the record says of scrolling is not negative where it is read, zero standing for what it does
not say. -/
structure GivesUnsigned (d : List (Text × Value Number)) : Prop where
  canvasW : ∀ k, readInteger (membersOf (Value.field "canvasSize" d)) "w" 0 = .ok k → 0 ≤ k
  canvasH : ∀ k, readInteger (membersOf (Value.field "canvasSize" d)) "h" 0 = .ok k → 0 ≤ k
  scrollbarThickness : ∀ k, readInteger d "scrollBarThickness" 0 = .ok k → 0 ≤ k

end Node

/-- A value is read as the number that it stands for, or as the default. -/
theorem Value.toNumber_cases {v : Value Number} {default x : Number} (read : v.toNumber (.num default) = .ok x) :
    (∀ other, v.toNumber other = .ok x) ∨ toReal default = .ok x := by
  simp only [toNumber.eq_def] at read ⊢
  split at read
  · exact .inl fun _ => read
  · split at read
    · next isReal =>
        split at read
        · next finite => exact .inl fun _ => by simp [finite, read]
        · exact .inr read
    · exact .inr read
    · exact .inr read
    · cases read

namespace Node

variable {n : Node Number} {d : List (Text × Value Number)}

/-- An integer that is not negative where there is one is not negative. -/
theorem nonneg_of_toOption {result : Except Fault Int} (nonneg : result.toOption.all fun k => decide (0 ≤ k)) :
    ∀ k, result = .ok k → 0 ≤ k := by
  rintro k rfl
  simpa [Except.toOption] using nonneg

/-- An integer that is read is not negative, whatever default stands in, where the record gives no
negative one. -/
theorem nonneg_readInteger {members : List (Text × Value Number)} {key : Text} {default k : Int}
    (gives : ∀ k, readInteger members key 0 = .ok k → 0 ≤ k)
    (starts : ∀ r, toReal (ofInt default : Number) = .ok r → 0 ≤ floorHalf r)
    (read : readInteger members key default = .ok k) : 0 ≤ k := by
  obtain ⟨x, isNumber, read⟩ := bind_eq_ok.mp read
  obtain rfl := Except.ok.inj read
  obtain said | isDefault := Value.toNumber_cases isNumber
  · exact gives _ (bind_eq_ok.mpr ⟨x, said _, rfl⟩)
  · exact starts x isDefault

/-- What nodes of a kind start with is not negative either once it is a real. -/
theorem nonneg_descriptor (kind : Kind) :
    ∀ k ∈ [kind.descriptor.canvasSize.1, kind.descriptor.canvasSize.2, kind.descriptor.scrollbarThickness],
      ∀ r, toReal (ofInt k : Number) = .ok r → 0 ≤ floorHalf r := by
  have rounded : ∀ kind ∈ Kind.all,
      ∀ k ∈ [kind.descriptor.canvasSize.1, kind.descriptor.canvasSize.2, kind.descriptor.scrollbarThickness],
        ((toReal (ofInt k : Number)).map floorHalf).toOption.all fun k => decide (0 ≤ k) := by decide +kernel
  intro k listed r isReal
  exact nonneg_of_toOption (rounded kind kind.mem_all k listed) _ (by rw [isReal]; rfl)

/-- The sizes of a node that was read are unsigned where the record gives unsigned ones. -/
theorem isUnsigned_read (gives : GivesUnsigned d) (read : IsRead depth d n) : n.IsUnsigned where
  canvasW := nonneg_readInteger gives.canvasW (nonneg_descriptor n.kind _ (by simp)) read.canvasW
  canvasH := nonneg_readInteger gives.canvasH (nonneg_descriptor n.kind _ (by simp)) read.canvasH
  scrollbarThickness :=
    nonneg_readInteger gives.scrollbarThickness (nonneg_descriptor n.kind _ (by simp)) read.scrollbarThickness

/-- Only a record can make what is scrolled over negative. -/
theorem Arises.isUnsigned (arises : n.Arises supply (fun _ => GivesUnsigned) taken) : n.IsUnsigned := by
  induction arises with
  | created source => exact isUnsigned_created source
  | read gives source => exact isUnsigned_read gives source
  | reshaped _ step unsigned => exact unsigned.reshaped step
  | setField _ written unsigned => exact unsigned.setField written
  | later _ unsigned | renamed _ _ unsigned | setParent _ _ unsigned | setZ _ _ unsigned | setText _ _ unsigned
  | relabelled _ unsigned | extended _ _ unsigned | filtered _ _ unsigned | writeProp _ _ _ _ unsigned =>
      exact { unsigned with }

end Node

namespace Session

/-- **Properties stay in range.** Whatever commands are run in a new session, also where some of them
fail, every node has a kind of the table, a name, a font, an anchor and an alpha from zero to one, colours
of channels from 0 to 255, and is on the first layer or above it. Where no record that is loaded says
otherwise, what the nodes scroll over and how thick their bars are is not negative either. -/
theorem inRange_of_runAll (canvas : Value Number × Value Number)
    (leastSide duplicateOffset zoomRange : Value Number) (zoom : Number) (defaults : Project Number)
    (supply : Nat → Text) (depth : Nat) (commands : List (Command Number)) :
    let start := new canvas leastSide duplicateOffset zoom zoomRange defaults supply depth
    (∀ n ∈ (runAll commands start).store.nodes, n.InRange ∧ 1 ≤ n.z ∧ n.unchecked = []) ∧
      (Admits (fun _ => Node.GivesUnsigned) commands start →
        ∀ n ∈ (runAll commands start).store.nodes, n.IsUnsigned) := by
  intro start
  constructor
  · intro n isNode
    have stands : (runAll commands start).Stands supply fun _ _ => True :=
      stands_new.runAll (admits_of_forall (fun _ _ => trivial) commands start)
    have isStanding := stands.store.nodes n isNode
    exact ⟨isStanding.arises.inRange, isStanding.layer, isStanding.arises.plain⟩
  · intro admits n isNode
    have stands : (runAll commands start).Stands supply fun _ => Node.GivesUnsigned := stands_new.runAll admits
    exact (stands.store.nodes n isNode).arises.isUnsigned

/-- A document with one scrolling frame. -/
def scrolling (width height thickness : Int) : Value Number :=
  .obj [("nodes", .arr [.obj [("id", .str "a"), ("type", .str "ScrollingFrame"),
    ("canvasSize", .obj [("w", .int width), ("h", .int height)]), ("scrollBarThickness", .int thickness)]])]

/-- A width that is typed as a negative number becomes zero. -/
theorem inRange_of_runAll_scrolling :
    let commands := [.loadSnapshot (scrolling 5 7 3), .select (.str "a"), .setProperty (.str "canvas_w") (.str "-4")]
    Admits (fun _ => Node.GivesUnsigned) commands opened ∧
      ∃ n, (runAll commands opened).store.nodes = [n] ∧ n.canvasW = 0 ∧ n.canvasH = 7 ∧ n.InRange ∧ n.IsUnsigned := by
  intro commands
  have admits : Admits (fun _ => Node.GivesUnsigned) commands opened := by
    refine ⟨fun d listed => ?_, trivial, trivial, trivial⟩
    obtain rfl := Value.obj.inj (List.mem_singleton.mp listed)
    constructor <;> exact Node.nonneg_of_toOption (by decide +kernel)
  have sizes : (runAll commands opened).store.nodes.map (fun n => (n.canvasW, n.canvasH)) = [(0, 7)] := by
    decide +kernel
  obtain ⟨n, single, size⟩ := List.map_eq_singleton_iff.mp sizes
  obtain ⟨width, height⟩ := Prod.mk.inj size
  obtain ⟨inRange, unsigned⟩ := inRange_of_runAll _ _ _ _ _ _ _ _ commands
  have isNode : n ∈ (runAll commands opened).store.nodes := single ▸ List.mem_singleton_self n
  exact ⟨admits, n, single, width, height, (inRange n isNode).1, unsigned admits n isNode⟩

/-- A document that is loaded can give negative numbers. -/
theorem not_isUnsigned_of_loaded : ∃ t n, loadSnapshot (scrolling (-5) 7 (-3)) opened = .ok true t ∧
    t.store.nodes = [n] ∧ n.canvasW = -5 ∧ n.scrollbarThickness = -3 ∧ ¬n.IsUnsigned := by
  have answered : (Edit.answer (loadSnapshot (scrolling (-5) 7 (-3)) opened)).toOption = some true := by decide +kernel
  have numbers : (Edit.state (loadSnapshot (scrolling (-5) 7 (-3)) opened)).store.nodes.map
      (fun n => (n.canvasW, n.scrollbarThickness)) = [(-5, -3)] := by decide +kernel
  obtain ⟨n, single, number⟩ := List.map_eq_singleton_iff.mp numbers
  obtain ⟨width, thickness⟩ := Prod.mk.inj number
  refine ⟨_, n, Edit.eq_ok_of_answer answered, single, width, thickness, fun unsigned => ?_⟩
  have := unsigned.canvasW
  omega

end Session

end LayoutDesigner
