import LayoutDesigner.Proofs.Magnitude
import LayoutDesigner.Proofs.Reshape

/-!
# Nodes whose measures fit

A node's anchor is given by reals, and its position and size by numbers that fit. Clamping, moving
and resizing such a node inside a parent whose sides fit cannot fail, once a handle is readable, and
gives such a node again.
-/

namespace LayoutDesigner

open Arith

variable {α : Type} [Arith α]

/-- The value is a number that fits. -/
def Value.IsMeasure (v : Value α) : Prop := ∃ a, v.asOperand = .ok a ∧ Fits a

namespace Value

variable {v w low high : Value α} {a b : α}

/-- A number is a measure exactly where it fits. -/
theorem isMeasure_num : (Value.num a).IsMeasure ↔ Fits a :=
  ⟨fun ⟨_, same, fits⟩ => Except.ok.inj same ▸ fits, fun fits => ⟨a, rfl, fits⟩⟩

/-- Only numbers and truth values are operands. -/
theorem number?_of_asOperand (isOperand : v.asOperand = .ok a) : v.number? = some a := by
  rw [asOperand] at isOperand
  split at isOperand
  · next n found => rw [found, Except.ok.inj isOperand]
  · cases isOperand

/-- Numbers are compared as numbers. -/
theorem less_operands (left : v.asOperand = .ok a) (right : w.asOperand = .ok b) :
    v.less w = .ok (Arith.lt a b) := by
  have left' := number?_of_asOperand left
  have right' := number?_of_asOperand right
  cases v <;> cases w <;> simp_all [less, number?]

/-- Keeping a number in a range is the same for values and for numbers. -/
theorem clamp_num (v low high : α) :
    Value.clamp (.num v) (.num low) (.num high) = .ok (.num (Arith.clamp v low high)) := by
  have lesser : ∀ a b : α, Value.less (.num a) (.num b) = .ok (Arith.lt a b) := fun _ _ => rfl
  have picked : ∀ (c : Bool) (a b : α),
      (if c then Value.num a else .num b) = .num (if c then a else b) := fun c _ _ => by cases c <;> rfl
  simp only [Value.clamp, lesser]
  change (do
    let above ← Value.less (.num low) (if Arith.lt v high then .num v else .num high)
    Except.ok (if above then (if Arith.lt v high then Value.num v else .num high) else .num low)) = _
  rw [picked, lesser]
  exact congrArg Except.ok (picked _ _ _)

/-- Keeping a number between two numbers gives one of the three. -/
theorem clamp_operands (isMeasure : v.IsMeasure) (lowMeasure : low.IsMeasure)
    (highMeasure : high.IsMeasure) : ∃ w, clamp v low high = .ok w ∧ w.IsMeasure := by
  obtain ⟨a, isOperand, fits⟩ := isMeasure
  obtain ⟨b, lowOperand, lowFits⟩ := lowMeasure
  obtain ⟨c, highOperand, highFits⟩ := highMeasure
  have lesser : ∃ d, (if Arith.lt a c then v else high).asOperand = .ok d ∧ Fits d := by
    split
    · exact ⟨a, isOperand, fits⟩
    · exact ⟨c, highOperand, highFits⟩
  obtain ⟨d, lesserOperand, lesserFits⟩ := lesser
  refine ⟨if Arith.lt b d then if Arith.lt a c then v else high else low, ?_, ?_⟩
  · simp only [clamp, less_operands isOperand highOperand]
    change (do let less ← low.less (if Arith.lt a c then v else high); _) = _
    rw [less_operands lowOperand lesserOperand]
    rfl
  · split
    · exact ⟨d, lesserOperand, lesserFits⟩
    · exact ⟨b, lowOperand, lowFits⟩

end Value

/-- Where nothing is unchecked, all attributes are numbers. -/
theorem Node.needNumbers_plain {u : Unchecked α} (plain : u = []) (attributes : List Attribute) :
    u.needNumbers attributes = .ok () := by
  rw [Unchecked.needNumbers, if_pos]
  simp [Unchecked.areNumbers, Unchecked.value?, plain]

/-- A typed node is called by a text. -/
theorem Node.calledText_plain {n : Node α} (plain : n.unchecked = []) : ∃ name, n.calledText = .ok name := by
  have isText : ∃ name, n.called = .str name := by
    simp only [called, written, plain, Unchecked.value?, List.find?_nil, Option.map_none]
    split <;> exact ⟨_, rfl⟩
  obtain ⟨name, isName⟩ := isText
  exact ⟨name, by rw [calledText, isName]⟩

namespace Node

/-- Anchor, position and size of the node can be computed with. -/
structure IsMeasured (n : Node α) : Prop where
  plain : n.unchecked = []
  anchorX : IsReal n.anchorX
  anchorY : IsReal n.anchorY
  x : Fits n.x
  y : Fits n.y
  w : Fits n.w
  h : Fits n.h

variable {n : Node α} {v : α}

/-- The upper left corner of a node whose measures fit can be computed. -/
theorem IsMeasured.corner_ok [Lawful α] (measured : n.IsMeasured) :
    ∃ dx dy left top, mul n.anchorX n.w = .ok dx ∧ mul n.anchorY n.h = .ok dy ∧ sub n.x dx = .ok left ∧
      sub n.y dy = .ok top ∧ IsReal left ∧ IsReal top := by
  obtain ⟨dx, isDx⟩ := Lawful.mul_ok measured.anchorX.fits measured.w
  obtain ⟨dy, isDy⟩ := Lawful.mul_ok measured.anchorY.fits measured.h
  have dxReal := Lawful.isReal_mul isDx (.inl measured.anchorX)
  have dyReal := Lawful.isReal_mul isDy (.inl measured.anchorY)
  obtain ⟨left, isLeft⟩ := Lawful.sub_ok measured.x dxReal.fits
  obtain ⟨top, isTop⟩ := Lawful.sub_ok measured.y dyReal.fits
  exact ⟨dx, dy, left, top, isDx, isDy, isLeft, isTop, Lawful.isReal_sub isLeft (.inr dxReal),
    Lawful.isReal_sub isTop (.inr dyReal)⟩

/-- Another layer leaves a node measured. -/
theorem IsMeasured.setZ (measured : n.IsMeasured) (z : Int) : (n.setZ z).IsMeasured :=
  { measured with plain := without_plain measured.plain .zIndex }

/-- Another parent leaves a node measured. -/
theorem IsMeasured.setParent (measured : n.IsMeasured) (parent : Text) : (n.setParent parent).IsMeasured :=
  { measured with plain := without_plain measured.plain .parent }

/-- Another abscissa that fits leaves a node measured. -/
theorem IsMeasured.setX (measured : n.IsMeasured) (fits : Fits v) : (n.setX v).IsMeasured :=
  { measured with plain := without_plain measured.plain .x, x := fits }

/-- Another ordinate that fits leaves a node measured. -/
theorem IsMeasured.setY (measured : n.IsMeasured) (fits : Fits v) : (n.setY v).IsMeasured :=
  { measured with plain := without_plain measured.plain .y, y := fits }

/-- Another width that fits leaves a node measured. -/
theorem IsMeasured.setW (measured : n.IsMeasured) (fits : Fits v) : (n.setW v).IsMeasured :=
  { measured with plain := without_plain measured.plain .w, w := fits }

/-- Another height that fits leaves a node measured. -/
theorem IsMeasured.setH (measured : n.IsMeasured) (fits : Fits v) : (n.setH v).IsMeasured :=
  { measured with plain := without_plain measured.plain .h, h := fits }

end Node

/-- The nearest number of a range is one of three. -/
theorem isReal_clamp {v low high : α} (isReal : IsReal v) (lowReal : IsReal low)
    (highReal : IsReal high) : IsReal (Arith.clamp v low high) := by
  simp only [Arith.clamp, Arith.max, Arith.min]
  split_ifs <;> assumption

variable [Lawful α]

/-- Zero is a real. -/
theorem isReal_zero : IsReal (zero : α) := Lawful.isReal_ofDecimal 0 0

/-- One is a real. -/
theorem isReal_one : IsReal (one : α) := Lawful.isReal_ofDecimal 1 0

/-- A half is a real. -/
theorem isReal_half : IsReal (half : α) := Lawful.isReal_ofDecimal 5 1

/-- A truth value comes to a real. -/
theorem isReal_ofBool (b : Bool) : IsReal (ofBool b : α) := by
  rw [ofBool]
  split
  · exact isReal_one
  · exact isReal_zero

namespace Value

variable {v default : Value α} {x : α}

/-- What is read as a real is one. -/
theorem isReal_asReal (read : v.asReal = .ok x) : IsReal x := by
  cases v with
  | bool b => exact Except.ok.inj read ▸ isReal_ofBool b
  | num n => exact Lawful.isReal_toReal read
  | str t =>
      simp only [asReal] at read
      split at read
      · next found => exact Except.ok.inj read ▸ Lawful.isReal_ofNumeral found
      · cases read
  | null => cases read
  | arr => cases read
  | obj => cases read

/-- Whatever is read as a number is a real. -/
theorem isReal_toNumber (read : v.toNumber default = .ok x) : IsReal x := by
  unfold toNumber at read
  split at read
  · exact Except.ok.inj read ▸ isReal_ofBool _
  · split at read
    · next found =>
        split at read
        · exact Except.ok.inj read ▸ isReal_asReal found
        · exact isReal_asReal read
    · exact isReal_asReal read
    · exact isReal_asReal read
    · cases read

/-- A number that fits is read as a real. -/
theorem toNumberOrZero_ok {a : α} (fits : Fits a) :
    ∃ r, (Value.num a).toNumberOrZero = .ok r ∧ IsReal r := by
  obtain ⟨r, isReal⟩ := fits
  have returns : ∃ r, (Value.num a).toNumberOrZero = .ok r := by
    simp only [toNumberOrZero, toNumber, asReal, isReal]
    split
    · exact ⟨r, rfl⟩
    · exact ⟨zero, isReal_zero⟩
  obtain ⟨r, same⟩ := returns
  exact ⟨r, same, isReal_toNumber same⟩

end Value

/-- A number that fits has a nearest integer, which fits too. -/
theorem roundHalfUp_ok {a : α} (fits : Fits a) :
    ∃ k, roundHalfUp a = .ok k ∧ Fits (Arith.ofInt k : α) := by
  obtain ⟨r, same, isReal⟩ := Value.toNumberOrZero_ok fits
  exact ⟨floorHalf r, by simp only [roundHalfUp, Value.roundHalfUp, same]; rfl, Lawful.fits_floorHalf isReal⟩

namespace Node

variable {n : Node α} {parentW parentH least low high : Value α} {v w : α}

/-- A number that fits is rounded into bounds that are measures. -/
theorem roundInto_ok (fits : Fits v) (lowMeasure : low.IsMeasure) (highMeasure : high.IsMeasure) :
    ∃ w, roundInto v low high = .ok w ∧ Fits w := by
  obtain ⟨k, rounded, kFits⟩ := roundHalfUp_ok fits
  obtain ⟨w, clamped, a, isOperand, wFits⟩ :=
    Value.clamp_operands (Value.isMeasure_num.mpr kFits) lowMeasure highMeasure
  refine ⟨a, ?_, wFits⟩
  rw [roundInto, rounded]
  change (do let w ← Value.clamp (.int k) low high; w.asOperand) = _
  rw [Value.int, clamped]
  exact isOperand

/-- The places that an anchor may take range between two reals. -/
theorem anchorRange_ok {anchor side : α} {parent : Value α} (anchorReal : IsReal anchor)
    (sideFits : Fits side) (parentMeasure : parent.IsMeasure) :
    ∃ range, anchorRange anchor side parent = .ok range ∧ IsReal range.1 ∧ IsReal range.2 := by
  obtain ⟨p, isOperand, parentFits⟩ := parentMeasure
  obtain ⟨first, isFirst⟩ := Lawful.mul_ok anchorReal.fits sideFits
  obtain ⟨rest, isRest⟩ := Lawful.sub_ok (Lawful.fits_ofInt (n := 1) (by decide)) anchorReal.fits
  have restReal := Lawful.isReal_sub isRest (.inr anchorReal)
  obtain ⟨second, isSecond⟩ := Lawful.mul_ok restReal.fits sideFits
  have secondReal := Lawful.isReal_mul isSecond (.inl restReal)
  obtain ⟨last, isLast⟩ := Lawful.sub_ok parentFits secondReal.fits
  refine ⟨(first, last), ?_, Lawful.isReal_mul isFirst (.inl anchorReal),
    Lawful.isReal_sub isLast (.inr secondReal)⟩
  simp only [anchorRange, isFirst, isOperand, isRest]
  change (do
    let second ← Arith.mul rest side
    let last ← Arith.sub p second
    Except.ok (first, last)) = _
  rw [isSecond]
  change (do
    let last ← Arith.sub p second
    Except.ok (first, last)) = _
  rw [isLast]
  rfl

/-- A node with measures that fit can be kept inside a parent with sides that fit. -/
theorem ends_clampIn (measured : n.IsMeasured) (leastMeasure : least.IsMeasure)
    (wMeasure : parentW.IsMeasure) (hMeasure : parentH.IsMeasure) :
    (clampIn parentW parentH least).Ends n (fun _ m => m.IsMeasured) fun _ _ => False := by
  unfold clampIn
  simp only [Edit.ends_bind, Edit.ends_get, Edit.ends_modify]
  refine Edit.ends_lift_of (roundInto_ok measured.w leastMeasure wMeasure) fun w wFits => ?_
  have sized := measured.setW wFits
  refine Edit.ends_lift_of (roundInto_ok sized.h leastMeasure hMeasure) fun h hFits => ?_
  have sized := sized.setH hFits
  rw [needNumbers_plain sized.plain]
  refine Edit.ends_lift_ok rfl ?_
  refine Edit.ends_lift_of (anchorRange_ok sized.anchorX sized.w wMeasure) fun xs xsReal => ?_
  refine Edit.ends_lift_of (anchorRange_ok sized.anchorY sized.h hMeasure) fun ys ysReal => ?_
  refine Edit.ends_lift_of (roundInto_ok sized.x (Value.isMeasure_num.mpr xsReal.1.fits)
    (Value.isMeasure_num.mpr xsReal.2.fits)) fun x xFits => ?_
  have placed := sized.setX xFits
  refine Edit.ends_lift_of (roundInto_ok placed.y (Value.isMeasure_num.mpr ysReal.1.fits)
    (Value.isMeasure_num.mpr ysReal.2.fits)) fun y yFits => ?_
  exact placed.setY yFits

/-- What was rounded into bounds that are measures fits. -/
theorem fits_roundInto (rounded : roundInto v low high = .ok w) (lowMeasure : low.IsMeasure)
    (highMeasure : high.IsMeasure) : Fits w := by
  obtain ⟨k, isNearest, rest⟩ := bind_eq_ok.mp rounded
  obtain ⟨kept, clamped, isOperand⟩ := bind_eq_ok.mp rest
  have kFits : Fits (Arith.ofInt k : α) := by
    simp only [roundHalfUp, Value.roundHalfUp] at isNearest
    cases read : (Value.num v).toNumberOrZero with
    | error fault => simp [read, Except.map] at isNearest
    | ok r =>
        rw [read] at isNearest
        obtain rfl := Except.ok.inj isNearest
        exact Lawful.fits_floorHalf (Value.isReal_toNumber read)
  obtain ⟨other, clamped', a, isOperand', fits⟩ :=
    Value.clamp_operands (Value.isMeasure_num.mpr kFits) lowMeasure highMeasure
  rw [Value.int, clamped', Except.ok.injEq] at clamped
  rw [← clamped, isOperand', Except.ok.injEq] at isOperand
  exact isOperand ▸ fits

/-- Whatever measures a node had, where it could be kept inside its parent they fit. -/
theorem measured_clampIn (plain : n.unchecked = []) (anchorX : IsReal n.anchorX)
    (anchorY : IsReal n.anchorY) (leastMeasure : least.IsMeasure) (wMeasure : parentW.IsMeasure)
    (hMeasure : parentH.IsMeasure) :
    (clampIn parentW parentH least).Ends n (fun _ m => m.IsMeasured) fun _ _ => True := by
  have measures : (clampIn parentW parentH least).Ends n
      (fun _ m => Fits m.x ∧ Fits m.y ∧ Fits m.w ∧ Fits m.h) fun _ _ => True := by
    unfold clampIn
    simp only [Edit.ends_bind, Edit.ends_get, Edit.ends_modify]
    refine Edit.ends_lift_any fun w isW => Edit.ends_lift_any fun h isH =>
      Edit.ends_lift_any fun _ _ => ?_
    have wFits := fits_roundInto isW leastMeasure wMeasure
    have hFits := fits_roundInto isH leastMeasure hMeasure
    refine Edit.ends_lift_of (anchorRange_ok anchorX wFits wMeasure) fun xs xsReal => ?_
    refine Edit.ends_lift_of (anchorRange_ok anchorY hFits hMeasure) fun ys ysReal => ?_
    refine Edit.ends_lift_any fun x isX => Edit.ends_lift_any fun y isY => ?_
    have xFits := fits_roundInto isX (Value.isMeasure_num.mpr xsReal.1.fits)
      (Value.isMeasure_num.mpr xsReal.2.fits)
    have yFits := fits_roundInto isY (Value.isMeasure_num.mpr ysReal.1.fits)
      (Value.isMeasure_num.mpr ysReal.2.fits)
    exact ⟨xFits, yFits, wFits, hFits⟩
  refine (measures.and (keeps_clampIn n)).mono ?_ fun _ _ _ => trivial
  rintro _ m ⟨⟨xFits, yFits, wFits, hFits⟩, reshaped⟩
  exact ⟨reshaped.plain plain, reshaped.anchorX ▸ anchorX, reshaped.anchorY ▸ anchorY, xFits, yFits,
    wFits, hFits⟩

end Node

end LayoutDesigner
