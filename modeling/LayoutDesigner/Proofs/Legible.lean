import LayoutDesigner.Script.Assignment
import LayoutDesigner.Proofs.Rational
import LayoutDesigner.Proofs.Mended

/-!
# What comes to a number

Anything but an integer beyond the reals can be read where a number is expected: what is no number
comes to a default. So a colour can be read unless one of its channels is such an integer, and an
extension can be written unless a property in the table of its kind is one.
-/

namespace LayoutDesigner

open Arith
open Script (Expr)

/-- Reading stops at an integer beyond the reals, at a value of a wrong type, and where calls are nested too
deeply. -/
def Fault.StopsReading (fault : Fault) : Prop := fault = .integerTooLarge ∨ fault = .wrongType ∨ fault = .tooDeep

/-- The computation returns exactly under a condition, and else reading stops. -/
structure ReadsWhen {β : Type} (x : Except Fault β) (condition : Prop) : Prop where
  returns : (∃ value, x = .ok value) ↔ condition
  stops {fault : Fault} : x = .error fault → fault.StopsReading

namespace ReadsWhen

variable {β γ : Type} {x : Except Fault γ} {next : γ → Except Fault β} {condition rest : Prop}

/-- What returns reads when anything is true. -/
theorem of_ok (returns : ∃ value, x = .ok value) (holds : condition) : ReadsWhen x condition where
  returns := iff_of_true returns holds
  stops failed := by
    obtain ⟨value, returned⟩ := returns
    rw [returned] at failed
    cases failed

/-- What fails at something that stops reading reads when something is false. -/
theorem of_error {fault : Fault} (failed : x = .error fault) (stops : fault.StopsReading) (fails : ¬condition) :
    ReadsWhen x condition where
  returns := iff_of_false (fun ⟨_, returned⟩ => by rw [failed] at returned; cases returned) fails
  stops failed' := by
    rw [failed] at failed'
    exact Except.error.inj failed' ▸ stops

/-- A condition may be replaced by an equivalent one. -/
theorem congr (reads : ReadsWhen x condition) (same : condition ↔ rest) : ReadsWhen x rest :=
  ⟨reads.returns.trans same, reads.stops⟩

/-- Of two computations in a row the second is asked only where the first returns. -/
theorem bind (reads : ReadsWhen x condition) (later : ∀ middle, x = .ok middle → ReadsWhen (next middle) rest) :
    ReadsWhen (x >>= next) (condition ∧ rest) := by
  cases ran : x with
  | ok middle =>
      have holds : condition := reads.returns.mp ⟨middle, ran⟩
      exact (later middle ran).congr (and_iff_right holds).symm
  | error fault =>
      refine of_error rfl (reads.stops ran) fun both => ?_
      obtain ⟨value, returned⟩ := reads.returns.mpr both.1
      rw [ran] at returned
      cases returned

/-- A computation after one of which it is known what it returns. -/
theorem known {middle : γ} (isMiddle : x = .ok middle) (reads : ReadsWhen (next middle) condition) :
    ReadsWhen (x >>= next) condition := by
  subst isMiddle
  exact reads

/-- A computation before one that always returns. -/
theorem then_ok (reads : ReadsWhen x condition) (always : ∀ middle, x = .ok middle → ∃ value, next middle = .ok value) :
    ReadsWhen (x >>= next) condition := by
  have both : ReadsWhen (x >>= next) (condition ∧ True) :=
    reads.bind fun middle isMiddle => of_ok (always middle isMiddle) trivial
  exact both.congr (iff_of_eq (and_true _))

/-- A computation whose value is only put into another one. -/
theorem map (reads : ReadsWhen x condition) {f : γ → β} : ReadsWhen (x >>= fun middle => pure (f middle)) condition :=
  reads.then_ok fun _ _ => ⟨_, rfl⟩

/-- A result may be changed without another condition. -/
theorem mapped (reads : ReadsWhen x condition) {f : γ → β} : ReadsWhen (x.map f) condition := by
  have same : x.map f = x >>= fun middle => pure (f middle) := by
    cases x <;> rfl
  exact same ▸ reads.map

end ReadsWhen

/-- A number for which there is no real is refused as too large. -/
class Arith.Refuses (α : Type) [Arith α] : Prop where
  toReal_error {a : α} {fault : Fault} : toReal a = .error fault → fault = .integerTooLarge

instance : Refuses Number where
  toReal_error {a fault} refused := by
    cases a with
    | real x => cases refused
    | int n =>
        simp only [toReal, Number.toFloat] at refused
        split at refused
        · cases refused
        · cases refused
          rfl

instance : Refuses ℚ where
  toReal_error refused := by cases refused

variable {α : Type} [Arith α]

/-- The value is no number, or one for which there is a real. -/
def Value.IsLegible (v : Value α) : Prop := ∀ a, v = .num a → Fits a

instance {v : Value α} : Decidable v.IsLegible :=
  match v with
  | .num a => decidable_of_iff (Fits a) (by simp [Value.IsLegible])
  | .null | .bool _ | .str _ | .arr _ | .obj _ => .isTrue fun _ same => by cases same

/-- Over the rationals every value is legible. -/
theorem Value.isLegible_rational (v : Value ℚ) : v.IsLegible := fun a _ => ⟨a, rfl⟩

variable [Refuses α]

/-- A value comes to a number exactly where it is legible, if there is one to fall back on. -/
theorem Value.reads_toNumber {v : Value α} {default : α} (fits : Fits default) :
    ReadsWhen (v.toNumber (.num default)) v.IsLegible := by
  obtain ⟨r, isReal⟩ := fits
  have fallback : (Value.num default).asReal = .ok r := isReal
  have apart : (∀ a, v ≠ .num a) → v.IsLegible := fun isNone a isNumber => absurd isNumber (isNone a)
  cases v with
  | num a =>
      simp only [toNumber]
      cases read : (Value.num a).asReal with
      | ok x =>
          refine .of_ok ?_ fun _ same => Value.num.inj same ▸ ⟨x, read⟩
          dsimp only
          split
          · exact ⟨x, rfl⟩
          · exact ⟨r, fallback⟩
      | error fault =>
          obtain rfl := Refuses.toReal_error read
          refine .of_error rfl (.inl rfl) fun legible => ?_
          obtain ⟨x, isReal⟩ := legible a rfl
          rw [show (Value.num a).asReal = .ok x from isReal] at read
          cases read
  | str t =>
      refine .of_ok ?_ (apart fun _ same => by cases same)
      simp only [toNumber, asReal]
      cases (ofNumeral? t : Option α) with
      | none => exact ⟨r, fallback⟩
      | some x =>
          dsimp only
          split
          · exact ⟨x, rfl⟩
          · exact ⟨r, fallback⟩
  | bool b => exact .of_ok ⟨_, rfl⟩ (apart fun _ same => by cases same)
  | _ => exact .of_ok ⟨r, fallback⟩ (apart fun _ same => by cases same)

variable [Lawful α]

namespace Rgb

/-- The channels of a value that is read as a colour. -/
def channelsOf : Value α → List (Value α)
  | .obj d => [Value.field "r" d, Value.field "g" d, Value.field "b" d]
  | .arr [r, g, b] => [r, g, b]
  | _ => []

/-- A channel is read exactly where it is legible. -/
theorem reads_readChannel {v : Value α} {n : Int} (inRange : 0 ≤ n ∧ n ≤ 255) :
    ReadsWhen (readChannel v (.int n)) v.IsLegible :=
  .map (Value.reads_toNumber (Lawful.fits_ofInt ((by omega : n.natAbs ≤ 255).trans (by decide))))

/-- Three channels are read exactly where all of them are legible. -/
theorem reads_ofChannels {r g b : Value α} {fallback : Rgb} (inRange : fallback.InRange) :
    ReadsWhen (ofValue?.ofChannels fallback.channels [r, g, b]) (r.IsLegible ∧ g.IsLegible ∧ b.IsLegible) := by
  simp only [ofValue?.ofChannels, channels, List.zip_cons_cons, List.zip_nil_right, List.mapM_cons,
    List.mapM_nil, bind_assoc, pure_bind]
  exact (reads_readChannel inRange.r).bind fun _ _ => (reads_readChannel inRange.g).bind fun _ _ =>
    (reads_readChannel inRange.b).map

/-- A colour can be read exactly where its channels are legible. -/
theorem reads_ofValue (v : Value α) {fallback : Rgb} (inRange : fallback.InRange) :
    ReadsWhen (ofValue v fallback) (∀ channel ∈ channelsOf v, channel.IsLegible) := by
  refine .map ?_
  unfold ofValue? channelsOf
  split
  · exact .of_ok ⟨_, rfl⟩ (by simp)
  · exact (reads_ofChannels inRange).congr (by simp)
  · exact (reads_ofChannels inRange).congr (by simp)
  · refine .of_ok ⟨_, rfl⟩ ?_
    split
    · simp_all
    · simp_all
    · simp

end Rgb

/-- What a script reads for a property of the type is legible. -/
def PropertyType.CanRead (type : PropertyType α) (v : Value α) : Prop :=
  match type with
  | .color => ∀ channel ∈ Rgb.channelsOf v, channel.IsLegible
  | _ => v.IsLegible

instance {type : PropertyType α} {v : Value α} : Decidable (type.CanRead v) :=
  match type with
  | .color => inferInstanceAs (Decidable (∀ channel ∈ Rgb.channelsOf v, channel.IsLegible))
  | .truth | .integer _ | .real _ | .free => inferInstanceAs (Decidable v.IsLegible)

/-- All properties in the table of the extension's kind are legible. -/
def Extension.IsLegible (e : Extension α) : Prop :=
  ∀ entry ∈ (e.kind.properties : List (Text × PropertyType α)), entry.2.CanRead (Value.field entry.1 e.props)

instance {e : Extension α} : Decidable e.IsLegible :=
  inferInstanceAs (Decidable (∀ entry ∈ (e.kind.properties : List (Text × PropertyType α)),
    entry.2.CanRead (Value.field entry.1 e.props)))

section

omit [Refuses α]

/-- A real has a numeral in a script. -/
theorem scriptNumeral_ok {x : α} (fits : Fits x) : ∃ t, (Value.num x).scriptNumeral = .ok t := by
  obtain ⟨r, isNumber, -⟩ := Value.toNumberOrZero_ok fits
  exact ⟨_, congrArg (Except.map Arith.scriptNumeral) isNumber⟩

/-- A number that fits is written as an offset, or as the nearest integer. -/
theorem rounded_ok {x : α} (fits : Fits x) :
    (∃ e, Expr.roundedOffset (.num x) = .ok e) ∧ ∃ e, Expr.rounded (.num x) = .ok e := by
  obtain ⟨k, rounded, -⟩ := roundHalfUp_ok fits
  exact ⟨⟨_, bind_eq_ok.mpr ⟨k, rounded, rfl⟩⟩, _, bind_eq_ok.mpr ⟨k, rounded, rfl⟩⟩

end

namespace Extension

variable {e : Extension α}

omit [Lawful α] in
/-- A number of an extension is read exactly where it is legible. -/
theorem reads_number {key : Text} {default : α} (fits : Fits default) :
    ReadsWhen (e.number key default) (Value.field key e.props).IsLegible := Value.reads_toNumber fits

/-- A numeral of an extension is written exactly where its number is legible. -/
theorem reads_numeral {key : Text} {default : α} (fits : Fits default) :
    ReadsWhen (e.number key default >>= fun x => (Value.num x).scriptNumeral) (Value.field key e.props).IsLegible :=
  (reads_number fits).then_ok fun _ isNumber => scriptNumeral_ok (Value.isReal_toNumber isNumber).fits

/-- An offset of an extension is written exactly where it is legible. -/
theorem reads_offset {key : Text} {default : Int} (small : default.natAbs ≤ 48) :
    ReadsWhen (e.offset key default) (Value.field key e.props).IsLegible :=
  (reads_number (Lawful.fits_ofInt (small.trans (by decide)))).then_ok fun _ isNumber =>
    (rounded_ok (Value.isReal_toNumber isNumber).fits).1

/-- A rounded number of an extension is written exactly where it is legible. -/
theorem reads_rounded {key : Text} {default : Int} (small : default.natAbs ≤ 48) :
    ReadsWhen (e.rounded key default) (Value.field key e.props).IsLegible := by
  refine (reads_number (Lawful.fits_ofInt (small.trans (by decide)))).then_ok fun _ isNumber => ?_
  obtain ⟨k, rounded, -⟩ := roundHalfUp_ok (Value.isReal_toNumber isNumber).fits
  exact ⟨k, rounded⟩

/-- An extension can be written exactly where its properties are legible. -/
theorem reads_assignments : ReadsWhen e.assignments e.IsLegible := by
  rw [assignments, IsLegible]
  cases e.kind with
  | corner => exact (reads_offset (by decide)).map.congr (by simp [ExtensionKind.properties, PropertyType.CanRead])
  | aspectRatioConstraint =>
      simp only [← bind_assoc]
      exact (reads_numeral isReal_one.fits).map.congr (by simp [ExtensionKind.properties, PropertyType.CanRead])
  | scale =>
      simp only [← bind_assoc]
      exact (reads_numeral isReal_one.fits).map.congr (by simp [ExtensionKind.properties, PropertyType.CanRead])
  | padding =>
      refine ((reads_offset (by decide)).bind fun _ _ => (reads_offset (by decide)).bind fun _ _ =>
        (reads_offset (by decide)).bind fun _ _ => (reads_offset (by decide)).map).congr ?_
      simp [ExtensionKind.properties, PropertyType.CanRead]
  | sizeConstraint =>
      refine ((reads_rounded (by decide)).bind fun _ _ => (reads_rounded (by decide)).bind fun _ _ =>
        (reads_rounded (by decide)).bind fun _ _ => (reads_rounded (by decide)).map).congr ?_
      simp [ExtensionKind.properties, PropertyType.CanRead]
  | stroke =>
      -- The colour and the transparency are read before the thickness, which comes first in the table.
      refine ((Rgb.reads_ofValue _ Rgb.inRange_white).bind fun _ _ =>
        (reads_number (Lawful.isReal_ofDecimal 2 1).fits).bind fun _ _ => (reads_rounded (by decide)).map).congr ?_
      rw [← and_assoc, and_comm]
      simp [ExtensionKind.properties, PropertyType.CanRead]
  | textSizeConstraint =>
      refine ((reads_rounded (by decide)).bind fun _ _ => (reads_rounded (by decide)).map).congr ?_
      simp [ExtensionKind.properties, PropertyType.CanRead]
  | _ => exact .of_ok ⟨_, rfl⟩ (List.forall_mem_nil _)

/-- Over the rationals every extension can be written. -/
theorem assignments_rational (e : Extension ℚ) : ∃ assignments, e.assignments = .ok assignments := by
  refine reads_assignments.returns.mpr ?_
  rintro ⟨key, type⟩ -
  cases type with
  | color => exact fun channel _ => channel.isLegible_rational
  | _ => exact Value.isLegible_rational _

end Extension

end LayoutDesigner
