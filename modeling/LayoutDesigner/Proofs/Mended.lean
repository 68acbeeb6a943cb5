import LayoutDesigner.Proofs.Record
import LayoutDesigner.Proofs.Structure
import LayoutDesigner.Proofs.Upheld

/-!
# Nodes stay mended

Whatever is typed or read for a property is mended on the way in: an empty name becomes that of the
kind, a fraction is kept between zero and one, a channel between 0 and 255. So nodes that are made,
copied, edited or read from a record can be read back from their records.
-/

namespace LayoutDesigner

open Arith (Faithful HasNumerals IsFraction Lawful isFraction_clamp)

variable {α : Type} [Arith α]

/-- What counts as true is shown as some text. -/
theorem Value.shown_ne_nil [HasNumerals α] {v : Value α} (truthy : v.truthy) : v.shown ≠ [] := by
  cases v with
  | null => cases truthy
  | bool b => cases b <;> exact List.cons_ne_nil _ _
  | num q => exact HasNumerals.numeral_ne_nil q
  | str t => simpa [Value.truthy, Value.shown] using truthy
  | arr items => simp [Value.shown, Value.quoted, Text.ofString]
  | obj members => simp [Value.shown, Value.quoted, Text.ofString]

/-- A text or a default that is not empty is not empty. -/
theorem Text.orElse_ne_nil {t default : Text} (named : default ≠ []) : t.orElse default ≠ [] := by
  cases t with
  | nil => exact named
  | cons c rest => exact List.cons_ne_nil c rest

/-- No kind has an empty name. -/
theorem Kind.name_ne_nil (kind : Kind) : kind.name ≠ [] := by
  cases kind <;> decide

/-- The default font has a name. -/
theorem defaultFont_ne_nil : defaultFont ≠ [] := by
  decide

/-- What is read as a text is not empty where its default is not. -/
theorem Node.readText_ne_nil [HasNumerals α] {d : List (Text × Value α)} {key default : Text} (named : default ≠ []) :
    readText d key default ≠ [] := by
  rw [readText]
  split
  · next truthy => exact Value.shown_ne_nil truthy
  · exact named

namespace Rgb

variable {c : Rgb} {v default : Value α}

/-- The channels of white are in range. -/
theorem inRange_white : white.InRange := by
  constructor <;> decide

/-- The channels of a kind's colour are in range. -/
theorem inRange_descriptor (kind : Kind) : kind.descriptor.bgColor.InRange := by
  cases kind <;> constructor <;> decide

/-- A pair of hexadecimal digits is a channel in range. -/
theorem hexPair?_inRange {a b : CodePoint} {n : Int} (read : hexPair? a b = some n) : 0 ≤ n ∧ n ≤ 255 := by
  have digit : ∀ {c : CodePoint} {k : Nat}, c.hexValue? = some k → k ≤ 15 := by
    intro c k isDigit
    rw [CodePoint.hexValue?] at isDigit
    split at isDigit
    · obtain rfl := Option.some.inj isDigit
      omega
    · split at isDigit
      · obtain rfl := Option.some.inj isDigit
        omega
      · split at isDigit
        · obtain rfl := Option.some.inj isDigit
          omega
        · cases isDigit
  obtain ⟨high, isHigh, read⟩ := Option.bind_eq_some_iff.mp read
  obtain ⟨low, isLow, read⟩ := Option.bind_eq_some_iff.mp read
  obtain rfl := Option.some.inj read
  have := digit isHigh
  have := digit isLow
  omega

/-- A colour that is read of hexadecimal digits is in range. -/
theorem inRange_of_ofHex? {t : Text} (read : ofHex? t = some c) : c.InRange := by
  unfold ofHex? ofDigits? at read
  dsimp only at read
  split at read
  · obtain ⟨r, isR, read⟩ := Option.bind_eq_some_iff.mp read
    obtain ⟨g, isG, read⟩ := Option.bind_eq_some_iff.mp read
    obtain ⟨b, isB, read⟩ := Option.bind_eq_some_iff.mp read
    obtain rfl := Option.some.inj read
    exact ⟨hexPair?_inRange isR, hexPair?_inRange isG, hexPair?_inRange isB⟩
  · cases read

/-- A channel that is read is in range. -/
theorem readChannel_inRange {n : Int} (read : readChannel v default = .ok n) : 0 ≤ n ∧ n ≤ 255 := by
  obtain ⟨x, -, read⟩ := bind_eq_ok.mp read
  obtain rfl := Except.ok.inj read
  rw [channel]
  omega

/-- A colour that is read is in range where the one to fall back on is. -/
theorem inRange_ofValue {fallback : Rgb} (inRange : fallback.InRange)
    (read : ofValue v fallback = .ok c) : c.InRange := by
  have channels : ∀ {r g b : Value α} {c? : Option Rgb},
      ofValue?.ofChannels fallback.channels [r, g, b] = .ok c? → ∀ c, c? = some c → c.InRange := by
    intro r g b c? read c isSome
    obtain ⟨list, isList, read⟩ := bind_eq_ok.mp read
    simp only [Rgb.channels, List.zip_cons_cons, List.zip_nil_left, List.mapM_cons, List.mapM_nil] at isList
    obtain ⟨x, isX, isList⟩ := bind_eq_ok.mp isList
    obtain ⟨_, isRest, isList⟩ := bind_eq_ok.mp isList
    obtain ⟨y, isY, isRest⟩ := bind_eq_ok.mp isRest
    obtain ⟨_, isLast, isRest⟩ := bind_eq_ok.mp isRest
    obtain ⟨z, isZ, isLast⟩ := bind_eq_ok.mp isLast
    obtain ⟨_, isNil, isLast⟩ := bind_eq_ok.mp isLast
    obtain rfl := Except.ok.inj isNil
    obtain rfl := Except.ok.inj isLast
    obtain rfl := Except.ok.inj isRest
    obtain rfl := Except.ok.inj isList
    obtain rfl := Except.ok.inj read
    obtain rfl := Option.some.inj isSome
    exact ⟨readChannel_inRange isX, readChannel_inRange isY, readChannel_inRange isZ⟩
  obtain ⟨c?, isRead, read⟩ := bind_eq_ok.mp read
  obtain rfl := Except.ok.inj read
  have some : ∀ c, c? = some c → c.InRange := by
    rw [ofValue?.eq_def] at isRead
    split at isRead
    · obtain rfl := Except.ok.inj isRead
      exact fun c isSome => inRange_of_ofHex? isSome
    · exact channels isRead
    · exact channels isRead
    · obtain rfl := Except.ok.inj isRead
      exact fun c isSome => by cases isSome
  cases c? with
  | none => exact inRange
  | some c => exact some c rfl

/-- A colour that is typed is in range. -/
theorem inRange_typedColor (v : Value α) : (typedColor v).InRange := by
  rw [typedColor]
  cases read : ofHex? (if v.truthy then v.shown else []) with
  | none => exact inRange_white
  | some c => exact inRange_of_ofHex? read

end Rgb

namespace Node

variable {n m : Node α} {f : Field} {v : Value α}

/-- All extensions of the node are typed. -/
def HasTypedExtensions (n : Node α) : Prop := ∀ e ∈ n.extensions, e.unchecked = none

omit [Arith α] in
/-- Writing a property of an extension leaves all extensions typed. -/
theorem plain_writeProp {extensions : List (Extension α)} {place : Nat} {key : Text} {value : Value α}
    (plain : ∀ e ∈ extensions, e.unchecked = none) :
    ∀ e ∈ Session.writeProp extensions place key value, e.unchecked = none := by
  intro e member
  obtain ⟨i, inside, rfl⟩ := List.mem_iff_getElem.mp member
  rw [Session.writeProp, List.length_modify] at inside
  simp only [Session.writeProp, List.getElem_modify]
  have isPlain := plain _ (List.getElem_mem inside)
  split <;> exact isPlain

/-- Edits uphold that extensions are typed. -/
theorem HasTypedExtensions.upheld (Fresh : Text → Prop) : Upheld Fresh (HasTypedExtensions (α := α)) where
  reshaped {n m} typed reshaped := by
    have same : m.extensions = n.extensions := reshaped.common Node.extensions fun _ _ => rfl
    rwa [HasTypedExtensions, same]
  setParent _ typed := typed
  setZ _ typed := typed
  created _ created := by simp [HasTypedExtensions, created.extensions]
  read read := plain_of_readExtensions read.extensions
  copied _ _ typed := typed
  relabelled {n ids} _ typed e member := by
    obtain ⟨⟨old, id⟩, listed, rfl⟩ := List.mem_map.mp member
    exact typed old (List.of_mem_zip listed).1
  setField written typed := by rwa [HasTypedExtensions, extensions_setField written]
  setText _ typed := typed
  extended kind _ typed := List.forall_mem_append.mpr ⟨typed, by simp [Extension.new]⟩
  filtered _ typed e member := typed e (List.mem_filter.mp member).1
  writeProp _ _ _ typed := plain_writeProp typed

section

variable [Faithful α]

/-- A part of an anchor that is typed is a fraction. -/
theorem isFraction_readAnchorPart {part : α} (read : readAnchorPart v = .ok part) : IsFraction part := by
  obtain ⟨typed, isTyped, read⟩ := bind_eq_ok.mp read
  obtain rfl := Except.ok.inj read
  exact isFraction_clamp (Value.isFinite_toNumber (Faithful.isFinite_ofDecimal 0 0) isTyped)

/-- A fraction that is read is one where its default is finite. -/
theorem isFraction_readFraction {d : List (Text × Value α)} {key : Text} {default x : α}
    (finite : Arith.isFinite default) (read : readFraction d key default = .ok x) : IsFraction x := by
  obtain ⟨v, isTyped, read⟩ := bind_eq_ok.mp read
  obtain rfl := Except.ok.inj read
  exact isFraction_clamp (Value.isFinite_toNumber finite isTyped)

end

namespace IsMended

/-- A change of place and sides alone leaves a node mended. -/
theorem of_reshaped (mended : n.IsMended) (reshaped : Reshaped n m) : m.IsMended where
  plain := reshaped.plain mended.plain
  id := reshaped.id ▸ mended.id
  name := reshaped.common Node.name (fun _ _ => rfl) ▸ mended.name
  font := reshaped.common Node.font (fun _ _ => rfl) ▸ mended.font
  anchorX := reshaped.anchorX ▸ mended.anchorX
  anchorY := reshaped.anchorY ▸ mended.anchorY
  bgAlpha := reshaped.common Node.bgAlpha (fun _ _ => rfl) ▸ mended.bgAlpha
  bgColor := reshaped.common Node.bgColor (fun _ _ => rfl) ▸ mended.bgColor
  textColor := reshaped.common Node.textColor (fun _ _ => rfl) ▸ mended.textColor
  extensions := reshaped.common Node.extensions (fun _ _ => rfl) ▸ mended.extensions

variable [Faithful α]

/-- A property that was written is mended. -/
theorem setField (mended : n.IsMended) (written : n.setField f v = .ok m) : m.IsMended := by
  have plain : m.unchecked = [] := (adjusted_setField written).plain mended.plain
  cases setField_iff.mp written with
  | anchor typed =>
      obtain ⟨anchorX, anchorY⟩ := forall_parseAnchor isFraction_readAnchorPart typed
      exact { mended with plain, anchorX, anchorY }
  | bgAlpha typed =>
      have finite := Value.isFinite_toNumber (Faithful.isFinite_ofDecimal _ _) typed
      exact { mended with plain, bgAlpha := isFraction_clamp finite }
  | name => exact { mended with plain, name := Text.orElse_ne_nil n.kind.name_ne_nil }
  | font => exact { mended with plain, font := Text.orElse_ne_nil defaultFont_ne_nil }
  | bgColor => exact { mended with plain, bgColor := Rgb.inRange_typedColor v }
  | textColor => exact { mended with plain, textColor := Rgb.inRange_typedColor v }
  | _ => exact { mended with plain }

/-- A new node is mended, where its id is not empty. -/
theorem of_created {kind : Kind} {id parent : Text} {z : Int} (named : id ≠ [])
    (created : Store.IsCreated kind id parent z n) : n.IsMended where
  plain := created.plain
  id := created.id ▸ named
  name := created.name ▸ kind.name_ne_nil
  font := created.font ▸ defaultFont_ne_nil
  anchorX := created.anchorX ▸ Arith.isFraction_half
  anchorY := created.anchorY ▸ Arith.isFraction_half
  bgAlpha := created.bgAlpha ▸ Arith.isFraction_one
  bgColor := created.bgColor ▸ Rgb.inRange_descriptor kind
  textColor := created.textColor ▸ Rgb.inRange_white
  extensions := by simp [created.extensions]

/-- A node that was read is mended. -/
theorem of_read {d : List (Text × Value α)} (read : IsRead depth d n) : n.IsMended where
  plain := read.plain
  id := read.named
  name := read.name ▸ readText_ne_nil n.kind.name_ne_nil
  font := read.font ▸ readText_ne_nil defaultFont_ne_nil
  anchorX := isFraction_readFraction (Faithful.isFinite_ofDecimal 5 1) read.anchorX
  anchorY := isFraction_readFraction (Faithful.isFinite_ofDecimal 5 1) read.anchorY
  bgAlpha := isFraction_readFraction (Faithful.isFinite_ofDecimal 1 0) read.bgAlpha
  bgColor := Rgb.inRange_ofValue (Rgb.inRange_descriptor _) read.bgColor
  textColor := Rgb.inRange_ofValue Rgb.inRange_white read.textColor
  extensions := plain_of_readExtensions read.extensions

omit [Faithful α] in
/-- Extensions may be made others where all of them stay typed. -/
theorem setExtensions {extensions : List (Extension α)} (mended : n.IsMended)
    (typed : HasTypedExtensions { n with extensions }) : IsMended { n with extensions } :=
  { mended with extensions := typed }

/-- Edits uphold that a node is mended. -/
theorem upheld : Upheld (fun id => id ≠ root ∧ id ≠ []) (IsMended (α := α)) :=
  let typed := HasTypedExtensions.upheld (α := α) fun id => id ≠ root ∧ id ≠ []
  { reshaped := of_reshaped
    setParent := fun _ mended => { mended with plain := without_plain mended.plain _ }
    setZ := fun _ mended => { mended with plain := without_plain mended.plain _ }
    created := fun fresh created => of_created fresh.2 created
    read := of_read
    copied := fun fresh named mended => { mended with id := fresh.2, name := named }
    relabelled := fun fresh mended => mended.setExtensions (typed.relabelled fresh mended.extensions)
    setField := fun written mended => mended.setField written
    setText := fun _ mended => { mended with }
    extended := fun kind fresh mended => mended.setExtensions (typed.extended kind fresh mended.extensions)
    filtered := fun stays mended => mended.setExtensions (typed.filtered stays mended.extensions)
    writeProp := fun place key value mended =>
      mended.setExtensions (typed.writeProp place key value mended.extensions) }

end IsMended

end Node

namespace Contract

variable {least offset zoomRange : Value α}

/-- The contract that the store is sound and the project typed. -/
def soundTyped (least offset zoomRange : Value α) : Contract α :=
  { sound True least offset zoomRange with Known := Project.IsTyped }

/-- The contract that no supplied id is empty as well. -/
def typed (least offset zoomRange : Value α) : Contract α :=
  { soundTyped least offset zoomRange with Fresh := fun id => id ≠ root ∧ id ≠ [] }

/-- The contract that all nodes are mended as well. -/
def mended (least offset zoomRange : Value α) : Contract α :=
  (typed least offset zoomRange).upholding Node.IsMended

/-- The contract for sound sessions with typed projects is kept. -/
theorem kept_soundTyped [Lawful α] (leastMeasure : least.IsMeasure) : (soundTyped least offset zoomRange).Kept := by
  have kept : (sound True least offset zoomRange).Kept := kept_sound fun _ => leastMeasure
  exact { kept with
    load := fun good typed unreserved read => by
      obtain ⟨sound, sameIds, -⟩ := kept.load good trivial unreserved read
      obtain ⟨_, -, -, -, project, -⟩ := Snapshot.read_ok read
      exact ⟨sound, sameIds, project ▸ Project.IsTyped.ofValue typed _⟩
    setProject := fun name v typed => typed.setField name v }

/-- The contract for sessions with typed projects is kept. -/
theorem kept_typed [Lawful α] (leastMeasure : least.IsMeasure) : (typed least offset zoomRange).Kept :=
  let kept : (soundTyped least offset zoomRange).Kept := kept_soundTyped leastMeasure
  { kept with
    first := fun good fresh => kept.first good fresh.1
    create := fun kind good fresh => kept.create kind good fresh.1
    copy := fun good found fresh copied allFresh => kept.copy good found fresh.1 copied fun other listed => (allFresh other listed).1
    extend := fun id kind good fresh => kept.extend id kind good fresh.1 }

/-- The contract for mended nodes is kept. -/
theorem kept_mended [Faithful α] (leastMeasure : least.IsMeasure) : (mended least offset zoomRange).Kept :=
  kept_upholding (kept_typed leastMeasure) (fun good => good.orderly) (fun start => start.1) Node.IsMended.upheld

end Contract

namespace Session

variable {P : Node α → Prop} {canvas : Value α × Value α} {least offset zoomRange : Value α} {zoom : α} {defaults : Project α}
  {idSupply : Nat → Text} {depth : Nat}

/-- In a new session there are no nodes, so all of them have any property. -/
theorem holds_upholding_new (width : canvas.1.IsMeasure) (height : canvas.2.IsMeasure) (typed : defaults.IsTyped)
    (fresh : ∀ taken, idSupply taken ≠ root ∧ idSupply taken ≠ []) :
    ((Contract.typed least offset zoomRange).upholding P).Holds
      (new canvas least offset zoom zoomRange defaults idSupply depth) := by
  have sound : (Contract.sound True least offset zoomRange).Holds
      (new canvas least offset zoom zoomRange defaults idSupply depth) :=
    holds_new (fun taken => (fresh taken).1) fun _ => ⟨width, height⟩
  exact { sound with
    good := ⟨sound.good, by simp [Store.All, store, new]⟩
    supply := fresh
    project := typed
    defaults := typed }

/-- A new session keeps the contract for mended nodes. -/
theorem holds_mended_new (width : canvas.1.IsMeasure) (height : canvas.2.IsMeasure) (typed : defaults.IsTyped)
    (fresh : ∀ taken, idSupply taken ≠ root ∧ idSupply taken ≠ []) :
    (Contract.mended least offset zoomRange).Holds (new canvas least offset zoom zoomRange defaults idSupply depth) :=
  holds_upholding_new width height typed fresh

end Session

end LayoutDesigner
