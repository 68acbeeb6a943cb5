import LayoutDesigner.Proofs.Export
import LayoutDesigner.Proofs.Settling
import LayoutDesigner.Proofs.Structure
import LayoutDesigner.Proofs.Worklist
import Mathlib.Tactic.MkIffOfInductiveProp

/-!
# What can be loaded

A document that breaks the schema is refused, and nothing changes. Of an accepted one every record
that obeys the schema of records is read, and this fails where a member that is read as a number is an
integer beyond the reals, where the kind of an extension is a list or an object, where its properties are
too high to be copied, and where a record has the id of the root. Every other accepted document is loaded,
and what was loaded has a script exactly where its extensions are legible.
-/

namespace LayoutDesigner

open Arith

variable {α : Type} [Arith α] {depth : Nat}

namespace Fault

variable {fault : Fault}

/-- What stops reading is more than a bad record: no record is dropped for it. -/
theorem StopsReading.dropsRecord (stops : fault.StopsReading) : Snapshot.dropsRecord fault = false := by
  rcases stops with rfl | rfl | rfl <;> rfl

/-- What stops reading is no problem of the document, and so is not told as one. -/
theorem StopsReading.isUsable (stops : fault.StopsReading) : Session.isUnusable fault = false := by
  rcases stops with rfl | rfl | rfl <;> rfl

end Fault

namespace Value

/-- The value is no list and no object, so it can be looked up. -/
def IsKey : Value α → Prop
  | .arr _ | .obj _ => False
  | _ => True

instance {v : Value α} : Decidable v.IsKey :=
  match v with
  | .arr _ | .obj _ => .isFalse id
  | .null | .bool _ | .num _ | .str _ => .isTrue trivial

/-- What is no list and no object can be looked up. -/
theorem asId_of_isKey {v : Value α} (isKey : v.IsKey) : ∃ id?, v.asId = .ok id? := by
  cases v with
  | arr items => exact isKey.elim
  | obj members => exact isKey.elim
  | _ => exact ⟨_, rfl⟩

/-- A list or an object cannot be looked up. -/
theorem asId_of_not_isKey {v : Value α} (noKey : ¬v.IsKey) : v.asId = .error .wrongType := by
  cases v with
  | arr items => rfl
  | obj members => rfl
  | _ => exact absurd trivial noKey

end Value

namespace Extension

/-- The kind that a record of an extension names. -/
def kindOf (members : List (Text × Value α)) : Value α :=
  ((Value.member? "type" members).orElse fun _ => Value.member? "kind" members).getD .null

/-- The kind of extension that a record names, if there is such a kind. -/
def kind? (members : List (Text × Value α)) : Option ExtensionKind :=
  match (kindOf members).asId with
  | .ok id? => id?.bind ExtensionKind.ofName?
  | .error _ => none

/-- The kind that the record names can be looked up, and where there is such a kind, the properties can be
copied. -/
def IsLegibleRecord (depth : Nat) (members : List (Text × Value α)) : Prop :=
  (kindOf members).IsKey ∧ ((kind? members).isSome → IsCopyableBag depth (Value.field "props" members))

instance {members : List (Text × Value α)} : Decidable (IsLegibleRecord depth members) :=
  inferInstanceAs (Decidable (_ ∧ _))

/-- What comes of a record whose kind can be looked up. -/
theorem ofRecord_of_isKey {members : List (Text × Value α)} (isKey : (kindOf members).IsKey) :
    ofRecord members depth = match kind? members with
      | none => .error (.unknownExtensionRecord (kindOf members).quoted)
      | some k => (readProps members depth).map fun props =>
        { id := if (Value.field "id" members).truthy then (Value.field "id" members).shown else [],
          kind := k, props } := by
  obtain ⟨id?, isId⟩ := Value.asId_of_isKey isKey
  have sameKind : kind? members = id?.bind ExtensionKind.ofName? := by
    rw [kind?, isId]
  rw [ofRecord]
  change ((kindOf members).asId >>= _) = _
  rw [isId, sameKind]
  change (match id?.bind ExtensionKind.ofName? with | none => _ | some k => _) = _
  cases id?.bind ExtensionKind.ofName? with
  | none => rfl
  | some k => cases readProps members depth <;> rfl

/-- A record of an extension is read, or it is left out because of its kind. -/
theorem ofRecord_of_legible {members : List (Text × Value α)} (legible : IsLegibleRecord depth members) :
    (∃ e, ofRecord members depth = .ok e) ∨
      ∃ shown, ofRecord members depth = .error (.unknownExtensionRecord shown) := by
  rw [ofRecord_of_isKey legible.1]
  cases isKind : kind? members with
  | none => exact .inr ⟨_, rfl⟩
  | some k =>
      obtain ⟨props, read⟩ := Value.roomFor_ok_iff.mpr (legible.2 (isKind ▸ rfl))
      rw [readProps_eq, read]
      exact .inl ⟨_, rfl⟩

/-- What stops reading where a record of an extension is not legible. -/
theorem ofRecord_of_not_legible {members : List (Text × Value α)} (illegible : ¬IsLegibleRecord depth members) :
    ∃ fault : Fault, ofRecord members depth = .error fault ∧ fault.StopsReading := by
  by_cases isKey : (kindOf members).IsKey
  · have known : ¬((kind? members).isSome → IsCopyableBag depth (Value.field "props" members)) :=
      fun copyable => illegible ⟨isKey, copyable⟩
    obtain ⟨isKind, tooDeep⟩ := Classical.not_imp.mp known
    obtain ⟨k, isKind⟩ := Option.isSome_iff_exists.mp isKind
    refine ⟨.tooDeep, ?_, .inr (.inr rfl)⟩
    rw [ofRecord_of_isKey isKey, isKind, readProps_eq, Value.roomFor, if_neg tooDeep]
    rfl
  · refine ⟨.wrongType, ?_, .inr (.inl rfl)⟩
    rw [ofRecord]
    change ((kindOf members).asId >>= _) = _
    rw [Value.asId_of_not_isKey isKey]
    rfl

end Extension

namespace Node

/-- An item that is the record of an extension is legible. -/
def IsLegibleItem (depth : Nat) : Value α → Prop
  | .obj members => Extension.IsLegibleRecord depth members
  | _ => True

/-- All items of the value are legible, if it is a list. -/
def HasLegibleItems (depth : Nat) : Value α → Prop
  | .arr items => ∀ item ∈ items, IsLegibleItem depth item
  | _ => True

instance {item : Value α} : Decidable (IsLegibleItem depth item) :=
  match item with
  | .obj members => inferInstanceAs (Decidable (Extension.IsLegibleRecord depth members))
  | .null | .bool _ | .num _ | .str _ | .arr _ => .isTrue trivial

instance {v : Value α} : Decidable (HasLegibleItems depth v) :=
  match v with
  | .arr items => inferInstanceAs (Decidable (∀ item ∈ items, IsLegibleItem depth item))
  | .null | .bool _ | .num _ | .str _ | .obj _ => .isTrue trivial

/-- The extensions of a list are read exactly where their own records are legible. -/
theorem reads_collect (items : List (Value α)) :
    ReadsWhen (readExtensions.collect depth items) (∀ item ∈ items, IsLegibleItem depth item) := by
  induction items with
  | nil => exact .of_ok ⟨[], rfl⟩ (List.forall_mem_nil _)
  | cons item rest ih =>
      rw [List.forall_mem_cons]
      cases item with
      | obj members =>
          rw [readExtensions.collect]
          by_cases legible : Extension.IsLegibleRecord depth members
          · refine ReadsWhen.congr ?_ (and_iff_right legible).symm
            rcases Extension.ofRecord_of_legible legible with ⟨e, read⟩ | ⟨shown, leftOut⟩
            · rw [read]
              exact ih.mapped
            · rw [leftOut]
              exact ih
          · obtain ⟨fault, failed, stops⟩ := Extension.ofRecord_of_not_legible legible
            rw [failed]
            rcases stops with rfl | rfl | rfl
            all_goals exact .of_error rfl (by simp [Fault.StopsReading]) fun both => legible both.1
      | _ => exact ih.congr (and_iff_right trivial).symm

/-- The extensions of a record that obeys the schema are read exactly where their own records are legible. -/
theorem reads_readExtensions {v : Value α} (shape : v = .null ∨ ∃ items, v = .arr items) :
    ReadsWhen (readExtensions v depth) (HasLegibleItems depth v) := by
  rcases shape with rfl | ⟨items, rfl⟩
  · exact .of_ok ⟨[], rfl⟩ trivial
  · have whole : readExtensions (.arr items) depth = readExtensions.collect depth items := by
      cases items <;> rfl
    exact whole ▸ reads_collect items

/-- The members of a record that are read as numbers. -/
def numberKeys : List Text :=
  ["x", "y", "w", "h", "anchorX", "anchorY", "zIndex", "bgAlpha", "scrollBarThickness"]

/-- All that is read of a record is legible. -/
@[mk_iff]
structure IsLegible (depth : Nat) (d : List (Text × Value α)) : Prop where
  numbers : ∀ key ∈ numberKeys, (Value.field key d).IsLegible
  canvas : ∀ key ∈ (["w", "h"] : List Text), (Value.field key (membersOf (Value.field "canvasSize" d))).IsLegible
  colors : ∀ key ∈ (["bgColor", "textColor"] : List Text), ∀ channel ∈ Rgb.channelsOf (Value.field key d), channel.IsLegible
  extensions : HasLegibleItems depth (Value.field "uiObjects" d)

instance {d : List (Text × Value α)} : Decidable (IsLegible depth d) := decidable_of_iff' _ (isLegible_iff depth d)

/-- What is known of a record that obeys the schema. -/
structure IsWellFormed (d : List (Text × Value α)) : Prop where
  id : ∃ id, Value.field "id" d = .str id ∧ id ≠ []
  kind : ∃ kind : Kind, Value.field "type" d = .str kind.name
  extensions : Value.field "uiObjects" d = .null ∨ ∃ items, Value.field "uiObjects" d = .arr items

end Node

namespace Schema

variable {d : List (Text × Value α)} {key : Text} {path : List Step}

omit [Arith α] in
/-- A required member is there. -/
theorem exists_of_needs (none : needs key path (.obj d) = []) : ∃ v, Value.member? key d = some v := by
  rw [needs] at none
  split at none
  · next found => exact Option.isSome_iff_exists.mp found
  · cases none

/-- Sorting finds no problems and loses none. -/
theorem snapshotProblems_eq_nil {v : Value α} : snapshotProblems v = [] ↔ snapshotFindings v = [] := by
  rw [← List.length_eq_zero_iff, snapshotProblems, List.length_mergeSort, List.length_eq_zero_iff]

/-- A record that obeys the schema has a text for an id and the name of a kind. -/
theorem wellFormed_of_recordProblems {record : Value α} (none : recordProblems record = []) :
    ∃ d, record = .obj d ∧ Node.IsWellFormed d := by
  simp only [recordProblems, List.append_eq_nil_iff] at none
  obtain ⟨⟨⟨⟨⟨⟨isObject, hasId⟩, hasType⟩, idRule⟩, typeRule⟩, -⟩, extensionRule⟩ := none
  obtain ⟨d, rfl⟩ : ∃ d, record = .obj d := by
    cases record with
    | obj d => exact ⟨d, rfl⟩
    | _ => cases isObject
  simp only [onMember, Value.get?] at idRule typeRule extensionRule
  refine ⟨d, rfl, ?_, ?_, ?_⟩
  · obtain ⟨v, found⟩ := exists_of_needs hasId
    simp only [found, List.append_eq_nil_iff] at idRule
    rw [Value.field, found, Option.getD_some]
    cases v with
    | str t =>
        refine ⟨t, rfl, ?_⟩
        rintro rfl
        cases idRule.2
    | num n => cases idRule.1
    | _ => cases idRule.1
  · obtain ⟨v, found⟩ := exists_of_needs hasType
    rw [found] at typeRule
    rw [Value.field, found, Option.getD_some]
    cases v with
    | str t =>
        dsimp only [among] at typeRule
        split at typeRule
        · next listed =>
            obtain ⟨kind, -, same⟩ := List.mem_map.mp (List.elem_iff.mp listed)
            exact ⟨kind, congrArg Value.str same.symm⟩
        · cases typeRule
    | _ => cases typeRule
  · rw [Value.field]
    cases found : Value.member? "uiObjects" d with
    | none => exact .inl rfl
    | some v =>
        rw [found] at extensionRule
        cases v with
        | null => exact .inl rfl
        | arr items => exact .inr ⟨items, rfl⟩
        | _ => cases extensionRule

end Schema

namespace Node

variable {d : List (Text × Value α)} {key : Text}

section

variable [Refuses α]

/-- A real is read exactly where it is legible. -/
theorem reads_readReal {default : α} (fits : Fits default) :
    ReadsWhen (readReal d key default) (Value.field key d).IsLegible := Value.reads_toNumber fits

/-- A fraction is read exactly where it is legible. -/
theorem reads_readFraction {default : α} (fits : Fits default) :
    ReadsWhen (readFraction d key default) (Value.field key d).IsLegible := (reads_readReal fits).map

/-- An integer is read exactly where it is legible. -/
theorem reads_readInteger {default : Int} (fits : Fits (Arith.ofInt default : α)) :
    ReadsWhen (readInteger d key default) (Value.field key d).IsLegible := (reads_readReal fits).map

variable [Lawful α]

/-- A record that obeys the schema is read exactly where all that is read of it is legible. -/
theorem reads_ofRecord (wellFormed : IsWellFormed d) : ReadsWhen (ofRecord (.obj d) depth) (IsLegible depth d) := by
  obtain ⟨⟨id, isId, named⟩, ⟨kind, isKind⟩, shape⟩ := wellFormed
  have fits : ∀ {k : Int}, k.natAbs ≤ 1000 → Fits (Arith.ofInt k : α) := fun small =>
    Lawful.fits_ofInt (small.trans (by decide))
  have surface : ∀ {k : Int}, k.natAbs ≤ 1000 → (Value.int k : Value α).IsMeasure := fun small =>
    Value.isMeasure_num.mpr (fits small)
  obtain ⟨base, isBase, measured⟩ : ∃ n : Node α, create kind id root recordSurface 1 = .ok n ∧ n.IsMeasured :=
    Store.exists_create kind id root (surface (by decide)) (surface (by decide)) 1
  have created := Store.create_ok isBase
  have bgColor : base.bgColor.InRange := created.bgColor ▸ Rgb.inRange_descriptor kind
  have textColor : base.textColor.InRange := created.textColor ▸ Rgb.inRange_white
  have canvas : base.canvasW.natAbs ≤ 1000 ∧ base.canvasH.natAbs ≤ 1000 := by
    obtain ⟨sameW, sameH⟩ := Prod.mk.inj created.canvas
    rw [sameW, sameH]
    cases kind <;> decide
  have thickness : base.scrollbarThickness.natAbs ≤ 1000 := by
    rw [created.scrollbarThickness]
    cases kind <;> decide
  have kindRead : Kind.ofValue? (.str kind.name : Value α) = .ok (some kind) := by
    cases kind <;> rfl
  have isNamed : id.isEmpty = false := by simpa using named
  unfold ofRecord
  simp only [isKind, isId]
  refine .known kindRead ?_
  simp only [isNamed, Bool.false_eq_true, if_false]
  refine .known isBase ?_
  refine ((reads_readExtensions shape).bind fun _ _ => (reads_readReal measured.x).bind fun _ _ =>
    (reads_readReal measured.y).bind fun _ _ => (reads_readReal measured.w).bind fun _ _ =>
    (reads_readReal measured.h).bind fun _ _ => (reads_readFraction isReal_half.fits).bind fun _ _ =>
    (reads_readFraction isReal_half.fits).bind fun _ _ => (reads_readInteger (fits (by decide))).bind fun _ _ =>
    (Rgb.reads_ofValue _ bgColor).bind fun _ _ => (reads_readFraction isReal_one.fits).bind fun _ _ =>
    (Rgb.reads_ofValue _ textColor).bind fun _ _ => (reads_readInteger (fits canvas.1)).bind fun _ _ =>
    (reads_readInteger (fits canvas.2)).bind fun _ _ =>
    (reads_readInteger (fits thickness)).then_ok fun _ _ => ⟨_, rfl⟩).congr ?_
  constructor
  · rintro ⟨extensions, x, y, w, h, anchorX, anchorY, z, bgColor, bgAlpha, textColor, canvasW, canvasH, thickness⟩
    exact {
      numbers := by simp [numberKeys, *]
      canvas := by simp [*]
      colors := by
        simp only [List.forall_mem_cons, List.not_mem_nil, false_imp_iff, implies_true, and_true]
        exact ⟨bgColor, textColor⟩
      extensions := extensions }
  · rintro ⟨numbers, canvas, colors, extensions⟩
    have number : ∀ {key}, key ∈ numberKeys → (Value.field key d).IsLegible := fun listed => numbers _ listed
    exact ⟨extensions, number (by decide), number (by decide), number (by decide), number (by decide),
      number (by decide), number (by decide), number (by decide), colors _ (by decide), number (by decide),
      colors _ (by decide), canvas _ (by decide), canvas _ (by decide), number (by decide)⟩

omit [Refuses α] in
/-- What a script says of a node that was read fits. -/
theorem IsRead.styled {n : Node α} (read : IsRead depth d n) : n.IsStyled := by
  have integer : ∀ {members : List (Text × Value α)} {key : Text} {k : Int},
      ∀ {default : Int}, readInteger members key default = .ok k → Fits (Arith.ofInt k : α) := by
    intro members key k default isInteger
    obtain ⟨r, isReal, rounded⟩ := bind_eq_ok.mp isInteger
    obtain rfl := Except.ok.inj rounded
    exact Lawful.fits_floorHalf (Value.isReal_toNumber isReal)
  obtain ⟨r, isReal, isFraction⟩ := bind_eq_ok.mp read.bgAlpha
  obtain same := Except.ok.inj isFraction
  exact {
    bgAlpha := same ▸ isReal_clamp (Value.isReal_toNumber isReal) isReal_zero isReal_one
    canvasW := integer read.canvasW
    canvasH := integer read.canvasH
    scrollbarThickness := integer read.scrollbarThickness }

end

end Node

namespace Snapshot

variable {data record : Value α} {records : List (Value α)} {seen dropped : List Text} {index : Nat}
  {nodes : List (Node α)} {canvas : Value α × Value α} {fallback : Project α} {least : Value α}

/-- A record that obeys the schema can be read. -/
def IsLegibleRecord (depth : Nat) (record : Value α) : Prop :=
  Schema.recordProblems record = [] → Node.IsLegible depth (Node.membersOf record)

instance {record : Value α} : Decidable (IsLegibleRecord depth record) :=
  inferInstanceAs (Decidable (Schema.recordProblems record = [] → Node.IsLegible depth (Node.membersOf record)))

/-- Every record that obeys the schema can be read and is not called as the root, and the zoom is
legible. -/
@[mk_iff]
structure IsLegible (depth : Nat) (data : Value α) : Prop where
  records : ∀ record ∈ recordsOf data, IsLegibleRecord depth record
  spared : ∀ record ∈ recordsOf data, Schema.recordProblems record = [] → record.get? "id" ≠ some (.str root)
  zoom : ((data.get? "zoom").getD .null).IsLegible

instance {record : Value α} : Decidable (record.get? "id" = some (.str root)) :=
  match record.get? "id" with
  | some (.str id) => decidable_of_iff (id = root) (by simp)
  | none | some .null | some (.bool _) | some (.num _) | some (.arr _) | some (.obj _) => .isFalse (by simp)

instance {data : Value α} : Decidable (IsLegible depth data) := decidable_of_iff' _ (isLegible_iff depth data)

/-- A document that breaks the schema is refused with what is wrong. -/
theorem read_refuses (problems : Schema.snapshotProblems data ≠ []) :
    Snapshot.read data canvas fallback least depth = .error (.unusableSnapshot (Schema.snapshotProblems data)) := by
  rw [Snapshot.read]
  dsimp only
  rw [if_pos (by simpa using problems)]
  rfl

section

variable [Refuses α] [Lawful α]

/-- A record is read or left out exactly where it is legible or breaks the schema. -/
theorem reads_readRecord (seen : List Text) (record : Value α) :
    ReadsWhen (readRecord depth seen record) (IsLegibleRecord depth record) := by
  rw [readRecord]
  cases problems : Schema.recordProblems record with
  | cons p rest => exact .of_ok ⟨_, rfl⟩ fun obeys => by rw [problems] at obeys; cases obeys
  | nil =>
      obtain ⟨d, rfl, wellFormed⟩ := Schema.wellFormed_of_recordProblems problems
      have reads : ReadsWhen (Node.ofRecord (.obj d) depth) (Node.IsLegible depth d) := Node.reads_ofRecord wellFormed
      have legible : IsLegibleRecord depth (.obj d) ↔ Node.IsLegible depth d := by
        rw [IsLegibleRecord, problems, Node.membersOf]
        exact forall_prop_of_true rfl
      rw [legible]
      cases read : Node.ofRecord (.obj d) depth with
      | ok n =>
          refine .of_ok ?_ (reads.returns.mp ⟨n, read⟩)
          dsimp only
          split <;> exact ⟨_, rfl⟩
      | error fault =>
          have stops : fault.StopsReading := reads.stops read
          have illegible : ¬Node.IsLegible depth d := fun legible => by
            obtain ⟨n, read'⟩ := reads.returns.mpr legible
            rw [read] at read'
            cases read'
          exact .of_error (if_neg (by simp [Fault.StopsReading.dropsRecord stops])) stops illegible

/-- Records are read or left out exactly where each of them is. -/
theorem reads_readRecords (seen : List Text) (index : Nat) (records : List (Value α)) :
    ReadsWhen (readRecords depth seen index records) (∀ record ∈ records, IsLegibleRecord depth record) := by
  induction records generalizing seen index with
  | nil => exact .of_ok ⟨_, rfl⟩ (by simp)
  | cons record rest ih =>
      rw [List.forall_mem_cons]
      refine (reads_readRecord seen record).bind fun outcome _ => ?_
      cases outcome with
      | ok n => exact (ih _ _).then_ok fun _ _ => ⟨_, rfl⟩
      | error reason => exact (ih _ _).then_ok fun _ _ => ⟨_, rfl⟩

/-- A record is left out for the first rule that it breaks, or because its id was seen before. -/
theorem readRecord_error {reason : Text} (read : readRecord depth seen record = .ok (.error reason)) :
    (∃ p rest, Schema.recordProblems record = p :: rest ∧ reason = p.message) ∨
      ∃ n, Schema.recordProblems record = [] ∧ Node.ofRecord record depth = .ok n ∧ n.id ∈ seen ∧
        reason = ("duplicate id " : Text) ++ n.id.quoted := by
  rw [readRecord] at read
  cases problems : Schema.recordProblems record with
  | cons p rest =>
      rw [problems] at read
      exact .inl ⟨p, rest, rfl, (Except.error.inj (Except.ok.inj read)).symm⟩
  | nil =>
      obtain ⟨d, rfl, wellFormed⟩ := Schema.wellFormed_of_recordProblems problems
      rw [problems] at read
      cases isRecord : Node.ofRecord (.obj d) depth with
      | ok n =>
          simp only [isRecord] at read
          split at read
          · next before =>
              exact .inr ⟨n, rfl, rfl, List.elem_iff.mp before, (Except.error.inj (Except.ok.inj read)).symm⟩
          · cases read
      | error fault =>
          -- What is wrong with a record that obeys the schema stops the whole load.
          have stops : fault.StopsReading := (Node.reads_ofRecord wellFormed).stops isRecord
          simp only [isRecord, Fault.StopsReading.dropsRecord stops] at read
          cases read

/-- A record that obeys the schema and has an id gives a node of that id, unless there was one before. -/
theorem mem_ids_of_record (read : readRecords depth seen index records = .ok (nodes, dropped))
    (listed : record ∈ records) (obeys : Schema.recordProblems record = []) {id : Text}
    (isId : record.get? "id" = some (.str id)) : id ∈ seen ∨ id ∈ nodes.map Node.id := by
  rw [readRecords_iff] at read
  induction read with
  | nil => cases listed
  | drop lost _ ih =>
      rcases List.mem_cons.mp listed with rfl | inRest
      · rcases readRecord_error lost with ⟨p, others, broken, -⟩ | ⟨n, -, isRecord, before, -⟩
        · rw [obeys] at broken
          cases broken
        · obtain ⟨d, rfl, isRead⟩ := Node.isRead_of_ofRecord isRecord
          rw [isRead.get?_id, Option.some_inj, Value.str.injEq] at isId
          exact .inl (isId ▸ before)
      · exact ih inRest
  | keep kept _ ih =>
      rcases List.mem_cons.mp listed with rfl | inRest
      · obtain ⟨-, isRecord, -⟩ := readRecord_ok kept
        obtain ⟨d, rfl, isRead⟩ := Node.isRead_of_ofRecord isRecord
        rw [isRead.get?_id, Option.some_inj, Value.str.injEq] at isId
        exact .inr (isId ▸ List.mem_cons_self)
      · rcases ih inRest with inSeen | inNodes
        · rcases List.mem_cons.mp inSeen with rfl | before
          · exact .inr List.mem_cons_self
          · exact .inl before
        · exact .inr (List.mem_cons_of_mem _ inNodes)

/-- A zoom is read exactly where it is legible. -/
theorem reads_readZoom (v : Value α) : ReadsWhen (readZoom v) v.IsLegible := by
  cases v with
  | null => exact .of_ok ⟨_, rfl⟩ fun _ same => by cases same
  | _ => exact (Value.reads_toNumber isReal_one.fits).map

/-- The repair of an accepted document ends unless a record is called as the root. -/
theorem root_mem_iff (read : readRecords depth [] 0 (recordsOf data) = .ok (nodes, dropped)) :
    root ∈ nodes.map Node.id ↔ ∃ record ∈ recordsOf data,
      Schema.recordProblems record = [] ∧ record.get? "id" = some (.str root) := by
  constructor
  · intro isNode
    obtain ⟨n, member, same⟩ := List.mem_map.mp isNode
    obtain ⟨d, listed, obeys, isRead⟩ := isRead_of_readRecords read n member
    exact ⟨.obj d, listed, obeys, same ▸ isRead.get?_id⟩
  · rintro ⟨record, listed, obeys, isRoot⟩
    exact (mem_ids_of_record read listed obeys isRoot).resolve_left List.not_mem_nil

omit [Refuses α] [Lawful α] in
/-- The selection of an accepted document can be looked up. -/
theorem asId_of_accepted (accepted : Schema.snapshotProblems data = []) :
    ∃ id?, ((data.get? "selectedId").getD .null).asId = .ok id? := by
  have none := Schema.snapshotProblems_eq_nil.mp accepted
  simp only [Schema.snapshotFindings, List.append_eq_nil_iff] at none
  obtain ⟨⟨⟨-, rule⟩, -⟩, -⟩ := none
  rw [Schema.onMember] at rule
  cases found : data.get? "selectedId" with
  | none => exact ⟨none, rfl⟩
  | some v =>
      rw [found] at rule
      cases v with
      | null => exact ⟨none, rfl⟩
      | str t => exact ⟨some t, rfl⟩
      | num n => cases rule
      | _ => cases rule

/-- An accepted document is read where it is legible; where it is not, reading stops or has no end. -/
theorem read_of_legible {width height : Value α} (isWidth : width.IsMeasure) (isHeight : height.IsMeasure)
    (leastMeasure : least.IsMeasure) (accepted : Schema.snapshotProblems data = []) :
    (IsLegible depth data → ∃ loaded, Snapshot.read data (width, height) fallback least depth = .ok loaded) ∧
      (¬IsLegible depth data → ∃ fault, Snapshot.read data (width, height) fallback least depth = .error fault ∧
        (fault.StopsReading ∨ fault = .endless)) := by
  have records : ReadsWhen (readRecords depth [] 0 (recordsOf data)) _ := reads_readRecords [] 0 (recordsOf data)
  have zoom := reads_readZoom ((data.get? "zoom").getD .null)
  obtain ⟨id?, isSelected⟩ := asId_of_accepted accepted
  cases isRead : readRecords depth [] 0 (recordsOf data) with
  | error fault =>
      refine ⟨fun legible => ?_, fun _ => ⟨fault, ?_, .inl (records.stops isRead)⟩⟩
      · obtain ⟨kept, isRead'⟩ := records.returns.mpr legible.records
        rw [isRead] at isRead'
        cases isRead'
      · rw [read_of_accepted accepted, isRead]
        rfl
  | ok kept =>
      obtain ⟨nodes, dropped⟩ := kept
      have measured := measured_readRecords isWidth isHeight isRead
      have distinct := (readRecords_ok isRead).1
      by_cases isNode : root ∈ nodes.map Node.id
      · obtain ⟨record, listed, obeys, isRoot⟩ := (root_mem_iff isRead).mp isNode
        obtain ⟨-, -, -, -, -, endless⟩ := Store.repair_drains_iff measured distinct leastMeasure
        obtain ⟨t, failed⟩ := endless isNode
        exact ⟨fun legible => absurd isRoot (legible.spared record listed obeys), fun _ =>
          ⟨.endless, read_of_repair_error accepted isRead failed, .inr rfl⟩⟩
      · obtain ⟨rehomed, t, repaired, -⟩ := (Store.ends_repair measured distinct isNode leastMeasure).ok
        have answered : Edit.answer (Store.repair least { canvasW := width, canvasH := height, nodes }) =
            .ok rehomed := by
          rw [repaired]
          rfl
        have reads : ReadsWhen (Snapshot.read data (width, height) fallback least depth)
            ((data.get? "zoom").getD .null).IsLegible := by
          rw [read_of_accepted accepted]
          exact .known isRead <| .known answered <| .known isSelected <| zoom.then_ok fun _ _ => ⟨_, rfl⟩
        refine ⟨fun legible => reads.returns.mpr legible.zoom, fun illegible => ?_⟩
        cases isLoaded : Snapshot.read data (width, height) fallback least depth with
        | error fault => exact ⟨fault, rfl, .inl (reads.stops isLoaded)⟩
        | ok loaded =>
            refine absurd ⟨records.returns.mp ⟨_, isRead⟩, fun record listed obeys isRoot => ?_,
              reads.returns.mp ⟨loaded, isLoaded⟩⟩ illegible
            exact isNode ((root_mem_iff isRead).mpr ⟨record, listed, obeys, isRoot⟩)

omit [Refuses α] in
/-- What a script says of the nodes that were read fits. -/
theorem styled_of_read {loaded : Loaded α} (read : Snapshot.read data canvas fallback least depth = .ok loaded) :
    loaded.store.All Node.IsStyled := by
  obtain ⟨nodes, isRead, repaired, -, -⟩ := read_ok read
  have styled : Store.All Node.IsStyled ({ canvasW := canvas.1, canvasH := canvas.2, nodes } : Store α) := by
    intro n member
    obtain ⟨d, -, -, source⟩ := isRead_of_readRecords isRead n member
    exact source.styled
  exact (styled.repair Node.IsStyled.lasting).returned repaired

end

end Snapshot

namespace Session

variable {s : Session α} {data : Value α}

/-- The session after it refused a document: it has said so, and all else is as before. -/
def refused (s : Session α) : Session α :=
  { s with status := (loadFailedNotice, []), signals := s.signals ++ [.notice loadFailedNotice [], .changed] }

/-- A document that breaks the schema is refused. -/
theorem loadSnapshot_refuses (problems : Schema.snapshotProblems data ≠ []) :
    loadSnapshot data s = .ok false s.refused := by
  have ends : (loadSnapshot data).Ends s (fun done t => done = false ∧ t = s.refused) fun _ _ => False := by
    unfold loadSnapshot notifying
    simp only [Edit.ends_bind, Edit.ends_get]
    rw [Snapshot.read_refuses problems]
    simp [isUnusable, notice, notify, refused]
  obtain ⟨_, _, ran, rfl, rfl⟩ := ends.ok
  exact ran

/-- Where reading a document fails otherwise, loading fails and changes nothing. -/
theorem loadSnapshot_fails {fault : Fault}
    (failed : Snapshot.read data (s.store.canvasW, s.store.canvasH) s.project s.stage.leastSide s.depth =
      .error fault)
    (usable : isUnusable fault = false) : loadSnapshot data s = .error fault s := by
  have ends : (loadSnapshot data).Ends s (fun _ _ => False) fun fault' t => fault' = fault ∧ t = s := by
    unfold loadSnapshot notifying
    simp only [Edit.ends_bind, Edit.ends_get]
    rw [failed]
    simp [usable]
  cases ran : loadSnapshot data s with
  | ok done t => exact (ends.returned ran).elim
  | error fault' t =>
      obtain ⟨rfl, rfl⟩ := ends.failure ran
      rfl

/-- What was read is put in the place of the design where the range of the zoom is a pair of numbers; its
zoom is kept in this range. -/
theorem loadSnapshot_shows {loaded : Snapshot.Loaded α} {low high zoom : α}
    (read : Snapshot.read data (s.store.canvasW, s.store.canvasH) s.project s.stage.leastSide s.depth = .ok loaded)
    (range : s.stage.zoomRange = .arr [.num low, .num high]) (isReal : toReal loaded.zoom = .ok zoom) :
    ∃ t, loadSnapshot data s = .ok true t ∧ t.store = s.store.replaceAll loaded.store.nodes ∧
      t.project = loaded.project ∧ t.selectedId = loaded.selectedId ∧ t.showSafeArea = loaded.showSafeArea ∧
      t.stage.zoom = clamp zoom low high := by
  have ends : (loadSnapshot data).Ends s (fun done t => done = true ∧ t.store = s.store.replaceAll loaded.store.nodes ∧
      t.project = loaded.project ∧ t.selectedId = loaded.selectedId ∧ t.showSafeArea = loaded.showSafeArea ∧
      t.stage.zoom = clamp zoom low high) fun _ _ => False := by
    unfold loadSnapshot notifying
    simp only [Edit.ends_bind, Edit.ends_get]
    rw [read]
    simp only [replaceBy, Edit.ends_bind, Session.ends_onStage, Session.ends_onStore, Stage.losePointer,
      Edit.ends_modify, Stage.setZoom, Edit.ends_get, range]
    refine Edit.ends_lift_ok isReal (Edit.ends_lift_ok rfl ?_)
    refine Edit.ends_lift_ok (Value.clamp_num ..) (Edit.ends_lift_ok rfl ?_)
    exact ⟨rfl, rfl, rfl, rfl, rfl, rfl⟩
  obtain ⟨_, t, ran, rfl, replaced⟩ := ends.ok
  exact ⟨t, ran, replaced⟩

/-- What was read is put in the place of the design where its zoom fits. -/
theorem loadSnapshot_loads {loaded : Snapshot.Loaded α} {low high : α}
    (read : Snapshot.read data (s.store.canvasW, s.store.canvasH) s.project s.stage.leastSide s.depth = .ok loaded)
    (range : s.stage.zoomRange = .arr [.num low, .num high]) (zoomFits : Fits loaded.zoom) :
    ∃ t, loadSnapshot data s = .ok true t ∧ t.store = s.store.replaceAll loaded.store.nodes := by
  obtain ⟨zoom, isReal⟩ := zoomFits
  obtain ⟨t, ran, store, -⟩ := loadSnapshot_shows read range isReal
  exact ⟨t, ran, store⟩

/-- The command that loads a document leaves the session that loading it leaves. -/
theorem run_loadSnapshot {done : Bool} {t : Session α} (ran : loadSnapshot data s = .ok done t) :
    Edit.state (run (.loadSnapshot data) s) = t := by
  change Edit.state (EStateM.bind (loadSnapshot data) _ s) = t
  rw [EStateM.bind, ran]
  rfl

/-- The script of a design is exported, and the design stays as it is. -/
theorem exportScript_ok {text : Text} (generated : Script.generate s.store s.project = .ok text) :
    ∃ t, exportScript s = .ok text t ∧ t.store = s.store ∧ t.project = s.project ∧ t.depth = s.depth := by
  have ends : exportScript.Ends s
      (fun script t => script = text ∧ t.store = s.store ∧ t.project = s.project ∧ t.depth = s.depth)
      fun _ _ => False := by
    unfold exportScript notifying
    simp only [Edit.ends_bind, Edit.ends_get]
    exact Edit.ends_lift_ok generated ⟨rfl, rfl, rfl, rfl⟩
  obtain ⟨_, t, ran, rfl, same⟩ := ends.ok
  exact ⟨t, ran, same⟩

/-- A script is exported exactly where the design has one. -/
theorem exportScript_ok_iff : (∃ script t, exportScript s = .ok script t) ↔
    ∃ text, Script.generate s.store s.project = .ok text := by
  cases generated : Script.generate s.store s.project with
  | ok text =>
      obtain ⟨t, ran, -⟩ := exportScript_ok generated
      exact iff_of_true ⟨text, t, ran⟩ ⟨text, rfl⟩
  | error fault =>
      have ends : exportScript.Ends s (fun _ _ => False) fun _ _ => True := by
        unfold exportScript notifying
        simp only [Edit.ends_bind, Edit.ends_get]
        refine (Edit.ends_lift _).mpr ⟨fun _ returned => ?_, fun _ _ => trivial⟩
        rw [generated] at returned
        cases returned
      refine iff_of_false ?_ (by simp)
      rintro ⟨script, t, ran⟩
      exact ends.returned ran

/-- **What a load can do.** Take any session that commands lead to. A document that breaks the schema is
refused, and nothing but the notice changes. An accepted one is loaded exactly where it is legible, and
then a script can be exported exactly where the layers fit and the extensions are legible; an illegible
one changes nothing, but loading it fails at an integer beyond the reals, at a kind that cannot be looked
up or at properties that cannot be copied, or has no end. -/
theorem loadSnapshot_of_runAll [Refuses α] [Lawful α] (canvas : Value α × Value α) (leastSide duplicateOffset : Value α)
    (zoom low high : α) (defaults : Project α) (idSupply : Nat → Text) (depth : Nat)
    (unreserved : ∀ taken, idSupply taken ≠ root) (canvasW : canvas.1.IsMeasure) (canvasH : canvas.2.IsMeasure)
    (leastMeasure : leastSide.IsMeasure) (typed : defaults.IsTyped) (commands : List (Command α))
    (data : Value α) :
    let s := runAll commands
      (new canvas leastSide duplicateOffset zoom (.arr [.num low, .num high]) defaults idSupply depth)
    (Schema.snapshotProblems data ≠ [] → loadSnapshot data s = .ok false s.refused) ∧
    (Schema.snapshotProblems data = [] → Snapshot.IsLegible depth data → ∃ t, loadSnapshot data s = .ok true t ∧
      ((∃ script u, exportScript t = .ok script u) ↔ t.store.IsExportable)) ∧
    (Schema.snapshotProblems data = [] → ¬Snapshot.IsLegible depth data →
      ∃ fault, loadSnapshot data s = .error fault s ∧ (fault.StopsReading ∨ fault = .endless)) := by
  intro s
  refine ⟨loadSnapshot_refuses, ?_⟩
  have start : (Contract.sound True leastSide duplicateOffset (.arr [.num low, .num high])).Holds
      (new canvas leastSide duplicateOffset zoom (.arr [.num low, .num high]) defaults idSupply depth) :=
    holds_new unreserved fun _ => ⟨canvasW, canvasH⟩
  have kept : (Contract.soundTyped leastSide duplicateOffset (.arr [.num low, .num high])).Kept :=
    Contract.kept_soundTyped leastMeasure
  have holds : (Contract.soundTyped leastSide duplicateOffset (.arr [.num low, .num high])).Holds s :=
    Contract.Holds.runAll kept trivial { start with project := typed, defaults := typed } commands
  have sameDepth : s.depth = depth := depth_runAll ..
  clear_value s
  subst sameDepth
  have measured := holds.good.measured trivial
  have least : s.stage.leastSide.IsMeasure := holds.least ▸ leastMeasure
  constructor
  · intro accepted legible
    obtain ⟨loaded, read⟩ := (Snapshot.read_of_legible measured.canvasW measured.canvasH least accepted).1 legible
    obtain ⟨t, ran, store⟩ := loadSnapshot_loads read holds.zoomRange (Snapshot.isReal_zoom read).fits
    have after := holds.state kept trivial (.loadSnapshot data)
    rw [run_loadSnapshot ran] at after
    have styled : t.store.All Node.IsStyled := by
      have distinct := (Snapshot.orderly_read
        (Snapshot.unreserved_of_read read) read).forest.distinct
      rw [store, Store.replaceAll_eq distinct]
      exact Snapshot.styled_of_read read
    exact ⟨t, ran, exportScript_ok_iff.trans (Script.generate_ok_iff after.good.orderly.forest
      (after.good.measured trivial) styled after.project)⟩
  · intro accepted illegible
    obtain ⟨fault, failed, cause⟩ :=
      (Snapshot.read_of_legible measured.canvasW measured.canvasH least accepted).2 illegible
    refine ⟨fault, loadSnapshot_fails failed ?_, cause⟩
    rcases cause with stops | rfl
    · exact Fault.StopsReading.isUsable stops
    · rfl

/-- A document with one frame, which has one extension. -/
def framedWith (x kind radius : Value Number) : Value Number :=
  .obj [("nodes", .arr [.obj [("id", .str "frame"), ("type", .str "Frame"), ("x", x),
    ("uiObjects", .arr [.obj [("type", kind), ("props", .obj [("cornerRadius", radius)])]])]])]

/-- A new session in which a label was made and selected. -/
def labelled : Session Number :=
  runAll [.newProject, .createNode (.str "TextLabel")]
    (new (.int 980, .int 620) (.int leastSide) (.int 12) Arith.one
      (.arr [.num (Arith.ofDecimal 5 1), .num (Arith.ofDecimal 20 1)]) {} fun taken => ("n" : Text) ++ Text.ofNat taken)

/-- A frame whose corners are rounded is loaded, and its script is exported. -/
theorem loadSnapshot_of_runAll_framed :
    ∃ t script u, loadSnapshot (framedWith (.int 5) (.str "UICorner") (.int 8)) labelled = .ok true t ∧
      exportScript t = .ok script u := by
  have fits : ∀ n : Int, n.natAbs ≤ 2 ^ 53 → (Value.int n : Value Number).IsMeasure := fun _ small =>
    Value.isMeasure_num.mpr (Lawful.fits_ofInt small)
  obtain ⟨-, loads, -⟩ := loadSnapshot_of_runAll (.int 980, .int 620) (.int leastSide) (.int 12) Arith.one
    (Arith.ofDecimal 5 1) (Arith.ofDecimal 20 1) {} _ _ (fun taken => (Text.numbered_fresh taken).1)
    (fits 980 (by decide)) (fits 620 (by decide)) (fits leastSide (by decide))
    ⟨⟨_, rfl⟩, ⟨_, rfl⟩, ⟨_, rfl⟩, ⟨_, rfl⟩⟩
    [.newProject, .createNode (.str "TextLabel")] (framedWith (.int 5) (.str "UICorner") (.int 8))
  obtain ⟨t, ran, exports⟩ : ∃ t, loadSnapshot _ labelled = .ok true t ∧ _ :=
    loads (by decide +kernel) (by decide +kernel)
  have exportable :
      (Edit.state (loadSnapshot (framedWith (.int 5) (.str "UICorner") (.int 8)) labelled)).store.IsExportable := by
    decide +kernel
  rw [ran] at exportable
  obtain ⟨script, u, exported⟩ := exports.mpr exportable
  exact ⟨t, script, u, ran, exported⟩

/-- A value inside so many lists. -/
def nestedIn : Nat → Value Number → Value Number
  | 0, v => v
  | n + 1, v => .arr [nestedIn n v]

/-- An abscissa beyond the reals, a kind that is a list and a radius inside too many lists each make loading
an accepted document fail; a radius beyond the reals is loaded, and then no script can be exported. -/
theorem loadSnapshot_raises :
    let large : Value Number := .int (10 ^ 400)
    let corner : Value Number := .str "UICorner"
    (∀ data ∈ [framedWith large corner (.int 8), framedWith (.int 5) (.arr []) (.int 8),
        framedWith (.int 5) corner (nestedIn 490 (.int 8))],
      Schema.snapshotProblems data = [] ∧ (Edit.answer (loadSnapshot data labelled)).toOption = none) ∧
    (Edit.answer (loadSnapshot (framedWith (.int 5) corner large) labelled)).toOption = some true ∧
      (Edit.answer (exportScript (Edit.state (loadSnapshot (framedWith (.int 5) corner large) labelled)))).toOption =
        none := by
  intro large corner
  refine ⟨?_, ?_, ?_⟩
  · rw [List.forall_mem_cons, List.forall_mem_cons, List.forall_mem_singleton]
    refine ⟨⟨?_, ?_⟩, ⟨?_, ?_⟩, ?_, ?_⟩
    all_goals decide +kernel
  · decide +kernel
  · decide +kernel

end Session

end LayoutDesigner
