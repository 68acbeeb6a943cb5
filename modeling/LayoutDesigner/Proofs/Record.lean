import LayoutDesigner.Snapshot
import LayoutDesigner.Proofs.Faithful
import LayoutDesigner.Proofs.Population

/-!
# Records read back

Where arithmetic is faithful, a typed node is read back from its record, where everything that reading
would mend is in order: names are not empty, fractions and channels are in their ranges, and the
layer is one at least. Only a measure that is not finite is replaced. A project is read back as it is.
-/

namespace LayoutDesigner

open Arith (Faithful IsFraction KnowsInts isFinite)

variable {α : Type} [Arith α] {depth : Nat}

/-- The channels are between 0 and 255. -/
structure Rgb.InRange (c : Rgb) : Prop where
  r : 0 ≤ c.r ∧ c.r ≤ 255
  g : 0 ≤ c.g ∧ c.g ≤ 255
  b : 0 ≤ c.b ∧ c.b ≤ 255

/-- An integer is read as it is. -/
theorem Value.toNumber_int [Faithful α] (n : Int) (default : α) :
    (Value.int n).toNumber (.num default) = .ok (Arith.ofInt n) := by
  rw [Value.int, Value.toNumber_num, if_pos (Faithful.isFinite_ofInt n)]

namespace Rgb

/-- A channel in range is read as it is. -/
theorem readChannel_int [Faithful α] {n : Int} (inRange : 0 ≤ n ∧ n ≤ 255) (default : α) :
    readChannel (.int n) (.num default) = .ok n := by
  have kept : channel n = n := by
    rw [channel]
    omega
  rw [readChannel, Value.toNumber_int]
  exact congrArg Except.ok (by rw [Faithful.floorHalf_ofInt, kept])

/-- A colour in range is read back from its record. -/
theorem ofValue_toRecord [Faithful α] {c : Rgb} (inRange : c.InRange) (fallback : Rgb) :
    ofValue (c.toRecord : Value α) fallback = .ok c := by
  have channels : ([(.int c.r, .int fallback.r), (.int c.g, .int fallback.g),
      (.int c.b, .int fallback.b)] : List (Value α × Value α)).mapM
      (fun entry => readChannel entry.1 entry.2) = .ok [c.r, c.g, c.b] := by
    have read : ∀ {k : Int}, 0 ≤ k ∧ k ≤ 255 → ∀ default : Int,
        readChannel (.int k : Value α) (.int default) = .ok k := fun inRange _ => readChannel_int inRange _
    simp only [List.mapM_cons, List.mapM_nil, read inRange.r, read inRange.g, read inRange.b]
    rfl
  have read : ofValue? (c.toRecord : Value α) fallback.channels = .ok (some c) := by
    change ofValue?.ofChannels (fallback.channels : List (Value α))
      [.int c.r, .int c.g, .int c.b] = _
    rw [ofValue?.ofChannels]
    exact bind_eq_ok.mpr ⟨_, channels, rfl⟩
  rw [ofValue, read]
  rfl

end Rgb

namespace Extension

/-- The value can be copied if it is an object; where properties are read, no other value is. -/
def IsCopyableBag (depth : Nat) : Value α → Prop
  | .obj props => (Value.obj props).IsCopyable depth
  | _ => True

instance {v : Value α} : Decidable (IsCopyableBag depth v) :=
  match v with
  | .obj props => inferInstanceAs (Decidable ((Value.obj props).IsCopyable depth))
  | .null | .bool _ | .num _ | .str _ | .arr _ => .isTrue trivial

omit [Arith α] in
/-- The properties of a record are read where they can be copied. -/
theorem readProps_eq (members : List (Text × Value α)) : readProps members depth =
    Value.roomFor (IsCopyableBag depth (Value.field "props" members))
      (Node.membersOf (Value.field "props" members)) := by
  rw [readProps]
  cases Value.field "props" members with
  | obj props => exact Value.copyMembers_eq depth props
  | _ => rfl

/-- A typed extension is read back from its record where its properties can be copied. -/
theorem ofRecord_toRecord {e : Extension α} (plain : e.unchecked = none) (copyable : e.IsCopyable depth) :
    ∃ members, e.toRecord = .obj members ∧ ofRecord members depth = .ok e := by
  obtain ⟨id, kind, props, unchecked⟩ := e
  subst plain
  have copied : Value.copyMembers depth props = .ok props := by
    rw [Value.copyMembers_eq, Value.roomFor]
    exact if_pos copyable
  refine ⟨_, rfl, ?_⟩
  cases id <;> cases kind <;> exact bind_eq_ok.mpr ⟨_, rfl, bind_eq_ok.mpr ⟨props, copied, rfl⟩⟩

/-- An extension that is read is typed, and its properties can be copied. -/
theorem checked_of_ofRecord {members : List (Text × Value α)} {e : Extension α}
    (read : ofRecord members depth = .ok e) : e.unchecked = none ∧ e.IsCopyable depth := by
  obtain ⟨id?, -, read⟩ := bind_eq_ok.mp read
  split at read
  · cases read
  · obtain ⟨props, isProps, read⟩ := bind_eq_ok.mp read
    obtain rfl := Except.ok.inj read
    rw [readProps_eq] at isProps
    obtain ⟨copyable, rfl⟩ := Value.roomFor_ok isProps
    refine ⟨rfl, ?_⟩
    change (Value.obj (Node.membersOf (Value.field "props" members))).IsCopyable depth
    cases same : Value.field "props" members with
    | obj props =>
        rw [same] at copyable
        exact copyable
    | _ => exact Nat.zero_le depth

end Extension

/-- The extensions that a list gives come of records of their own. -/
theorem Node.exists_of_collect {items : List (Value α)} {extensions : List (Extension α)}
    (read : readExtensions.collect depth items = .ok extensions) :
    ∀ e ∈ extensions, ∃ members, Extension.ofRecord members depth = .ok e := by
  induction items generalizing extensions with
  | nil =>
      obtain rfl := Except.ok.inj read
      simp
  | cons item rest ih =>
      cases item with
      | obj members =>
          rw [readExtensions.collect] at read
          split at read
          · next e isRead =>
              cases others : readExtensions.collect depth rest with
              | error fault => simp [others, Except.map] at read
              | ok items =>
                  rw [others] at read
                  obtain rfl := Except.ok.inj read
                  exact List.forall_mem_cons.mpr ⟨⟨members, isRead⟩, ih others⟩
          · exact ih read
          · cases read
      | _ => exact ih read

/-- Extensions that are read come of records of their own. -/
theorem Node.exists_of_readExtensions {v : Value α} {extensions : List (Extension α)}
    (read : readExtensions v depth = .ok extensions) :
    ∀ e ∈ extensions, ∃ members, Extension.ofRecord members depth = .ok e := by
  unfold readExtensions at read
  split at read
  · obtain rfl := Except.ok.inj read
    simp
  · split at read
    · exact exists_of_collect read
    · obtain rfl := Except.ok.inj read
      simp
    · obtain rfl := Except.ok.inj read
      simp
    · cases read

/-- Extensions that are read are typed. -/
theorem Node.plain_of_readExtensions {v : Value α} {extensions : List (Extension α)}
    (read : readExtensions v depth = .ok extensions) : ∀ e ∈ extensions, e.unchecked = none := by
  intro e isRead
  obtain ⟨_, read⟩ := exists_of_readExtensions read e isRead
  exact (Extension.checked_of_ofRecord read).1

/-- Typed extensions are read back from their records where they can be copied. -/
theorem Node.readExtensions_toRecord {extensions : List (Extension α)}
    (plain : ∀ e ∈ extensions, e.unchecked = none) (copyable : ∀ e ∈ extensions, e.IsCopyable depth) :
    readExtensions (.arr (extensions.map Extension.toRecord)) depth = .ok extensions := by
  have collected : readExtensions.collect depth (extensions.map Extension.toRecord) = .ok extensions := by
    induction extensions with
    | nil => rfl
    | cons e rest ih =>
        obtain ⟨members, isRecord, read⟩ :=
          Extension.ofRecord_toRecord (plain e List.mem_cons_self) (copyable e List.mem_cons_self)
        rw [List.map_cons, isRecord, readExtensions.collect, read]
        simp only [ih (fun other inRest => plain other (List.mem_cons_of_mem _ inRest))
          fun other inRest => copyable other (List.mem_cons_of_mem _ inRest)]
        rfl
  cases extensions with
  | nil => rfl
  | cons e rest => exact collected

/-- Everything that reading the record of the node would mend is in order. -/
structure Node.IsMended (n : Node α) : Prop where
  plain : n.unchecked = []
  id : n.id ≠ []
  name : n.name ≠ []
  font : n.font ≠ []
  anchorX : IsFraction n.anchorX
  anchorY : IsFraction n.anchorY
  bgAlpha : IsFraction n.bgAlpha
  bgColor : n.bgColor.InRange
  textColor : n.textColor.InRange
  extensions : ∀ e ∈ n.extensions, e.unchecked = none

/-- The measures of the node are finite. -/
structure Node.IsFinite (n : Node α) : Prop where
  x : isFinite n.x
  y : isFinite n.y
  w : isFinite n.w
  h : isFinite n.h

namespace Node

variable {n : Node α} {d : List (Text × Value α)} {key : Text}

/-- The members of a plain node are its attributes. -/
theorem toMembers_plain (plain : n.unchecked = []) : n.toMembers =
    ([("id", .str n.id), ("type", .str n.kind.name), ("name", .str n.name), ("parentId", .str n.parent),
      ("x", .num n.x), ("y", .num n.y), ("w", .num n.w), ("h", .num n.h),
      ("anchorX", .num n.anchorX), ("anchorY", .num n.anchorY), ("zIndex", .int n.z),
      ("bgColor", n.bgColor.toRecord), ("bgAlpha", .num n.bgAlpha), ("border", .bool n.border),
      ("text", .str n.text), ("textColor", n.textColor.toRecord), ("textScaled", .bool n.textScaled),
      ("font", .str n.font), ("image", .str n.image),
      ("canvasSize", .obj [("w", .int n.canvasW), ("h", .int n.canvasH)]),
      ("scrollBarThickness", .int n.scrollbarThickness),
      ("uiObjects", .arr (n.extensions.map Extension.toRecord))] : List (Text × Value α)) := by
  simp only [toMembers, written, plain, Unchecked.value?, List.find?_nil, Option.map_none]

/-- The members of a record are in canonical order. -/
theorem sortKeys_toMembers (n : Node α) : sortKeys n.toMembers = n.toMembers := rfl

section

variable [Faithful α]

/-- A real is read as it is where it is finite, and else as the default. -/
theorem readReal_num {v : α} (found : Value.field key d = .num v) (default : α) :
    readReal d key default = .ok (if isFinite v then v else default) := by
  rw [readReal, found, Value.toNumber_num]

/-- A fraction is read as it is. -/
theorem readFraction_num {v : α} (found : Value.field key d = .num v) (isFraction : IsFraction v)
    (default : α) : readFraction d key default = .ok v := by
  rw [readFraction, readReal_num found, if_pos isFraction.1]
  exact congrArg Except.ok isFraction.2

/-- An integer is read as it is. -/
theorem readInteger_int {k : Int} (found : Value.field key d = .int k) (default : Int) :
    readInteger d key default = .ok k := by
  rw [readInteger, readReal, found, Value.toNumber_int]
  exact congrArg Except.ok (Faithful.floorHalf_ofInt k)

end

/-- A text is read as it is, where it is not empty or stands for an empty default. -/
theorem readText_str {t default : Text} (found : Value.field key d = .str t)
    (named : t ≠ [] ∨ default = []) : readText d key default = t := by
  rw [readText, found]
  cases t with
  | nil => exact named.resolve_left fun differs => differs rfl
  | cons c rest => rfl

/-- **A record reads back.** Only measures that are not finite are others than before. -/
theorem ofRecord_toMembers [Faithful α] (mended : n.IsMended) (parent : n.parent ≠ []) (layer : 1 ≤ n.z)
    (copyable : n.IsCopyable depth) :
    ∃ m, ofRecord (.obj n.toMembers) depth = .ok m ∧ Reshaped n m ∧ (n.IsFinite → m = n) := by
  have kindRead : Kind.ofValue? (.str n.kind.name : Value α) = .ok (some n.kind) := by
    cases n.kind <;> rfl
  have named : n.id.isEmpty = false := by simpa using mended.id
  obtain ⟨base, isBase, -⟩ : ∃ base : Node α, Node.create n.kind n.id root recordSurface 1 = .ok base ∧ base.IsMeasured :=
    Store.exists_create n.kind n.id root (Value.isMeasure_num.mpr (Arith.fits _))
      (Value.isMeasure_num.mpr (Arith.fits _)) 1
  have isParent : n.parent.orElse root = n.parent := by
    cases same : n.parent with
    | nil => exact absurd same parent
    | cons c rest => rfl
  have members := toMembers_plain mended.plain
  generalize n.toMembers = d at members ⊢
  have x : readReal d "x" base.x = .ok (if isFinite n.x then n.x else base.x) := readReal_num (by rw [members]; rfl) _
  have y : readReal d "y" base.y = .ok (if isFinite n.y then n.y else base.y) := readReal_num (by rw [members]; rfl) _
  have w : readReal d "w" base.w = .ok (if isFinite n.w then n.w else base.w) := readReal_num (by rw [members]; rfl) _
  have h : readReal d "h" base.h = .ok (if isFinite n.h then n.h else base.h) := readReal_num (by rw [members]; rfl) _
  have anchorX : readFraction d "anchorX" Arith.half = .ok n.anchorX :=
    readFraction_num (by rw [members]; rfl) mended.anchorX _
  have anchorY : readFraction d "anchorY" Arith.half = .ok n.anchorY :=
    readFraction_num (by rw [members]; rfl) mended.anchorY _
  have bgAlpha : readFraction d "bgAlpha" Arith.one = .ok n.bgAlpha :=
    readFraction_num (by rw [members]; rfl) mended.bgAlpha _
  have z : readInteger d "zIndex" 1 = .ok n.z := readInteger_int (by rw [members]; rfl) _
  have thickness : readInteger d "scrollBarThickness" base.scrollbarThickness =
      .ok n.scrollbarThickness := readInteger_int (by rw [members]; rfl) _
  have canvas : membersOf (Value.field "canvasSize" d) =
      ([("w", .int n.canvasW), ("h", .int n.canvasH)] : List (Text × Value α)) := by
    rw [members]
    rfl
  have canvasW : readInteger (membersOf (Value.field "canvasSize" d)) "w" base.canvasW = .ok n.canvasW :=
    readInteger_int (by rw [canvas]; rfl) _
  have canvasH : readInteger (membersOf (Value.field "canvasSize" d)) "h" base.canvasH = .ok n.canvasH :=
    readInteger_int (by rw [canvas]; rfl) _
  have bgColor : Rgb.ofValue (Value.field "bgColor" d) base.bgColor = .ok n.bgColor := by
    rw [members]
    exact Rgb.ofValue_toRecord mended.bgColor _
  have textColor : Rgb.ofValue (Value.field "textColor" d) base.textColor = .ok n.textColor := by
    rw [members]
    exact Rgb.ofValue_toRecord mended.textColor _
  have extensions : readExtensions (Value.field "uiObjects" d) depth = .ok n.extensions := by
    rw [members]
    exact readExtensions_toRecord mended.extensions copyable
  have name : readText d "name" n.kind.name = n.name :=
    readText_str (by rw [members]; rfl) (.inl mended.name)
  have font : readText d "font" defaultFont = n.font :=
    readText_str (by rw [members]; rfl) (.inl mended.font)
  have image : readText d "image" [] = n.image := readText_str (by rw [members]; rfl) (.inr rfl)
  have border : readTruth d "border" base.border = n.border := by
    rw [members]
    rfl
  have textScaled : readTruth d "textScaled" base.textScaled = n.textScaled := by
    rw [members]
    rfl
  have typeField : Value.field "type" d = .str n.kind.name := by
    rw [members]
    rfl
  have idField : Value.field "id" d = .str n.id := by
    rw [members]
    rfl
  have parentField : Value.field "parentId" d = .str n.parent := by
    rw [members]
    rfl
  have textField : Value.field "text" d = .str n.text := by
    rw [members]
    rfl
  let finiteOr (v default : α) : α := if isFinite v then v else default
  refine ⟨{ n with x := finiteOr n.x base.x, y := finiteOr n.y base.y, w := finiteOr n.w base.w, h := finiteOr n.h base.h },
    ?_, ⟨fun _ => rfl, fun plain => plain⟩, fun finite => by simp only [finiteOr, finite.x, finite.y, finite.w, finite.h, if_true]⟩
  unfold ofRecord
  simp only [typeField, idField, parentField, textField]
  refine bind_eq_ok.mpr ⟨_, kindRead, ?_⟩
  simp only [named]
  refine bind_eq_ok.mpr ⟨base, isBase, bind_eq_ok.mpr ⟨_, extensions, ?_⟩⟩
  refine bind_eq_ok.mpr ⟨_, x, bind_eq_ok.mpr ⟨_, y, bind_eq_ok.mpr ⟨_, w, bind_eq_ok.mpr ⟨_, h, ?_⟩⟩⟩⟩
  refine bind_eq_ok.mpr ⟨_, anchorX, bind_eq_ok.mpr ⟨_, anchorY, bind_eq_ok.mpr ⟨_, z, ?_⟩⟩⟩
  refine bind_eq_ok.mpr ⟨_, bgColor, bind_eq_ok.mpr ⟨_, bgAlpha, bind_eq_ok.mpr ⟨_, textColor, ?_⟩⟩⟩
  refine bind_eq_ok.mpr ⟨_, canvasW, bind_eq_ok.mpr ⟨_, canvasH, bind_eq_ok.mpr ⟨_, thickness, ?_⟩⟩⟩
  refine congrArg Except.ok ?_
  rw [name, font, image, border, textScaled, isParent, max_eq_right layer,
    ← mended.plain]
  rfl

/-- The record of a typed node that has an id obeys the schema. -/
theorem recordProblems_toMembers (plain : n.unchecked = []) (named : n.id ≠ []) :
    Schema.recordProblems (.obj n.toMembers : Value α) = [] := by
  have idRule : ∀ path, Schema.nonEmpty path (.str n.id : Value α) = [] := by
    intro path
    cases same : n.id with
    | nil => exact absurd same named
    | cons c rest => rfl
  have kindRule : ∀ path, Schema.among (Kind.all.map Kind.name) path (.str n.kind.name : Value α) = [] := by
    intro path
    cases n.kind <;> rfl
  rw [toMembers_plain plain]
  simp only [Schema.recordProblems, List.append_eq_nil_iff]
  exact ⟨⟨⟨⟨⟨⟨rfl, rfl⟩, rfl⟩, idRule _⟩, kindRule _⟩, rfl⟩, rfl⟩

end Node

/-- The metadata are of their types. -/
structure Project.IsTyped {α : Type} (p : Project α) : Prop where
  guiName : ∃ t, p.guiName = .str t
  resetOnSpawn : ∃ b, p.resetOnSpawn = .bool b
  runtimeParent : ∃ t, p.runtimeParent = .str t
  outputMode : ∃ t, p.outputMode = .str t

namespace Project

variable {p base : Project α}

omit [Arith α] in
/-- A runtime parent is a text. -/
theorem exists_str_of_isRuntimeParent {v : Value α} (choice : isRuntimeParent v) : ∃ t, v = .str t := by
  cases v with
  | str t => exact ⟨t, rfl⟩
  | _ => cases choice

omit [Arith α] in
/-- A mode of output is a text. -/
theorem exists_str_of_isOutputMode {v : Value α} (choice : isOutputMode v) : ∃ t, v = .str t := by
  cases v with
  | str t => exact ⟨t, rfl⟩
  | _ => cases choice

/-- A typed project stays so when it is read over. -/
theorem IsTyped.ofValue (typed : base.IsTyped) (v : Value α) : (ofValue v base).IsTyped := by
  cases v with
  | obj d =>
      refine ⟨⟨_, rfl⟩, ⟨_, rfl⟩, ?_, ?_⟩
      · dsimp only [Project.ofValue]
        split
        · next choice => exact exists_str_of_isRuntimeParent choice
        · exact typed.runtimeParent
      · dsimp only [Project.ofValue]
        split
        · next choice => exact exists_str_of_isOutputMode choice
        · exact typed.outputMode
  | _ => exact typed

/-- A typed project stays so when a field is written. -/
theorem IsTyped.setField (typed : p.IsTyped) (name : Text) (v : Value α) :
    (p.setField name v).1.IsTyped := by
  rw [Project.setField]
  split
  · exact { typed with guiName := ⟨_, rfl⟩ }
  · split
    · exact { typed with resetOnSpawn := ⟨_, rfl⟩ }
    · split
      · split
        · next choice => exact { typed with runtimeParent := exists_str_of_isRuntimeParent choice }
        · exact typed
      · split
        · split
          · next choice => exact { typed with outputMode := exists_str_of_isOutputMode choice }
          · exact typed
        · exact typed

/-- A typed project is read back where nothing else is read before. -/
theorem ofValue_toValue (typed : p.IsTyped) : ofValue p.toValue p = p := by
  obtain ⟨guiName, resetOnSpawn, runtimeParent, outputMode⟩ := p
  obtain ⟨⟨name, rfl⟩, ⟨reset, rfl⟩, -, -⟩ := typed
  have same : ∀ (c : Bool) (v : Value α), (if c then v else v) = v := fun c v => by cases c <;> rfl
  have text : ∀ (c : Bool), (if c then name else name) = name := fun c => by cases c <;> rfl
  change (⟨.str (if _ then name else name), .bool reset,
    if _ then runtimeParent else runtimeParent, if _ then outputMode else outputMode⟩ : Project α) = _
  rw [text, same, same]

end Project

namespace Snapshot

variable [Faithful α] {seen : List Text} {nodes : List (Node α)}

/-- Records of distinct ids that read back give their nodes in order, and none is dropped. -/
theorem readRecords_toMembers (index : Nat) (distinct : (nodes.map Node.id).Nodup)
    (fresh : ∀ n ∈ nodes, n.id ∉ seen)
    (mended : ∀ n ∈ nodes, n.IsMended ∧ n.parent ≠ [] ∧ 1 ≤ n.z) (copyable : ∀ n ∈ nodes, n.IsCopyable depth) :
    ∃ ms, readRecords depth seen index (nodes.map fun n => .obj (Node.sortKeys n.toMembers)) = .ok (ms, []) ∧
      List.Forall₂ Node.Reshaped nodes ms ∧ ((∀ n ∈ nodes, n.IsFinite) → ms = nodes) := by
  induction nodes generalizing seen index with
  | nil => exact ⟨[], rfl, .nil, fun _ => rfl⟩
  | cons n rest ih =>
      obtain ⟨isMended, parent, layer⟩ := mended n List.mem_cons_self
      obtain ⟨m, readBack, reshaped, same⟩ :=
        Node.ofRecord_toMembers isMended parent layer (copyable n List.mem_cons_self)
      rw [List.map_cons, List.nodup_cons] at distinct
      have first : readRecord depth seen (.obj (Node.sortKeys n.toMembers)) = .ok (.ok m) := by
        have isFresh : seen.elem m.id = false := by simpa [reshaped.id] using fresh n List.mem_cons_self
        rw [readRecord, Node.sortKeys_toMembers, Node.recordProblems_toMembers isMended.plain isMended.id, readBack]
        simp only [isFresh]
        rfl
      obtain ⟨ms, others, allReshaped, allSame⟩ : ∃ ms, readRecords depth (m.id :: seen) (index + 1)
          (rest.map fun n => .obj (Node.sortKeys n.toMembers)) = .ok (ms, []) ∧
          List.Forall₂ Node.Reshaped rest ms ∧ ((∀ n ∈ rest, n.IsFinite) → ms = rest) := by
        refine ih (index + 1) distinct.2 (fun other inRest isSeen => ?_)
          (fun other inRest => mended other (List.mem_cons_of_mem _ inRest))
          fun other inRest => copyable other (List.mem_cons_of_mem _ inRest)
        rcases List.mem_cons.mp isSeen with here | before
        · exact distinct.1 (here.trans reshaped.id ▸ List.mem_map_of_mem inRest)
        · exact fresh other (List.mem_cons_of_mem _ inRest) before
      refine ⟨m :: ms, ?_, .cons reshaped allReshaped, fun finite => ?_⟩
      · rw [List.map_cons, readRecords]
        exact bind_eq_ok.mpr ⟨_, first, bind_eq_ok.mpr ⟨_, others, rfl⟩⟩
      · rw [same (finite n List.mem_cons_self), allSame fun other inRest => finite other (List.mem_cons_of_mem _ inRest)]

omit [Faithful α] in
/-- A snapshot of a design with a typed project obeys the schema. -/
theorem snapshotProblems_ofStore [KnowsInts α] {s : Store α} {p : Project α} (typed : p.IsTyped)
    (selected : Option Text) (zoom : α) (showSafeArea : Bool) :
    Schema.snapshotProblems (ofStore s p selected (.num zoom) (.bool showSafeArea)) = [] := by
  obtain ⟨guiName, resetOnSpawn, runtimeParent, outputMode⟩ := p
  obtain ⟨⟨name, rfl⟩, ⟨reset, rfl⟩, ⟨parent, rfl⟩, ⟨mode, rfl⟩⟩ := typed
  have isVersion : ∀ path, Schema.ofShapes [.integer] path (.int version : Value α) ++
      Schema.atLeast 1 path (.int version : Value α) = [] := by
    intro path
    simp [Schema.ofShapes, Schema.hasShape, Schema.atLeast, Value.int, version, KnowsInts.isWhole_ofInt,
      Arith.OrdersInts.lt_ofInt]
  have isSelected : Schema.onMember "selectedId" (Schema.ofShapes [.string, .null]) []
      (ofStore s ⟨.str name, .bool reset, .str parent, .str mode⟩ selected (.num zoom)
        (.bool showSafeArea)) = [] := by
    rw [ofStore]
    cases s.lookup selected <;> rfl
  have none : Schema.snapshotFindings
      (ofStore s ⟨.str name, .bool reset, .str parent, .str mode⟩ selected (.num zoom)
        (.bool showSafeArea)) = [] := by
    simp only [Schema.snapshotFindings, List.append_eq_nil_iff]
    exact ⟨⟨⟨⟨⟨⟨⟨rfl, rfl⟩, isVersion _⟩, rfl⟩, rfl⟩, isSelected⟩, rfl⟩, rfl⟩
  rw [Schema.snapshotProblems, none, List.mergeSort_nil]

end Snapshot

end LayoutDesigner
