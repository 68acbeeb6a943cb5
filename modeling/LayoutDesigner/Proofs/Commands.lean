import LayoutDesigner.Session.Command
import LayoutDesigner.Proofs.Gesture
import LayoutDesigner.Proofs.Snapshot

/-!
# Going through the commands

A command writes nodes in one place, by an edit of the store; besides it looks things up, takes ids,
selects and tells. So what the commands do to a session follows from what these steps do to it. A
`Regime` is what is asked of sessions on the way, `Regime.Kept` lists what it asks of each kind of step,
and the rest of the module goes through the bodies of the commands, once for all regimes.

Until a command has written nodes any step of it may fail. After that it only computes measures that the
user is told, and the script of a new project.
-/

namespace LayoutDesigner

open Arith (IsReal Lawful)
open Store (mem_of_find?)

variable {α β γ : Type}

namespace Session

variable {s : Session α} {done : β → Session α → Prop} {failed : Fault → Session α → Prop}

/-- An edit of the stage ends as it does on the stage alone. -/
theorem ends_onStage {edit : Edit (Stage α) β} :
    (onStage edit).Ends s done failed ↔
      edit.Ends s.stage (fun answer stage => done answer { s with stage })
        fun fault stage => failed fault { s with stage } :=
  Edit.ends_focus _ _ edit

/-- An edit of the store ends as it does on the store alone. -/
theorem ends_onStore {edit : Edit (Store α) β} :
    (onStore edit).Ends s done failed ↔
      edit.Ends s.store (fun answer store => done answer { s with stage := { s.stage with store } })
        fun fault store => failed fault { s with stage := { s.stage with store } } :=
  ends_onStage.trans (Edit.ends_focus _ _ edit)

/-- The session of a new project in which its first node is to be made. -/
def begun (s : Session α) (store : Store α) : Session α :=
  { s with
    stage := { s.stage with store, drag := none }
    project := s.projectDefaults
    idsTaken := s.idsTaken + 1 }

/-- The session of a new project after its first node was made. -/
def withFirstNode (s : Session α) (store : Store α) : Session α :=
  { s.begun (store.modifyNode (s.idSupply s.idsTaken) ({ · with text := firstText })) with
    selectedId := some (s.idSupply s.idsTaken) }

end Session

/-- A step of a drag. -/
def Command.IsMove : Command α → Prop
  | .pointerMove _ => True
  | _ => False

/-- What is asked of the sessions that a command passes through: what `Holds` of one, where nodes are written
or not, and what is true of one in which the command `Fails`. -/
structure Regime (α : Type) where
  Holds : (written : Bool) → Session α → Prop
  Fails : Fault → Session α → Prop

variable [Arith α]

namespace Regime

open Session (onStage onStore ends_onStage ends_onStore)

/-- The edit leaves what is asked for, whether it returns or fails. -/
def Runs (r : Regime α) (written : Bool) (edit : Edit (Session α) β) (s : Session α) : Prop :=
  edit.Ends s (fun _ t => r.Holds written t) r.Fails

/-- What a regime asks of the steps of commands. -/
structure Kept (r : Regime α) : Prop where
  written {s} : r.Holds false s → r.Holds true s
  fails {s} (fault : Fault) : r.Holds false s → r.Fails fault s
  -- Beside the nodes
  told {written s status signals showSafeArea script} :
    r.Holds written s → r.Holds written { s with status, signals, showSafeArea, script }
  deselected {written s} : r.Holds written s → r.Holds written { s with selectedId := none }
  selected {written s n} : r.Holds written s → n ∈ s.store.nodes →
    r.Holds written { s with selectedId := some n.id }
  zoomed {written s zoom} : r.Holds written s → r.Holds written { s with stage := { s.stage with zoom } }
  undragged {written s} : r.Holds written s → r.Holds written { s with stage := { s.stage with drag := none } }
  taken {s} : r.Holds false s → r.Holds false { s with idsTaken := s.idsTaken + 1 }
  setProject {s} (name : Text) (v : Value α) : r.Holds false s →
    r.Holds false { s with project := (s.project.setField name v).1 }
  grab {s n} (e : PointerEvent α) : r.Holds false s → n ∈ s.store.nodes → r.Runs true (onStage (Stage.grab n e)) s
  -- What is computed after nodes were written
  detail {written s n fault} : r.Holds written s → n ∈ s.store.nodes → Session.geometryDetail n = .error fault →
    r.Fails fault s
  realZoom {written s zoom fault} : r.Holds written s → (∀ [Lawful α], IsReal zoom) →
    Stage.setZoom (.num zoom) s.stage = .error fault s.stage → r.Fails fault s
  -- Writing nodes
  first {s} : r.Holds false s →
    (Store.createNode (.str Kind.textLabel.name) (s.idSupply s.idsTaken) root).Ends s.store.clear
      (fun _ store => r.Holds true (s.withFirstNode store) ∧
        ∀ fault, Script.generate (s.withFirstNode store).store s.projectDefaults = .error fault →
          ∀ t, r.Holds true t → r.Fails fault t)
      fun fault store => r.Fails fault (s.begun store)
  create {s} (kind : Value α) (i : Nat) : r.Holds false s →
    r.Runs true (onStore (Store.createNode kind (s.idSupply i) root)) s
  copy {s id n m} (i : Nat) : r.Holds false s → s.store.find? id = some n →
    s.store.copyOf n (s.idSupply i) s.duplicateOffset s.depth = .ok m →
    r.Runs true (onStore (Store.place (m.relabelExtensions
      ((List.range m.extensions.length).map fun j => s.idSupply (s.idsTaken + j)))))
      { s with idsTaken := s.idsTaken + m.extensions.length }
  delete {s} (id : Text) : r.Holds false s → (Store.deleteSubtree id).Ends s.store
    (fun _ store => r.Holds true { s with stage := { s.stage with store }, selectedId := none })
    fun fault store => r.Fails fault { s with stage := { s.stage with store } }
  swap {s} (id : Text) (up : Bool) : r.Holds false s → r.Runs true (onStore (Store.swapWithNeighbor id up)) s
  reparent {s} (id parent : Text) : r.Holds false s → r.Runs true (onStore (Store.reparent id parent)) s
  reorder {s} (id other : Text) (position : DropPosition) : r.Holds false s →
    r.Runs true (onStore (Store.reorderRelative id other position)) s
  field {s} (id name : Text) (v : Value α) : r.Holds false s → r.Runs true (onStore (Store.applyField id name v)) s
  extend {s} (id : Text) (kind : ExtensionKind) : r.Holds false s →
    r.Runs true (onStore (modify (·.modifyNode id fun n =>
      { n with extensions := n.extensions ++ [Extension.new kind (s.idSupply s.idsTaken)] })))
      { s with idsTaken := s.idsTaken + 1 }
  remove {s n} (stays : Extension α → Bool) : r.Holds false s → n ∈ s.store.nodes →
    r.Runs true (onStore (modify (·.modifyNode n.id ({ · with extensions := n.extensions.filter stays })))) s
  setProp {s n e place key type raw value} : r.Holds false s → n ∈ s.store.nodes → n.extensions[place]? = some e →
    e.kind.property? key = some type → type.coerce raw = .ok value →
    r.Runs true (onStore (modify (·.modifyNode n.id fun m =>
      { m with extensions := Session.writeProp m.extensions place key value }))) s

/-- Every step of the drag that is going on leaves what is asked for. -/
def Follows (r : Regime α) (s : Session α) : Prop :=
  ∀ {e g n p d}, s.stage.drag = some g → s.store.find? g.nodeId = some n → s.stage.eventLocal e g.parent = .ok p →
    Point.sub p g.startPointer = .ok d → r.Runs true (onStore (Stage.dragBy g n d.1 d.2 s.stage.leastSide)) s

/-- What is read from the document may be put in the place of the design. -/
def TakesIn (r : Regime α) (data : Value α) (s : Session α) : Prop :=
  ∀ {loaded}, Snapshot.read data (s.store.canvasW, s.store.canvasH) s.project s.stage.leastSide s.depth = .ok loaded →
    r.Holds true { s with
      stage := { s.stage with store := s.store.replaceAll loaded.store.nodes, drag := none }
      project := loaded.project
      selectedId := loaded.selectedId }

variable {r : Regime α} {s : Session α} {written next : Bool}

omit [Arith α] in
/-- Where the first of two steps keeps the regime, and the second one does from wherever the first ends,
both do. -/
theorem Runs.bind {edit : EStateM Fault (Session α) γ} {rest : γ → EStateM Fault (Session α) β}
    (first : r.Runs written edit s) (runs : ∀ answer t, r.Holds written t → r.Runs next (rest answer) t) :
    r.Runs next (edit >>= rest) s :=
  (Edit.ends_bind edit rest).mpr (first.mono (fun answer t => runs answer t) fun _ _ fails => fails)

omit [Arith α] in
/-- Reading the session keeps the regime if what follows does. -/
theorem runs_get {rest : Session α → EStateM Fault (Session α) β} (runs : r.Runs written (rest s) s) :
    r.Runs written (get >>= rest) s :=
  (Edit.ends_bind _ rest).mpr runs

omit [Arith α] in
/-- A change that keeps the promises keeps the regime. -/
theorem runs_modify {f : Session α → Session α} (holds : r.Holds written (f s)) : r.Runs written (modify f) s := holds

omit [Arith α] in
/-- Taking an id gives the next one of the supply. -/
theorem runs_freshId {rest : Text → EStateM Fault (Session α) β}
    (runs : r.Runs written (rest (s.idSupply s.idsTaken)) { s with idsTaken := s.idsTaken + 1 }) :
    r.Runs written (Session.freshId >>= rest) s :=
  (Edit.ends_bind _ rest).mpr runs

omit [Arith α] in
/-- Taking an id for each of some items gives the next ones of the supply in their order. -/
theorem runs_freshIds {rest : List Text → EStateM Fault (Session α) β} (items : List γ)
    (runs : r.Runs written (rest ((List.range items.length).map fun i => s.idSupply (s.idsTaken + i)))
      { s with idsTaken := s.idsTaken + items.length }) :
    r.Runs written ((items.mapM fun _ => Session.freshId) >>= rest) s := by
  induction items generalizing s rest with
  | nil => exact runs
  | cons item items ih =>
      rw [List.mapM_cons, bind_assoc]
      refine runs_freshId ?_
      simp only [bind_assoc, pure_bind]
      refine ih ?_
      have shifted : (fun i => s.idSupply (s.idsTaken + i)) ∘ Nat.succ = fun i => s.idSupply (s.idsTaken + 1 + i) :=
        funext fun i => congrArg s.idSupply (Nat.add_right_comm s.idsTaken i 1)
      rwa [List.length_cons, List.range_succ_eq_map, List.map_cons, List.map_map, shifted, Nat.add_zero,
        Nat.add_comm items.length 1, ← Nat.add_assoc] at runs

namespace Kept

/-- An answer at the end of a command keeps the regime. -/
theorem returns (kept : r.Kept) (holds : r.Holds written s) (answer : β) : r.Runs true (pure answer) s := by
  cases written with
  | false => exact kept.written holds
  | true => exact holds

/-- Before nodes are written, what is computed may fail. -/
theorem lift (kept : r.Kept) (holds : r.Holds false s) {result : Except Fault γ}
    {rest : γ → EStateM Fault (Session α) β} (runs : ∀ value, result = .ok value → r.Runs written (rest value) s) :
    r.Runs written (liftM result >>= rest) s :=
  (Edit.ends_bind _ rest).mpr ((Edit.ends_lift result).mpr ⟨runs, fun fault _ => kept.fails fault holds⟩)

/-- A notice keeps the regime. -/
theorem notice (kept : r.Kept) (holds : r.Holds written s) (message detail : Text) :
    r.Runs written (Session.notice message detail) s := kept.told holds

/-- A command tells that something changed when it is done. -/
theorem notifying (kept : r.Kept) {edit : Edit (Session α) β} (runs : r.Runs written edit s) :
    r.Runs written (Session.notifying edit) s := by
  refine runs.bind fun answer t holds => ?_
  have told : r.Runs written Session.notify t := kept.told holds
  exact told.bind fun _ _ holds => holds

/-- A notice about a node of the session keeps the regime. -/
theorem noticeEditing (kept : r.Kept) (holds : r.Holds written s) {n : Node α} (isNode : n ∈ s.store.nodes) :
    r.Runs written (Session.noticeEditing n) s :=
  (Edit.ends_bind _ _).mpr ((Edit.ends_lift _).mpr
    ⟨fun detail _ => kept.notice holds _ detail, fun _ failed => kept.detail holds isNode failed⟩)

/-- Selecting leaves the store alone. -/
theorem ends_selectQuiet (kept : r.Kept) (holds : r.Holds written s) (id? : Option Text) :
    (Session.selectQuiet id?).Ends s (fun _ t => r.Holds written t ∧ t.store = s.store) r.Fails := by
  unfold Session.selectQuiet
  rw [Edit.ends_bind, Edit.ends_get]
  split
  · exact ⟨kept.told (kept.deselected holds), rfl⟩
  · next n found =>
      obtain ⟨id, -, found⟩ := Option.bind_eq_some_iff.mp found
      have isNode := mem_of_find? found
      have chosen := kept.selected holds isNode
      rw [Edit.ends_bind, Edit.ends_modify, Edit.ends_bind, Edit.ends_lift]
      exact ⟨fun _ _ => ⟨kept.told chosen, rfl⟩, fun _ failed => kept.detail chosen isNode failed⟩

/-- A silent selection keeps the regime. -/
theorem selectQuiet (kept : r.Kept) (holds : r.Holds written s) (id? : Option Text) :
    r.Runs written (Session.selectQuiet id?) s :=
  (kept.ends_selectQuiet holds id?).mono (fun _ _ both => both.1) fun _ _ fails => fails

/-- A real is set as the zoom at any time. -/
theorem setRealZoom (kept : r.Kept) (holds : r.Holds written s) {zoom : α} (isReal : ∀ [Lawful α], IsReal zoom)
    {rest : Unit → EStateM Fault (Session α) β}
    (runs : ∀ zoom, r.Holds written { s with stage := { s.stage with zoom } } →
      r.Runs next (rest ()) { s with stage := { s.stage with zoom } }) :
    r.Runs next (onStage (Stage.setZoom (.num zoom)) >>= rest) s := by
  rw [Runs, Edit.ends_bind, ends_onStage]
  exact Stage.ends_setZoom (fun zoom => runs zoom (kept.zoomed holds)) fun _ failed => kept.realZoom holds isReal failed

/-- Selecting keeps the regime. -/
theorem select (kept : r.Kept) (holds : r.Holds false s) (id : Value α) : r.Runs true (Session.select id) s :=
  kept.notifying (kept.lift holds fun id? _ => kept.selectQuiet (kept.written holds) id?)

/-- Writing a field of the project keeps the regime. -/
theorem setProjectField (kept : r.Kept) (holds : r.Holds false s) (field value : Value α) :
    r.Runs true (Session.setProjectField field value) s := by
  refine kept.notifying ?_
  split
  · next name => exact kept.written (kept.setProject name value holds)
  · exact kept.returns holds false

/-- Setting the zoom keeps the regime. -/
theorem setZoom (kept : r.Kept) (holds : r.Holds false s) (value : Value α) : r.Runs true (Session.setZoom value) s :=
  kept.notifying (ends_onStage.mpr
    (Stage.ends_setZoom (fun _ => kept.zoomed (kept.written holds)) fun fault _ => kept.fails fault holds))

/-- Showing or hiding the safe area keeps the regime. -/
theorem setShowSafeArea (kept : r.Kept) (holds : r.Holds false s) (visible : Value α) :
    r.Runs true (Session.setShowSafeArea visible) s :=
  kept.notifying (runs_modify (kept.told (kept.written holds)))

/-- Creating a node keeps the regime. -/
theorem createNode (kept : r.Kept) (holds : r.Holds false s) (kind : Value α) :
    r.Runs true (Session.createNode kind) s := by
  refine kept.notifying (kept.lift holds fun kind? _ => ?_)
  cases kind? with
  | none => exact kept.returns holds none
  | some _ =>
      refine runs_freshId ((kept.create kind s.idsTaken (kept.taken holds)).bind fun _ _ holds => ?_)
      exact (kept.selectQuiet holds _).bind fun _ _ holds => kept.returns holds _

/-- Deleting the selected node keeps the regime. -/
theorem deleteSelected (kept : r.Kept) (holds : r.Holds false s) : r.Runs true Session.deleteSelected s := by
  refine kept.notifying (runs_get ?_)
  split
  · exact kept.returns holds 0
  · next id _ =>
      rw [Runs, Edit.ends_bind, ends_onStore]
      refine (kept.delete id holds).mono (fun removed _ holds => ?_) fun _ _ fails => fails
      rw [Edit.ends_bind, Edit.ends_modify]
      exact (kept.notice holds _ _).bind fun _ _ holds => kept.returns holds removed.length

/-- A new project keeps the regime. -/
theorem newProject (kept : r.Kept) (holds : r.Holds false s) : r.Runs true Session.newProject s := by
  refine kept.notifying ?_
  rw [Runs, Edit.ends_bind, ends_onStage, Stage.losePointer, Edit.ends_modify, Edit.ends_bind, ends_onStore,
    Edit.ends_modify, Edit.ends_bind, Edit.ends_modify, Edit.ends_bind, Session.freshId, Edit.ends_modifyGet,
    Edit.ends_bind, ends_onStore]
  refine (kept.first holds).mono (fun _ store made => ?_) fun _ _ fails => fails
  obtain ⟨holds, generates⟩ := made
  rw [Edit.ends_bind, ends_onStore, Edit.ends_modify, Edit.ends_bind, Edit.ends_modify]
  refine kept.setRealZoom holds isReal_one fun zoom holds => ?_
  rw [Runs, Edit.ends_bind, Edit.ends_modify, Edit.ends_bind, Edit.ends_get, Edit.ends_bind, Edit.ends_lift]
  refine ⟨fun script _ => ?_, fun fault failed => generates fault failed _ (kept.told holds)⟩
  exact (runs_modify (kept.told (kept.told holds))).bind fun _ _ holds => kept.notice holds _ _

/-- Duplicating the selected node keeps the regime. -/
theorem duplicateSelected (kept : r.Kept) (holds : r.Holds false s) : r.Runs true Session.duplicateSelected s := by
  refine kept.notifying (runs_get ?_)
  split
  · exact kept.returns holds none
  · next id _ =>
      refine runs_freshId (runs_get ?_)
      have holds := kept.taken holds
      split
      · exact kept.returns holds none
      · next n found =>
          refine kept.lift holds fun copy copied => runs_freshIds copy.extensions ?_
          refine (kept.copy s.idsTaken holds found copied).bind fun _ _ holds => ?_
          exact (kept.selectQuiet holds _).bind fun _ _ holds => kept.returns holds _

/-- Moving the selected node past its neighbour keeps the regime. -/
theorem moveSelected (kept : r.Kept) (holds : r.Holds false s) (up : Bool) :
    r.Runs true (Session.moveSelected up) s := by
  refine kept.notifying (runs_get ?_)
  split
  · exact kept.returns holds false
  · next id _ => exact kept.swap id up holds

/-- Dropping a row into another one keeps the regime. -/
theorem dropInside (kept : r.Kept) (holds : r.Holds false s) (dragged : Node α) (target? : Option Text) :
    r.Runs true (Session.dropInside dragged target?) s := by
  unfold Session.dropInside
  split
  · next target =>
      refine runs_get ?_
      dsimp only
      split
      · exact kept.returns holds false
      · refine (kept.reparent dragged.id target holds).bind fun moved t holds => ?_
        split
        · exact kept.returns holds false
        · exact (kept.notice holds _ _).bind fun _ _ holds => kept.returns holds true
  · exact kept.returns holds false

/-- Dropping a row beside another one keeps the regime. -/
theorem dropBeside (kept : r.Kept) (holds : r.Holds false s) (dragged : Node α) (target? : Option Text)
    (position : DropPosition) : r.Runs true (Session.dropBeside dragged target? position) s := by
  unfold Session.dropBeside
  split
  · next target =>
      refine (kept.reorder dragged.id target position holds).bind fun moved t holds => ?_
      split
      · exact kept.returns holds false
      · exact (kept.notice holds _ _).bind fun _ _ holds => kept.returns holds true
  · exact kept.returns holds false

/-- Dropping a row anywhere keeps the regime. -/
theorem reorderDrop (kept : r.Kept) (holds : r.Holds false s) (dragged target position : Value α) :
    r.Runs true (Session.reorderDrop dragged target position) s := by
  refine kept.notifying (runs_get (kept.lift holds fun dragged? _ => ?_))
  split
  · exact kept.returns holds false
  · split
    · exact kept.returns holds false
    · refine kept.lift holds fun target? _ => ?_
      split
      · exact kept.returns holds false
      · split
        · split
          · exact kept.returns holds false
          · exact kept.dropInside holds _ _
          · exact kept.dropBeside holds _ _ _
        · exact kept.returns holds false

/-- Writing a property of the selected node keeps the regime. -/
theorem setProperty (kept : r.Kept) (holds : r.Holds false s) (field value : Value α) :
    r.Runs true (Session.setProperty field value) s := by
  refine kept.notifying (runs_get ?_)
  split
  · next n name _ =>
      split
      · exact kept.reparent n.id value.shown holds
      · refine (kept.field n.id name value holds).bind fun written t holds => ?_
        split
        · exact kept.returns holds false
        · refine runs_get ?_
          split
          · next edited found =>
              exact (kept.noticeEditing holds (mem_of_find? found)).bind fun _ _ holds => kept.returns holds true
          · exact kept.returns holds true
  · exact kept.returns holds false

/-- Adding an extension keeps the regime. -/
theorem addExtension (kept : r.Kept) (holds : r.Holds false s) (kind : Value α) :
    r.Runs true (Session.addExtension kind) s := by
  refine kept.notifying (kept.lift holds fun kind? _ => ?_)
  split
  · exact kept.returns holds none
  · next k _ =>
      refine runs_get ?_
      split
      · exact (kept.notice holds _ _).bind fun _ _ holds => kept.returns holds none
      · next n _ =>
          refine runs_freshId ((kept.extend n.id k holds).bind fun _ _ holds => ?_)
          exact (kept.notice holds _ _).bind fun _ _ holds => kept.returns holds _

/-- Removing an extension keeps the regime. -/
theorem removeExtension (kept : r.Kept) (holds : r.Holds false s) (nodeId extensionId : Value α) :
    r.Runs true (Session.removeExtension nodeId extensionId) s := by
  refine kept.notifying (runs_get (kept.lift holds fun id? _ => ?_))
  split
  · exact kept.returns holds false
  · next n found =>
      obtain ⟨id, -, found⟩ := Option.bind_eq_some_iff.mp found
      exact (kept.remove _ holds (mem_of_find? found)).bind fun _ _ holds => kept.returns holds _

/-- Writing a property of an extension keeps the regime. -/
theorem setExtensionProp (kept : r.Kept) (holds : r.Holds false s) (nodeId extensionId key value : Value α) :
    r.Runs true (Session.setExtensionProp nodeId extensionId key value) s := by
  refine kept.notifying (runs_get (kept.lift holds fun id? _ => ?_))
  split
  · exact kept.returns holds false
  · next n found =>
      obtain ⟨id, -, found⟩ := Option.bind_eq_some_iff.mp found
      refine kept.lift holds fun key? _ => ?_
      split
      · next e key present _ =>
          split
          · exact kept.returns holds false
          · next type known =>
              refine kept.lift holds fun coerced isCoerced => ?_
              split
              · exact kept.fails .wrongType holds
              · exact (kept.setProp holds (mem_of_find? found) present known isCoerced).bind fun _ _ holds =>
                  kept.returns holds true
      · exact kept.returns holds false

/-- Pressing the pointer keeps the regime. -/
theorem pointerDown (kept : r.Kept) (holds : r.Holds false s) (e : PointerEvent α) :
    r.Runs true (Session.pointerDown e) s := by
  have lost := kept.undragged holds
  refine kept.notifying ((Edit.ends_bind _ _).mpr (ends_onStage.mpr ?_))
  refine Stage.ends_aim (kept.returns holds false) (fun fault => kept.fails fault lost) ?_ fun n isNode => ?_
  · exact (kept.selectQuiet lost none).bind fun _ _ holds => kept.returns holds false
  · refine (Edit.ends_bind _ _).mpr ((kept.ends_selectQuiet lost _).mono ?_ fun _ _ fails => fails)
    rintro _ t ⟨holds, same⟩
    have isNode' : n ∈ t.store.nodes := same ▸ isNode
    exact (kept.grab e holds isNode').bind fun _ _ holds => kept.returns holds true

/-- Moving the pointer keeps the regime, where a drag does. -/
theorem pointerMove (kept : r.Kept) (holds : r.Holds false s) (follows : r.Follows s) (e : PointerEvent α) :
    r.Runs true (Session.pointerMove e) s := by
  have moved : r.Runs true (onStage (Stage.pointerMove e)) s :=
    ends_onStage.mpr (Stage.ends_pointerMove (kept.written holds) (kept.written (kept.undragged holds))
      (fun fault => kept.fails fault holds) fun g n p d dragged found isLocal isDistance =>
        ends_onStore.mp (follows dragged found isLocal isDistance))
  refine kept.notifying (moved.bind fun answer t holds => runs_get ?_)
  split
  · next n found =>
      obtain ⟨id, -, found⟩ := Option.bind_eq_some_iff.mp found
      exact (kept.noticeEditing holds (mem_of_find? found)).bind fun _ _ holds => kept.returns holds true
  · exact kept.returns holds _

/-- Releasing the pointer keeps the regime. -/
theorem pointerUp (kept : r.Kept) (holds : r.Holds false s) (e : PointerEvent α) :
    r.Runs true (Session.pointerUp e) s := by
  have lost := kept.undragged holds
  have released : r.Runs true (onStage (Stage.pointerUp e)) s :=
    ends_onStage.mpr (Stage.ends_pointerUp_of (kept.written holds) (kept.written lost)
      (fun fault => kept.fails fault lost) fun n world =>
        Stage.ends_drop (kept.written lost) (fun fault => kept.fails fault lost) fun target =>
          ends_onStore.mp (kept.reparent n.id target lost))
  refine kept.notifying (runs_get (released.bind fun answer t holds => runs_get ?_))
  dsimp only
  split
  · exact (kept.notice holds _ _).bind fun _ _ holds => kept.returns holds true
  · exact kept.returns holds _

/-- Losing the pointer keeps the regime. -/
theorem losePointer (kept : r.Kept) (holds : r.Holds false s) : r.Runs true Session.losePointer s :=
  kept.notifying (ends_onStage.mpr (kept.undragged (kept.written holds)))

/-- Exporting the script keeps the regime. -/
theorem exportScript (kept : r.Kept) (holds : r.Holds false s) : r.Runs true Session.exportScript s := by
  refine kept.notifying (runs_get (kept.lift holds fun script _ => ?_))
  exact (runs_modify (kept.told holds)).bind fun _ _ holds =>
    (kept.notice holds _ _).bind fun _ _ holds => kept.returns holds script

/-- Loading a document keeps the regime, where taking in what was read does. -/
theorem loadSnapshot (kept : r.Kept) (holds : r.Holds false s) {data : Value α} (takesIn : r.TakesIn data s) :
    r.Runs true (Session.loadSnapshot data) s := by
  refine kept.notifying (runs_get ?_)
  split
  · next loaded isRead =>
      suffices replaced : r.Runs true (Session.replaceBy loaded) s from
        replaced.bind fun _ _ holds => kept.returns holds true
      rw [Runs, Session.replaceBy, Edit.ends_bind, ends_onStage, Stage.losePointer, Edit.ends_modify, Edit.ends_bind,
        ends_onStore, Edit.ends_modify, Edit.ends_bind, Edit.ends_modify]
      refine kept.setRealZoom (takesIn isRead) (Snapshot.isReal_zoom isRead) fun _ holds => ?_
      exact (runs_modify (kept.told holds)).bind fun _ _ holds => kept.notice holds _ _
  · split
    · exact (kept.notice holds _ _).bind fun _ _ holds => kept.returns holds false
    · exact kept.fails _ holds

/-- Loading what was found in a save file. -/
theorem loadFrom (kept : r.Kept) (holds : r.Holds false s) (takesIn : ∀ data, r.TakesIn data s)
    (found : Except Fault (Option (Value α))) : r.Runs true (Session.loadFrom found) s := by
  have refuse : ∀ message, r.Runs true (Session.notifying do Session.notice message; return false) s := fun message =>
    kept.notifying ((kept.notice holds message []).bind fun _ _ holds => kept.returns holds false)
  unfold Session.loadFrom
  split
  · exact refuse _
  · exact refuse _
  · exact kept.loadSnapshot holds (takesIn _)
  · split
    · exact refuse _
    · exact kept.fails _ holds

/-- Every command leaves what a regime asks for, the steps of a drag and what is loaded as far as these do. -/
theorem run (kept : r.Kept) (holds : r.Holds false s) {command : Command α} (follows : command.IsMove → r.Follows s)
    (takesIn : ∀ data, command = .loadSnapshot data → r.TakesIn data s) : r.Runs true (Session.run command) s := by
  have answered : ∀ {β : Type} {edit : Edit (Session α) β} {answer : β → Value α}, r.Runs true edit s →
      r.Runs true (do return answer (← edit)) s := fun runs => runs.bind fun _ _ holds => kept.returns holds _
  cases command with
  | newProject => exact answered (kept.newProject holds)
  | select id => exact answered (kept.select holds id)
  | clearSelection => exact answered (kept.select holds .null)
  | setProjectField field value => exact answered (kept.setProjectField holds field value)
  | setZoom value => exact answered (kept.setZoom holds value)
  | setShowSafeArea visible => exact answered (kept.setShowSafeArea holds visible)
  | createNode kind => exact answered (kept.createNode holds kind)
  | deleteSelected => exact answered (kept.deleteSelected holds)
  | duplicateSelected => exact answered (kept.duplicateSelected holds)
  | moveSelected up => exact answered (kept.moveSelected holds up)
  | reorderDrop dragged target position => exact answered (kept.reorderDrop holds dragged target position)
  | setProperty field value => exact answered (kept.setProperty holds field value)
  | addExtension kind => exact answered (kept.addExtension holds kind)
  | removeExtension nodeId extensionId => exact answered (kept.removeExtension holds nodeId extensionId)
  | setExtensionProp nodeId extensionId key value =>
      exact answered (kept.setExtensionProp holds nodeId extensionId key value)
  | pointerDown e => exact answered (kept.pointerDown holds e)
  | pointerMove e => exact answered (kept.pointerMove holds (follows trivial) e)
  | pointerUp e => exact answered (kept.pointerUp holds e)
  | losePointer => exact answered (kept.losePointer holds)
  | exportScript => exact answered (kept.exportScript holds)
  | loadSnapshot data => exact answered (kept.loadSnapshot holds (takesIn data rfl))

end Kept

/-- What is asked is that the session has a certain depth. -/
def ofDepth (depth : Nat) : Regime α where
  Holds _ s := s.depth = depth
  Fails _ s := s.depth = depth

/-- No step of a command changes the depth. -/
theorem kept_ofDepth (depth : Nat) : (ofDepth depth : Regime α).Kept :=
  have store : ∀ {β : Type} {written : Bool} {s : Session α} (edit : Edit (Store α) β), s.depth = depth →
      (ofDepth depth).Runs written (onStore edit) s := fun edit same =>
    ends_onStore.mpr ((Edit.ends_self edit _).mono (fun _ _ _ => same) fun _ _ _ => same)
  { written := fun same => same
    fails := fun _ same => same
    told := fun same => same
    deselected := fun same => same
    selected := fun same _ => same
    zoomed := fun same => same
    undragged := fun same => same
    taken := fun same => same
    setProject := fun _ _ same => same
    grab := fun _ same _ => ends_onStage.mpr ((Edit.ends_self _ _).mono (fun _ _ _ => same) fun _ _ _ => same)
    detail := fun same _ _ => same
    realZoom := fun same _ _ => same
    first := fun same => (Edit.ends_self _ _).mono (fun _ _ _ => ⟨same, fun _ _ _ same => same⟩) fun _ _ _ => same
    create := fun _ _ same => store _ same
    copy := fun _ same _ _ => store _ same
    delete := fun _ same => (Edit.ends_self _ _).mono (fun _ _ _ => same) fun _ _ _ => same
    swap := fun _ _ same => store _ same
    reparent := fun _ _ same => store _ same
    reorder := fun _ _ _ same => store _ same
    field := fun _ _ _ same => store _ same
    extend := fun _ _ same => store _ same
    remove := fun _ same _ => store _ same
    setProp := fun same _ _ _ _ => store _ same }

/-- Every command leaves a session of the same depth, whether it returns or fails. -/
theorem depth_run (command : Command α) (s : Session α) :
    (Session.run command).Ends s (fun _ t => t.depth = s.depth) fun _ t => t.depth = s.depth := by
  refine (kept_ofDepth s.depth).run rfl (fun _ _ _ _ _ _ _ _ _ _ => ?_) fun _ _ _ _ => rfl
  exact ends_onStore.mpr ((Edit.ends_self _ _).mono (fun _ _ _ => rfl) fun _ _ _ => rfl)

end Regime

end LayoutDesigner
