import LayoutDesigner.Proofs.Loading
import LayoutDesigner.Proofs.Rational
import LayoutDesigner.Proofs.Regular

/-!
# Commands that fail leave the nodes alone

Whatever failure a command raises, the nodes of the session are those from before it. Before nodes are
written every step of a command may fail; an edit that fails has raised its failure before it wrote; and
after the edit every step returns.
-/

namespace LayoutDesigner

open Arith

variable {α : Type} [Arith α]

namespace Session

variable {s : Session α} {nodes : List (Node α)} {β : Type}

/-- The store is regular, a drag began with measures that fit, the session is configured by numbers that
fit, and the projects are typed. -/
structure IsRegular (s : Session α) : Prop where
  store : s.store.IsRegular
  drag : ∀ g, s.stage.drag = some g → g.IsMeasured
  least : s.stage.leastSide.IsMeasure
  zoomRange : ∃ low high, s.stage.zoomRange = .arr [.num low, .num high]
  project : s.project.IsTyped
  defaults : s.projectDefaults.IsTyped

/-- The edit leaves a regular session; where it raises a failure, this has the given nodes. -/
def Spares (nodes : List (Node α)) (edit : Edit (Session α) β) (s : Session α) : Prop :=
  edit.Ends s (fun _ t => t.IsRegular) fun fault t => t.IsRegular ∧ (fault.IsRaised → t.store.nodes = nodes)

/-- Until nodes are written they are the given ones, and so they are in a session in which a command raises a
failure. -/
def sparing (nodes : List (Node α)) : Regime α where
  Holds written t := t.IsRegular ∧ (written = false → t.store.nodes = nodes)
  Fails fault t := t.IsRegular ∧ (fault.IsRaised → t.store.nodes = nodes)

/-- What keeps the regime of spared nodes spares them. -/
theorem Spares.of_runs {edit : Edit (Session α) β} (runs : (sparing nodes).Runs true edit s) : Spares nodes edit s :=
  runs.mono (fun _ _ holds => holds.1) fun _ _ fails => fails

/-- What spares the nodes keeps the regime of spared nodes. -/
theorem Spares.runs {edit : Edit (Session α) β} (spares : Spares nodes edit s) : (sparing nodes).Runs true edit s :=
  spares.mono (fun _ _ regular => ⟨regular, nofun⟩) fun _ _ fails => fails

/-- Measures that fit can be told. -/
theorem geometryDetail_ok [Lawful α] {n : Node α} (measured : n.IsMeasured) :
    ∃ detail, geometryDetail n = .ok detail := by
  refine exists_ok_bind (scriptNumeral_ok measured.x) fun _ => ?_
  refine exists_ok_bind (scriptNumeral_ok measured.y) fun _ => ?_
  refine exists_ok_bind (scriptNumeral_ok measured.w) fun _ => ?_
  exact exists_ok_bind (scriptNumeral_ok measured.h) fun _ => ⟨_, rfl⟩

namespace IsRegular

/-- A drag may be lost. -/
theorem undragged (regular : s.IsRegular) : IsRegular { s with stage := { s.stage with drag := none } } :=
  { regular with drag := fun g found => by cases found }

/-- An edit of the store spares the nodes of a session where it spares those of the store. -/
theorem onStore (regular : s.IsRegular) {edit : Edit (Store α) β} (spares : Store.Spares edit s.store) :
    Spares s.store.nodes (Session.onStore edit) s :=
  ends_onStore.mpr (Edit.Ends.mono spares (fun _ _ isRegular => { regular with store := isRegular })
    fun _ _ fails => ⟨{ regular with store := fails.1 }, fun raised => congrArg Store.nodes (fails.2 raised)⟩)

/-- An edit that is refused as a whole spares the nodes. -/
theorem onStore_of_same (regular : s.IsRegular) {edit : Edit (Store α) β}
    (ends : edit.Ends s.store (fun _ t => t.IsRegular) fun _ t => t = s.store) :
    Spares s.store.nodes (Session.onStore edit) s :=
  regular.onStore (ends.mono (fun _ _ isRegular => isRegular) fun _ _ same => ⟨same ▸ regular.store, fun _ => same⟩)

/-- An edit of the extensions of a node. -/
theorem editExtensions (regular : s.IsRegular) (id : Text) (f : Node α → List (Extension α)) :
    Spares s.store.nodes (Session.onStore (modify (·.modifyNode id fun n => { n with extensions := f n }))) s :=
  regular.onStore (regular.store.modifyNode (fun _ => rfl) fun _ measured => { measured with })

/-- A real is a zoom, whatever numbers it is kept between. -/
theorem setZoom (regular : s.IsRegular) {zoom : α} (isReal : IsReal zoom) :
    (Stage.setZoom (.num zoom)).Ends s.stage (fun _ _ => True) fun _ _ => False := by
  obtain ⟨low, high, range⟩ := regular.zoomRange
  rw [Stage.setZoom]
  simp only [Edit.ends_bind, Edit.ends_get, Edit.ends_modify]
  refine Edit.ends_lift_ok isReal ?_
  refine Edit.ends_lift_ok (congrArg Value.asPair range) ?_
  refine Edit.ends_lift_ok (Value.clamp_num ..) ?_
  exact Edit.ends_lift_ok rfl trivial

variable [Lawful α]

/-- Grabbing a node spares all nodes. -/
theorem grab (regular : s.IsRegular) {n : Node α} (measured : n.IsMeasured) (e : PointerEvent α) :
    Spares s.store.nodes (onStage (Stage.grab n e)) s := by
  rw [Spares, ends_onStage]
  refine Stage.ends_grab.mpr ⟨fun p isLocal => { regular with drag := fun g found => ?_ },
    fun _ _ => ⟨{ regular with drag := fun g found => ?_ }, fun _ => rfl⟩⟩
  all_goals obtain rfl := Option.some.inj found
  · refine ⟨measured.geometry, fun entry listed => ?_,
      Contract.Holds.eventLocal_real regular.store.toIsMeasured isLocal⟩
    obtain ⟨d, isNode, same⟩ := Gesture.exists_node_of_begun listed
    exact same ▸ (regular.store.nodes d isNode).geometry
  · exact ⟨measured.geometry, List.forall_mem_nil _, Store.isRealPoint_origin⟩

/-- A copy with new ids for its extensions is placed beside what it was copied from. -/
theorem placeCopy (regular : s.IsRegular) {id newId : Text} {ids : List Text} {n m : Node α}
    (found : s.store.find? id = some n) (copied : s.store.copyOf n newId s.duplicateOffset s.depth = .ok m) :
    Spares s.store.nodes (Session.onStore (Store.place (m.relabelExtensions ids))) s := by
  have measured := regular.store.of_find? found
  obtain ⟨-, -, -, plain, anchorX, anchorY⟩ := Store.copyOf_ok regular.store.isPlain measured.plain copied
  exact regular.onStore_of_same (regular.store.place (n := m.relabelExtensions ids) plain
    (anchorX ▸ measured.anchorX) (anchorY ▸ measured.anchorY))

/-- The first node of a new project is made, and the script of it is made too. -/
theorem first [Refuses α] (regular : s.IsRegular) :
    (Store.createNode (.str Kind.textLabel.name) (s.idSupply s.idsTaken) root).Ends s.store.clear
      (fun _ store => (s.withFirstNode store).IsRegular ∧
        ∃ script, Script.generate (s.withFirstNode store).store s.projectDefaults = .ok script)
      fun _ _ => False := by
  refine (regular.store.createFirst (s.idSupply s.idsTaken)).mono (fun _ t after => ?_) fun _ _ fails => fails
  obtain ⟨isRegular, styled, exportable⟩ := after
  have isRegular' : (s.withFirstNode t).IsRegular :=
    { regular with
      store := isRegular.modifyNode (fun _ => rfl) fun _ measured => { measured with }
      drag := fun g found => by cases found
      project := regular.defaults }
  have looks : ∀ n ∈ (s.withFirstNode t).store.nodes,
      n.IsStyled ∧ Fits (Arith.ofInt n.z : α) ∧ ∀ e ∈ n.extensions, e.IsLegible :=
    Store.All.modifyNode (P := fun n : Node α => n.IsStyled ∧ Fits (Arith.ofInt n.z : α) ∧ ∀ e ∈ n.extensions, e.IsLegible)
      (fun n isNode => ⟨styled n isNode, exportable n isNode⟩) _ fun _ both => ⟨{ both.1 with }, both.2⟩
  exact ⟨isRegular', Script.exists_generate isRegular'.store.toIsMeasured (fun n listed => (looks n listed).1)
    regular.defaults fun n listed => (looks n listed).2⟩

end IsRegular

/-- What each step of the commands makes of a regular session. -/
theorem kept_sparing [Refuses α] [Lawful α] : (sparing nodes).Kept where
  written holds := ⟨holds.1, nofun⟩
  fails _ holds := ⟨holds.1, fun _ => holds.2 rfl⟩
  told holds := ⟨{ holds.1 with }, holds.2⟩
  deselected holds := ⟨{ holds.1 with }, holds.2⟩
  selected holds _ := ⟨{ holds.1 with }, holds.2⟩
  zoomed holds := ⟨{ holds.1 with }, holds.2⟩
  undragged holds := ⟨holds.1.undragged, holds.2⟩
  taken holds := ⟨{ holds.1 with }, holds.2⟩
  setProject name v holds := ⟨{ holds.1 with project := holds.1.project.setField name v }, holds.2⟩
  grab e holds isNode := (holds.2 rfl ▸ holds.1.grab (holds.1.store.nodes _ isNode) e).runs
  detail holds isNode failed := by
    obtain ⟨detail, isDetail⟩ := geometryDetail_ok (holds.1.store.nodes _ isNode)
    rw [isDetail] at failed
    cases failed
  realZoom holds isReal failed := ((holds.1.setZoom isReal).failure failed).elim
  first holds := by
    refine holds.1.first.mono (fun _ t made => ⟨⟨made.1, nofun⟩, fun _ failed => ?_⟩) fun _ _ fails => fails.elim
    obtain ⟨script, generated⟩ := made.2
    rw [generated] at failed
    cases failed
  create kind _ holds := (holds.2 rfl ▸ holds.1.onStore_of_same (holds.1.store.createNode kind _ root)).runs
  copy {s _ _ m} i holds found copied := by
    have regular : IsRegular { s with idsTaken := s.idsTaken + m.extensions.length } := { holds.1 with }
    exact (holds.2 rfl ▸ regular.placeCopy found copied).runs
  delete id holds := (holds.1.store.deleteSubtree id).mono
    (fun _ _ isRegular => ⟨{ holds.1 with store := isRegular }, nofun⟩) fun _ _ fails => fails.elim
  swap id up holds := (holds.2 rfl ▸ holds.1.onStore ((holds.1.store.swapWithNeighbor id up).mono
    (fun _ _ isRegular => isRegular) fun _ _ fails => fails.elim)).runs
  reparent id parent holds := (holds.2 rfl ▸ holds.1.onStore (holds.1.store.reparent id parent)).runs
  reorder id other position holds := (holds.2 rfl ▸ holds.1.onStore (holds.1.store.reorderRelative id other position)).runs
  field id name v holds := (holds.2 rfl ▸ holds.1.onStore (holds.1.store.applyField id name v)).runs
  extend {s} id kind holds := by
    have regular : IsRegular { s with idsTaken := s.idsTaken + 1 } := { holds.1 with }
    exact (holds.2 rfl ▸ regular.editExtensions id _).runs
  remove stays holds _ := (holds.2 rfl ▸ holds.1.editExtensions _ _).runs
  setProp holds _ _ _ _ := (holds.2 rfl ▸ holds.1.editExtensions _ _).runs

namespace IsRegular

variable [Lawful α]

/-- A move of the pointer in a regular session spares the nodes. -/
theorem follows (regular : s.IsRegular) : (sparing s.store.nodes).Follows s := by
  intro e g n p d dragged found isLocal isDistance
  have real := Store.isRealPoint_sub (Contract.Holds.eventLocal_real regular.store.toIsMeasured isLocal) isDistance
  have found' : s.store.find? n.id = some n := Store.id_of_find? found ▸ found
  exact (regular.onStore (regular.store.dragBy found' (regular.drag g dragged) real.1 real.2 regular.least)).runs

/-- What is read of a document is taken into a regular session, sparing the nodes if that fails. -/
theorem takesIn (regular : s.IsRegular) (data : Value α) : (sparing nodes).TakesIn data s := by
  intro loaded isRead
  obtain ⟨_, -, -, -, isProject, -⟩ := Snapshot.read_ok isRead
  exact ⟨{ regular with
    store := regular.store.load regular.least isRead
    drag := fun g found => by cases found
    project := isProject ▸ regular.project.ofValue _ }, nofun⟩

/-- A load from a save file spares the nodes if it fails. -/
theorem loadFrom [Refuses α] (regular : s.IsRegular) (found : Except Fault (Option (Value α))) :
    Spares s.store.nodes (Session.loadFrom found) s :=
  .of_runs (kept_sparing.loadFrom ⟨regular, fun _ => rfl⟩ regular.takesIn found)

/-- A command that raises a failure leaves the nodes as they were, and any command leaves a regular
session. -/
theorem run [Refuses α] (regular : s.IsRegular) (command : Command α) :
    Spares s.store.nodes (Session.run command) s :=
  .of_runs (kept_sparing.run ⟨regular, fun _ => rfl⟩ (fun _ => regular.follows) fun data _ => regular.takesIn data)

end IsRegular

/-- Commands lead from a regular session to regular ones. -/
theorem IsRegular.runAll [Refuses α] [Lawful α] (regular : s.IsRegular) (commands : List (Command α)) :
    (Session.runAll commands s).IsRegular := by
  induction commands generalizing s with
  | nil => exact regular
  | cons command rest ih =>
      exact ih ((regular.run command).mono (fun _ _ regular => regular) fun _ _ fails => fails.1).state

/-- A new session is regular. -/
theorem isRegular_new {canvas : Value α × Value α} {leastSide offset : Value α} {zoom low high : α}
    {defaults : Project α} {idSupply : Nat → Text} {depth : Nat} (canvasW : canvas.1.IsMeasure)
    (canvasH : canvas.2.IsMeasure) (least : leastSide.IsMeasure) (typed : defaults.IsTyped) :
    (new canvas leastSide offset zoom (.arr [.num low, .num high]) defaults idSupply depth).IsRegular where
  store := ⟨⟨List.forall_mem_nil _, canvasW, canvasH⟩, List.nodup_nil⟩
  drag g found := by cases found
  least := least
  zoomRange := ⟨low, high, rfl⟩
  project := typed
  defaults := typed

/-- **A failing command leaves the nodes alone.** Take any session that commands lead to, some of which
may have failed. Where a further command, or a load from a save file, raises a failure, the session has
the nodes that it had before it, in their order. -/
theorem nodes_of_failed [Refuses α] [Lawful α] (canvas : Value α × Value α) (leastSide offset : Value α)
    (zoom low high : α) (defaults : Project α) (idSupply : Nat → Text) (depth : Nat) (canvasW : canvas.1.IsMeasure)
    (canvasH : canvas.2.IsMeasure) (leastMeasure : leastSide.IsMeasure)
    (typed : defaults.IsTyped) (commands : List (Command α)) :
    let s := runAll commands (new canvas leastSide offset zoom (.arr [.num low, .num high]) defaults idSupply depth)
    (∀ command fault t, run command s = .error fault t → fault.IsRaised → t.store.nodes = s.store.nodes) ∧
    (∀ found fault t, loadFrom found s = .error fault t → fault.IsRaised → t.store.nodes = s.store.nodes) := by
  intro s
  have regular : s.IsRegular :=
    (isRegular_new canvasW canvasH leastMeasure typed).runAll commands
  exact ⟨fun command _ _ failed => ((regular.run command).failure failed).2,
    fun found _ _ failed => ((regular.loadFrom found).failure failed).2⟩

/-- Where every supplied id is the same, a second node is refused. -/
theorem nodes_of_failed_taken :
    let s : Session ℚ := runAll [.createNode (.str "Frame")] (new (.int 980, .int 620) (.int leastSide) (.int 12) 1
      (.arr [.num (1 / 2), .num 2]) {} fun _ => ("n" : Text))
    ∃ fault t, run (.createNode (.str "TextLabel")) s = .error fault t ∧ t.store.nodes = s.store.nodes ∧
      t.store.ids = [("n" : Text)] := by
  intro s
  have measure : ∀ n : ℚ, (Value.num n).IsMeasure := fun n => Value.isMeasure_num.mpr (Arith.fits n)
  have refused : (match run (.createNode (.str "TextLabel")) s with
      | .error (.duplicateId _) _ => true
      | _ => false) = true := by decide +kernel
  cases ran : run (.createNode (.str "TextLabel")) s with
  | ok answer t => simp [ran] at refused
  | error fault t =>
      have raised : fault.IsRaised := by
        rintro rfl
        simp [ran] at refused
      have same := (nodes_of_failed (.int 980, .int 620) (.int leastSide) (.int 12) 1 (1 / 2) 2 {} _ _ (measure _)
        (measure _) (measure _) ⟨⟨_, rfl⟩, ⟨_, rfl⟩, ⟨_, rfl⟩, ⟨_, rfl⟩⟩ _).1 _ fault t ran raised
      refine ⟨fault, t, rfl, same, ?_⟩
      rw [Store.ids, same]
      decide +kernel

end Session

end LayoutDesigner
