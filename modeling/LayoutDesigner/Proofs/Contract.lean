import LayoutDesigner.Proofs.Commands
import LayoutDesigner.Proofs.Worklist

/-!
# Contracts of a session

Commands change the store only through its edits, and beside it the selection, the drag and what is
told. So a property of stores that the edits keep is kept by every command: `Contract` collects the
property and what goes with it, `Contract.Kept` lists what is asked of the edits, and `runs` says
that each command keeps the contract at any point of a drag.
-/

namespace LayoutDesigner

open Arith (IsReal Lawful)

variable {α : Type}

/-- What is promised of a session: a property of its store, of the measures that a drag began with,
of supplied ids and of the project. Where failing commands are admitted, edits that fail have to
leave the store as it was. -/
structure Contract (α : Type) where
  mayFail : Prop
  least : Value α
  offset : Value α
  zoomRange : Value α
  Good : Store α → Prop
  Start : Geometry α → Prop
  Fresh : Text → Prop
  Known : Project α → Prop

variable [Arith α]

namespace Contract

open Store

/-- An edit keeps the property and the ids of the nodes. -/
def Stays (c : Contract α) {β : Type} (edit : Edit (Store α) β) (s : Store α) : Prop :=
  edit.Ends s (fun _ t => c.Good t ∧ t.ids = s.ids) fun _ t => c.mayFail → t = s

omit [Arith α] in
/-- What is known of a run of an edit, and one thing more that is true of the store that it leaves. -/
theorem ends_and {β : Type} {edit : Edit (Store α) β} {s : Store α} {done more ids : Store α → Prop}
    {failed failed' : Fault → Store α → Prop} (known : edit.Ends s (fun _ t => done t ∧ ids t) failed)
    (also : edit.Ends s (fun _ t => more t) failed') :
    edit.Ends s (fun _ t => (done t ∧ more t) ∧ ids t) failed :=
  (known.and also).mono (fun _ _ both => ⟨⟨both.1.1, both.2⟩, both.1.2⟩) fun _ _ both => both.1

/-- What a contract asks of all edits of a store but the steps of a drag. -/
structure KeptAtRest (c : Contract α) : Prop where
  measured {s} : c.mayFail → c.Good s → s.IsMeasured
  geometry {s n} : c.Good s → n ∈ s.nodes → c.Start n.geometry
  first {s id} : c.Good s → c.Fresh id → (createNode (.str Kind.textLabel.name) id root).Ends s.clear
    (fun _ t => c.Good t ∧ t.ids = [id]) fun _ _ => ¬c.mayFail
  create {s id} (kind : Value α) : c.Good s → c.Fresh id → (createNode kind id root).Ends s
    (fun _ t => c.Good t ∧ t.ids = s.ids ++ [id]) fun _ t => t = s
  copy {s id n newId m ids depth} : c.Good s → s.find? id = some n → c.Fresh newId →
    s.copyOf n newId c.offset depth = .ok m → (∀ other ∈ ids, c.Fresh other) →
    (Store.place (m.relabelExtensions ids)).Ends s
      (fun _ t => c.Good t ∧ t.ids = s.ids ++ [newId]) fun _ t => t = s
  delete {s} (id : Text) : c.Good s → (deleteSubtree id).Ends s (fun _ t => c.Good t) fun _ _ => False
  swap {s} (id : Text) (up : Bool) : c.Good s → c.Stays (swapWithNeighbor id up) s
  reparent {s} (id parent : Text) : c.Good s → c.Stays (Store.reparent id parent) s
  reorder {s} (id other : Text) (position : DropPosition) : c.Good s →
    c.Stays (reorderRelative id other position) s
  field {s} (id name : Text) (v : Value α) : c.Good s → c.Stays (applyField id name v) s
  text {s} (id : Text) : c.Good s → c.Good (s.modifyNode id ({ · with text := Session.firstText }))
  extend {s extensionId} (id : Text) (kind : ExtensionKind) : c.Good s → c.Fresh extensionId →
    c.Good (s.modifyNode id fun n =>
      { n with extensions := n.extensions ++ [Extension.new kind extensionId] })
  remove {s n} (drops : Extension α → Bool) : c.Good s → n ∈ s.nodes →
    c.Good (s.modifyNode n.id ({ · with extensions := n.extensions.filter drops }))
  setProp {s n e place key type raw value} : c.Good s → n ∈ s.nodes → n.extensions[place]? = some e →
    e.kind.property? key = some type → type.coerce raw = .ok value →
    c.Good (s.modifyNode n.id fun m =>
      { m with extensions := Session.writeProp m.extensions place key value })
  load {s data fallback loaded depth} : c.Good s → c.Known fallback → Snapshot.Unreserved depth data →
    Snapshot.read data (s.canvasW, s.canvasH) fallback c.least depth = .ok loaded →
    c.Good (s.replaceAll loaded.store.nodes) ∧
      (s.replaceAll loaded.store.nodes).ids = loaded.store.ids ∧ c.Known loaded.project
  setProject {p} (name : Text) (v : Value α) : c.Known p → c.Known (p.setField name v).1

/-- What a contract asks of the edits of a store. -/
structure Kept (c : Contract α) : Prop extends c.KeptAtRest where
  drag {s g n dx dy} : c.Good s → s.find? n.id = some n → c.Start g.start →
    (∀ entry ∈ g.descendantStarts, c.Start entry.2) →
    (c.mayFail → IsRealPoint g.startPointer ∧ IsReal dx ∧ IsReal dy) →
    c.Stays (Stage.dragBy g n dx dy c.least) s

/-- Every step of the drag that is going on keeps the contract. -/
def Follows (c : Contract α) (s : Session α) : Prop :=
  ∀ {g n dx dy}, s.stage.drag = some g → s.store.find? g.nodeId = some n →
    (c.mayFail → IsRealPoint g.startPointer ∧ IsReal dx ∧ IsReal dy) →
    c.Stays (Stage.dragBy g n dx dy c.least) s.store

/-- A session of which the promise is true. -/
structure Holds (c : Contract α) (s : Session α) : Prop where
  good : c.Good s.store
  selected : ∀ id, s.selectedId = some id → id ∈ s.store.ids
  drag : ∀ g, s.stage.drag = some g → c.Start g.start ∧
    (∀ entry ∈ g.descendantStarts, c.Start entry.2) ∧ (c.mayFail → IsRealPoint g.startPointer)
  supply : ∀ taken, c.Fresh (s.idSupply taken)
  least : s.stage.leastSide = c.least
  offset : s.duplicateOffset = c.offset
  zoomRange : s.stage.zoomRange = c.zoomRange
  project : c.Known s.project
  defaults : c.Known s.projectDefaults

/-- The promise is true after a run that returns, and where failing is admitted, after any run. -/
def Runs (c : Contract α) {β : Type} (edit : Edit (Session α) β) (s : Session α) : Prop :=
  edit.Ends s (fun _ t => c.Holds t) fun _ t => c.mayFail → c.Holds t

/-- A contract holds at every point of a command. -/
def regime (c : Contract α) : Regime α where
  Holds _ := c.Holds
  Fails _ t := c.mayFail → c.Holds t

variable {c : Contract α} {s t : Session α} {β : Type}

namespace Holds

open Session (ends_onStage ends_onStore)

/-- A session that stops dragging keeps its promises. -/
theorem undragged (holds : c.Holds s) : c.Holds { s with stage := { s.stage with drag := none } } :=
  { holds with drag := fun g found => by cases found }

/-- An edit of the store that keeps property and ids keeps the promise. -/
theorem onStore (holds : c.Holds s) {edit : Edit (Store α) β} (stays : c.Stays edit s.store) :
    c.Runs (Session.onStore edit) s := by
  rw [Runs, ends_onStore]
  refine Edit.Ends.mono stays (fun _ t after => ?_) fun _ t unchanged mayFail => ?_
  · exact { holds with good := after.1, selected := fun id found => after.2 ▸ holds.selected id found }
  · rw [unchanged mayFail]
    exact { holds with }

/-- A change of a node that keeps its id and leaves the store good keeps the promises. -/
theorem modifyNode (holds : c.Holds s) {id : Text} {f : Node α → Node α}
    (good : c.Good (s.store.modifyNode id f)) (keepsId : ∀ n, (f n).id = n.id) :
    c.Runs (Session.onStore (modify (·.modifyNode id f))) s :=
  holds.onStore ⟨good, ids_modifyNode keepsId⟩

/-- An edit of the store that adds a node, or is refused, keeps the promise. -/
theorem adding (holds : c.Holds s) {edit : Edit (Store α) β} {id : Text}
    (adds : edit.Ends s.store (fun _ t => c.Good t ∧ t.ids = s.store.ids ++ [id]) fun _ t => t = s.store) :
    c.Runs (Session.onStore edit) s := by
  rw [Runs, ends_onStore]
  refine adds.mono (fun _ t after => ?_) fun _ t unchanged _ => ?_
  · exact { holds with
      good := after.1
      selected := fun other found => after.2 ▸ List.mem_append_left _ (holds.selected other found) }
  · rw [unchanged]
    exact { holds with }

/-- In a measured store the pointer has a real place inside each parent. -/
theorem eventLocal_real [Lawful α] {stage : Stage α} {e : PointerEvent α} {parent : Text}
    {p : Point α} (measured : stage.store.IsMeasured) (isLocal : stage.eventLocal e parent = .ok p) :
    IsRealPoint p := by
  obtain ⟨world, isWorld, isLocal⟩ := bind_eq_ok.mp isLocal
  obtain ⟨start, isStart, isLocal⟩ := bind_eq_ok.mp isLocal
  obtain ⟨x, isX, isLocal⟩ := bind_eq_ok.mp isLocal
  obtain ⟨y, isY, isLocal⟩ := bind_eq_ok.mp isLocal
  obtain rfl := Except.ok.inj isLocal
  obtain ⟨origin, isOrigin, real⟩ := spaceOrigin_ok measured parent
  obtain rfl := Except.ok.inj (isOrigin.symm.trans isStart)
  exact ⟨Lawful.isReal_sub isX (.inr real.1), Lawful.isReal_sub isY (.inr real.2)⟩

/-- Grabbing a node keeps the promises, where its box is one to start from. -/
theorem grab [Lawful α] (kept : c.KeptAtRest) (holds : c.Holds s) {n : Node α} (start : c.Start n.geometry)
    (e : PointerEvent α) : c.Runs (Session.onStage (Stage.grab n e)) s := by
  rw [Runs, ends_onStage]
  refine Stage.ends_grab.mpr ⟨fun p isLocal => { holds with drag := fun g found => ?_ },
    fun _ _ _ => { holds with drag := fun g found => ?_ }⟩
  all_goals obtain rfl := Option.some.inj found
  · refine ⟨start, fun entry listed => ?_, fun mayFail => eventLocal_real (kept.measured mayFail holds.good) isLocal⟩
    obtain ⟨d, isNode, same⟩ := Gesture.exists_node_of_begun listed
    exact same ▸ kept.geometry holds.good isNode
  · exact ⟨start, List.forall_mem_nil _, fun _ => isRealPoint_origin⟩

end Holds

/-- Edits that keep a contract make every step of the commands keep it. -/
theorem KeptAtRest.regime [Lawful α] (kept : c.KeptAtRest) : c.regime.Kept where
  written holds := holds
  fails _ holds _ := holds
  told holds := { holds with }
  deselected holds := { holds with selected := fun id found => by cases found }
  selected holds isNode := { holds with selected := fun id same => Option.some.inj same ▸ id_mem_ids isNode }
  zoomed holds := { holds with }
  undragged := Holds.undragged
  taken holds := { holds with }
  setProject name value holds := { holds with project := kept.setProject name value holds.project }
  grab e holds isNode := holds.grab kept (kept.geometry holds.good isNode) e
  detail holds _ _ _ := holds
  realZoom holds _ _ _ := holds
  first {s} holds := by
    refine (kept.first holds.good (holds.supply s.idsTaken)).mono
      (fun _ t after => ⟨?_, fun _ _ _ holds _ => holds⟩) fun _ _ fails mayFail => absurd mayFail fails
    have sameIds : (t.modifyNode (s.idSupply s.idsTaken) ({ · with text := Session.firstText })).ids = t.ids :=
      ids_modifyNode fun _ => rfl
    have isNode : s.idSupply s.idsTaken ∈ t.ids := after.2 ▸ List.mem_singleton_self _
    exact { holds with
      good := kept.text _ after.1
      drag := fun g found => by cases found
      project := holds.defaults
      selected := fun id found => Option.some.inj found ▸ sameIds ▸ isNode }
  create kind i holds := holds.adding (kept.create kind holds.good (holds.supply i))
  copy {s _ _ m} i holds found copied := by
    have allFresh : ∀ id ∈ (List.range m.extensions.length).map fun j => s.idSupply (s.idsTaken + j), c.Fresh id := by
      intro id listed
      obtain ⟨j, -, rfl⟩ := List.mem_map.mp listed
      exact holds.supply _
    have taken : c.Holds { s with idsTaken := s.idsTaken + m.extensions.length } := { holds with }
    exact taken.adding (kept.copy holds.good found (holds.supply i) (holds.offset ▸ copied) allFresh)
  delete id holds := (kept.delete id holds.good).mono
    (fun _ _ good => { holds with good, selected := fun id found => by cases found }) fun _ _ fails => fails.elim
  swap id up holds := holds.onStore (kept.swap id up holds.good)
  reparent id parent holds := holds.onStore (kept.reparent id parent holds.good)
  reorder id other position holds := holds.onStore (kept.reorder id other position holds.good)
  field id name v holds := holds.onStore (kept.field id name v holds.good)
  extend {s} id kind holds :=
    have taken : c.Holds { s with idsTaken := s.idsTaken + 1 } := { holds with }
    taken.modifyNode (kept.extend id kind holds.good (holds.supply _)) fun _ => rfl
  remove stays holds isNode := holds.modifyNode (kept.remove stays holds.good isNode) fun _ => rfl
  setProp holds isNode present known coerced :=
    holds.modifyNode (kept.setProp holds.good isNode present known coerced) fun _ => rfl

/-- A loaded document keeps a contract. -/
theorem KeptAtRest.takesIn (kept : c.KeptAtRest) (holds : c.Holds s) (data : Value α) : c.regime.TakesIn data s := by
  intro loaded isRead
  rw [holds.least] at isRead
  obtain ⟨good, sameIds, known⟩ := kept.load holds.good holds.project (Snapshot.unreserved_of_read isRead) isRead
  obtain ⟨_, _, _, selected, _⟩ := Snapshot.read_ok isRead
  exact { holds with
    good
    drag := fun g found => by cases found
    selected := fun id found => sameIds ▸ selected id found
    project := known }

/-- A drag that keeps a contract where measures are real keeps it throughout. -/
theorem Holds.regime_follows [Lawful α] (kept : c.KeptAtRest) (holds : c.Holds s) (follows : c.Follows s) :
    c.regime.Follows s := by
  intro e g n p d dragged found isLocal isDistance
  obtain ⟨-, -, pointer⟩ := holds.drag g dragged
  have real : c.mayFail → IsRealPoint g.startPointer ∧ IsRealPoint d := fun mayFail =>
    ⟨pointer mayFail, isRealPoint_sub (eventLocal_real (kept.measured mayFail holds.good) isLocal) isDistance⟩
  exact holds.onStore (holds.least ▸ follows dragged found real)

end Contract

/-- A command that loads nothing which has a record of the root's id. -/
def Command.SparesRoot : Command α → Prop
  | .loadSnapshot data => Snapshot.SparesRoot data
  | _ => True

namespace Contract

open Store (id_of_find?)

variable {c : Contract α} {s t : Session α}

/-- Every command keeps a contract that the edits of the store keep, the steps of a drag as far as
they do. -/
theorem Holds.run_of_follows [Lawful α] (kept : c.KeptAtRest) (holds : c.Holds s) {command : Command α}
    (follows : command.IsMove → c.Follows s) :
    c.Runs (Session.run command) s :=
  kept.regime.run holds (fun isMove => holds.regime_follows kept (follows isMove)) fun data _ => kept.takesIn holds data

/-- A session that keeps its promises keeps them when a drag goes on. -/
theorem Holds.follows (kept : c.Kept) (holds : c.Holds s) : c.Follows s := by
  intro g n dx dy dragged found real
  obtain ⟨start, starts, -⟩ := holds.drag g dragged
  exact kept.drag holds.good (id_of_find? found ▸ found) start starts real

/-- Every command keeps a contract that all edits of the store keep. -/
theorem Holds.run [Lawful α] (kept : c.Kept) (holds : c.Holds s) {command : Command α} :
    c.Runs (Session.run command) s :=
  holds.run_of_follows kept.toKeptAtRest fun _ => holds.follows kept

end Contract

namespace Session

/-- Run commands one after the other, also after one that failed. -/
def runAll (commands : List (Command α)) (s : Session α) : Session α :=
  commands.foldl (fun s command => Edit.state (run command s)) s

/-- The sessions that commands lead to, none of them loading a record of the root's id. A command
that returns may always have been run, one that failed only where that is admitted. -/
inductive Reaches (mayFail : Prop) (start : Session α) : Session α → Prop where
  | start : Reaches mayFail start start
  | returned {s t : Session α} {command : Command α} {answer : Value α} (before : Reaches mayFail start s)
      (spares : command.SparesRoot) (ran : run command s = .ok answer t) : Reaches mayFail start t
  | failed {s t : Session α} {command : Command α} {fault : Fault} (admitted : mayFail)
      (before : Reaches mayFail start s) (spares : command.SparesRoot)
      (ran : run command s = .error fault t) : Reaches mayFail start t

/-- Commands leave a session of the depth that it has at first. -/
theorem depth_runAll (commands : List (Command α)) (s : Session α) : (runAll commands s).depth = s.depth := by
  induction commands generalizing s with
  | nil => rfl
  | cons command rest ih => exact (ih _).trans (Regime.depth_run command s).state

/-- Where failing is admitted, the next command may be any. -/
theorem Reaches.after {start s : Session α} (reached : Reaches True start s) {command : Command α}
    (spares : command.SparesRoot) : Reaches True start (Edit.state (run command s)) := by
  cases ran : run command s with
  | ok answer t => exact reached.returned spares ran
  | error fault t => exact reached.failed trivial spares ran

/-- What is promised of the first session is true of all that commands lead to. -/
theorem Reaches.holds [Lawful α] {c : Contract α} {first s : Session α}
    (reached : Reaches c.mayFail first s) (kept : c.Kept) (holds : c.Holds first) : c.Holds s := by
  induction reached with
  | start => exact holds
  | returned _ _ ran before => exact (before.run kept).returned ran
  | failed admitted _ _ ran before => exact (before.run kept).failure ran admitted

end Session

namespace Contract

variable [Lawful α] {c : Contract α} {s : Session α}

/-- Where failing is admitted, every command leaves a session that keeps the contract. -/
theorem Holds.state (kept : c.Kept) (admitted : c.mayFail) (holds : c.Holds s) (command : Command α) :
    c.Holds (Edit.state (Session.run command s)) :=
  ((holds.run kept).mono (fun _ _ holds => holds) fun _ _ holds => holds admitted).state

/-- Whatever commands are run, a session keeps its promises. -/
theorem Holds.runAll (kept : c.Kept) (admitted : c.mayFail) (holds : c.Holds s) (commands : List (Command α)) :
    c.Holds (Session.runAll commands s) := by
  induction commands generalizing s with
  | nil => exact holds
  | cons command rest ih => exact ih (holds.state kept admitted command)

end Contract

end LayoutDesigner
