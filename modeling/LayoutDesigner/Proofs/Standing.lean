import LayoutDesigner.Proofs.Origin

/-!
# The nodes of a session

Every command leaves a session whose nodes all have come about in one of the ways of `Node.Arises`,
and stand on a layer, under ids of their own. It does so whether it returns or fails, and at whatever
step it fails: what a failing command has done until then is done with the same edits.
-/

namespace LayoutDesigner

open Edit

variable {α : Type} [Arith α]

/-- A command that loads nothing but documents of admitted records. -/
def Command.Admits (Admitted : List (Text × Value α) → Prop) : Command α → Prop
  | .loadSnapshot data => Snapshot.Admits Admitted data
  | _ => True

namespace Session

variable {supply : Nat → Text} {Admitted : Nat → List (Text × Value α) → Prop} {s t : Session α}
  {β : Type}

/-- All nodes of the session stand, for the supply of the session and the ids that it has taken. -/
structure Stands (supply : Nat → Text) (Admitted : Nat → List (Text × Value α) → Prop)
    (s : Session α) : Prop where
  store : s.store.Stands supply Admitted s.idsTaken
  drag : ∀ g, s.stage.drag = some g → g.IsPlain
  supply : s.idSupply = supply

omit [Arith α] in
/-- Telling that something changed leaves what does not depend on what was told. -/
theorem leaves_notifying {edit : Edit (Session α) β} {condition : Session α → Prop}
    (leaves : edit.Leaves s condition)
    (told : ∀ t, condition t → condition { t with signals := t.signals ++ [.changed] }) :
    (Session.notifying edit).Leaves s condition :=
  leaves.bind fun answer t holds => Leaves.bind (leaves_modify (told t holds)) fun _ _ holds => leaves_pure holds answer

namespace Stands

/-- A session that stops dragging stands. -/
theorem undragged (stands : s.Stands supply Admitted) :
    Stands supply Admitted { s with stage := { s.stage with drag := none } } :=
  { stands with drag := fun g found => by cases found }

/-- Ids of the supply may be taken at any time. -/
theorem taking (stands : s.Stands supply Admitted) (count : Nat) :
    Stands supply Admitted { s with idsTaken := s.idsTaken + count } := by
  induction count with
  | zero => exact { stands with }
  | succ count ih => exact { ih with store := ih.store.later }

/-- An edit of the store that leaves its nodes standing. -/
theorem onStore {edit : Edit (Store α) β} (stands : s.Stands supply Admitted)
    (leaves : edit.Leaves s.store (Store.Stands supply Admitted s.idsTaken)) :
    (Session.onStore edit).Leaves s (Stands supply Admitted) :=
  ends_onStore.mpr (Leaves.mono leaves fun _ store => { stands with store })

/-- A drag begins with measures of standing nodes, which are typed. -/
theorem grab (stands : s.Stands supply Admitted) {n : Node α} (isNode : n ∈ s.store.nodes) (e : PointerEvent α) :
    (Session.onStage (Stage.grab n e)).Leaves s (Stands supply Admitted) := by
  have typed : ∀ m ∈ s.store.nodes, m.geometry.unchecked = [] := fun m isNode => by
    simp [Node.geometry, stands.store.isPlain m isNode]
  have begun : ∀ {g : Gesture α}, g.IsPlain →
      Stands supply Admitted { s with stage := { s.stage with drag := some g } } := fun isPlain =>
    { stands with drag := fun _ dragged => Option.some.inj dragged ▸ isPlain }
  refine ends_onStage.mpr (Stage.ends_grab.mpr ⟨fun p _ => begun ⟨typed n isNode, fun entry listed => ?_⟩,
    fun _ _ => begun ⟨typed n isNode, List.forall_mem_nil _⟩⟩)
  obtain ⟨d, isNode, same⟩ := Gesture.exists_node_of_begun listed
  exact same ▸ typed d isNode

/-- All nodes stand at every point of a command. -/
def regime (supply : Nat → Text) (Admitted : Nat → List (Text × Value α) → Prop) : Regime α where
  Holds _ := Stands supply Admitted
  Fails _ := Stands supply Admitted

/-- What each step of the commands makes of standing nodes. -/
theorem kept : (regime supply Admitted).Kept where
  written stands := stands
  fails _ stands := stands
  told stands := { stands with }
  deselected stands := { stands with }
  selected stands _ := { stands with }
  zoomed stands := { stands with }
  undragged := undragged
  taken stands := stands.taking 1
  setProject _ _ stands := { stands with }
  grab e stands isNode := stands.grab isNode e
  detail stands _ _ := stands
  realZoom stands _ _ := stands
  first {s} stands := by
    -- A new project begins with an empty store, so also a failure there leaves nothing but what stands.
    have begun : ∀ {store : Store α}, store.Stands supply Admitted (s.idsTaken + 1) →
        Stands supply Admitted (s.begun store) := fun store =>
      { stands with store, drag := fun g found => by cases found }
    have cleared : s.store.clear.Stands supply Admitted (s.idsTaken + 1) :=
      ⟨fun _ member => (List.not_mem_nil member).elim, List.nodup_nil⟩
    refine Edit.Ends.mono (cleared.leaves_createNode _) (fun _ t stands => ⟨?_, fun _ _ _ stands => stands⟩)
      fun _ t stands => begun stands
    have written := stands.modifyNode (s.idSupply s.idsTaken) (f := ({ · with text := firstText })) (fun _ => rfl)
      fun _ stands => ⟨stands.arises.setText _, stands.layer⟩
    exact { begun written with }
  create kind _ stands := stands.onStore (stands.store.leaves_createNode kind)
  copy {s _ n m} _ stands found copied := by
    have isCopy := stands.store.stands_copyOf (Store.mem_of_find? found) copied
    have stands' := stands.taking m.extensions.length
    exact stands'.onStore (stands'.store.leaves_place ⟨stands.supply ▸ isCopy.arises.relabelled, isCopy.layer⟩)
  delete {s} id stands :=
    Edit.Ends.mono (stands.store.leaves_deleteSubtree id) (fun _ _ store => { stands with store })
      fun _ _ store => { stands with store }
  swap id up stands := stands.onStore (stands.store.leaves_swapWithNeighbor id up)
  reparent id parent stands := stands.onStore (stands.store.leaves_reparent id parent)
  reorder id other position stands := stands.onStore (stands.store.leaves_reorderRelative id other position)
  field id name v stands := stands.onStore (stands.store.leaves_applyField id name v)
  extend id kind stands :=
    (stands.taking 1).onStore (leaves_modify (stands.supply ▸ stands.store.extended id kind))
  remove {s n} stays stands isNode := by
    refine stands.onStore (leaves_modify (stands.store.modifyAt n.id (fun _ => rfl) fun m isOther same => ?_))
    obtain rfl := Store.eq_of_id_eq stands.store.distinct isOther isNode same
    have isStanding := stands.store.nodes m isNode
    exact ⟨isStanding.arises.filtered _, isStanding.layer⟩
  setProp {_ n _ place key _ _ value} stands _ _ _ _ :=
    stands.onStore (leaves_modify (stands.store.modifyNode n.id (fun _ => rfl) fun _ stands =>
      ⟨stands.arises.writeProp place key value, stands.layer⟩))

/-- The nodes that are loaded stand. -/
theorem takesIn (stands : s.Stands supply Admitted) {data : Value α}
    (admits : Snapshot.Admits (Admitted s.idsTaken) data) : (regime supply Admitted).TakesIn data s := by
  intro loaded isRead
  have store : loaded.store.Stands supply Admitted s.idsTaken := Snapshot.stands_read admits isRead
  have replaced : (s.store.replaceAll loaded.store.nodes).Stands supply Admitted s.idsTaken := by
    rw [Store.replaceAll_eq store.distinct]
    exact ⟨store.nodes, store.distinct⟩
  exact { stands.undragged with store := replaced }

/-- A session that stands does so when a drag goes on. -/
theorem follows (stands : s.Stands supply Admitted) : (regime supply Admitted).Follows s :=
  fun dragged _ _ _ => stands.onStore (stands.store.leaves_dragBy (stands.drag _ dragged) _)

/-- Every command leaves the nodes standing, where what it loads is admitted. -/
theorem run (stands : s.Stands supply Admitted) {command : Command α}
    (admits : command.Admits (Admitted s.idsTaken)) :
    (Session.run command).Leaves s (Stands supply Admitted) :=
  kept.run stands (fun _ => stands.follows) fun _ isLoad => stands.takesIn (by rwa [isLoad] at admits)

end Stands

/-- Along the run, nothing but documents of admitted records is loaded. What is admitted may depend on
the number of ids that are taken when a document is loaded. -/
def Admits (Admitted : Nat → List (Text × Value α) → Prop) : List (Command α) → Session α → Prop
  | [], _ => True
  | command :: rest, s =>
      command.Admits (Admitted s.idsTaken) ∧ Admits Admitted rest (Edit.state (run command s))

/-- Where every record is admitted, all commands are. -/
theorem admits_of_forall (all : ∀ taken d, Admitted taken d) (commands : List (Command α)) (s : Session α) :
    Admits Admitted commands s := by
  induction commands generalizing s with
  | nil => trivial
  | cons command rest ih =>
      refine ⟨?_, ih _⟩
      cases command with
      | loadSnapshot data => exact fun d _ => all _ d
      | _ => trivial

/-- Commands that are admitted lead from a session that stands to others. -/
theorem Stands.runAll {commands : List (Command α)} (stands : s.Stands supply Admitted)
    (admits : Admits Admitted commands s) : (runAll commands s).Stands supply Admitted := by
  induction commands generalizing s with
  | nil => exact stands
  | cons command rest ih => exact ih (stands.run admits.1).state admits.2

/-- In a new session there is no node. -/
theorem stands_new {canvas : Value α × Value α} {leastSide duplicateOffset zoomRange : Value α} {zoom : α}
    {defaults : Project α} {depth : Nat} :
    (new canvas leastSide duplicateOffset zoom zoomRange defaults supply depth).Stands supply Admitted where
  store := ⟨List.forall_mem_nil _, List.nodup_nil⟩
  drag := fun _ dragged => by cases dragged
  supply := rfl

/-- A new session of the usual size, whose ids are numbered. -/
def opened : Session Number :=
  new (.int 980, .int 620) (.int leastSide) (.int 12) Arith.one (.arr [.num Arith.half, .int 4]) {}
    fun taken => ("n" : Text) ++ Text.ofNat taken

end Session

end LayoutDesigner
