import LayoutDesigner.Proofs.Dragging
import LayoutDesigner.Proofs.Standing
import LayoutDesigner.Proofs.Step

/-!
# The latest position of the pointer

While a drag goes on, every event of its pointer leads to the store that it would have led to as the
first one: a step starts from what was captured, and where the pointer is in the space of the parent goes
by nothing that the drag changes. So of a run of events the last one decides.
-/

namespace LayoutDesigner

variable {α : Type}

namespace Stage

open Store

section

variable [Arith α] {stage : Stage α} {g : Gesture α} {n : Node α} {e : PointerEvent α} {p d : Point α}

/-- An event of the pointer that drags moves the node as far as the pointer went. -/
theorem state_pointerMove (dragged : stage.drag = some g) (found : stage.store.find? g.nodeId = some n)
    (followed : isFollowed g e) (isLocal : stage.eventLocal e g.parent = .ok p)
    (isDistance : Point.sub p g.startPointer = .ok d) : Edit.state (pointerMove e stage) =
      { stage with store := Edit.state (dragBy g n d.1 d.2 stage.leastSide stage.store) } := by
  have leaves : (pointerMove e).Leaves stage
      (· = { stage with store := Edit.state (dragBy g n d.1 d.2 stage.leastSide stage.store) }) := by
    unfold pointerMove
    refine Edit.leaves_get ?_
    split
    · next idle => rw [dragged] at idle; cases idle
    · next drag isDrag =>
        obtain rfl : g = drag := Option.some.inj (dragged.symm.trans isDrag)
        simp only [followed, found, Bool.not_true, Bool.false_eq_true, if_false, Edit.Leaves, Edit.ends_bind]
        refine Edit.ends_lift_ok isLocal (Edit.ends_lift_ok isDistance ((Edit.ends_focus ..).mpr ?_))
        refine Edit.Ends.mono (Edit.leaves_state (dragBy g n d.1 d.2 stage.leastSide) stage.store) ?_ ?_ <;>
          · rintro _ _ rfl
            rfl
  exact leaves.state

/-- An event of another pointer, or of one that is nowhere, changes nothing. -/
theorem state_pointerMove_of_stays (dragged : stage.drag = some g) (found : stage.store.find? g.nodeId = some n)
    (stays : isFollowed g e → ∀ p, stage.eventLocal e g.parent ≠ .ok p) : Edit.state (pointerMove e stage) = stage := by
  have leaves : (pointerMove e).Leaves stage (· = stage) := by
    unfold pointerMove
    refine Edit.leaves_get ?_
    simp only [dragged]
    split
    · exact Edit.leaves_pure rfl false
    · next followed =>
        simp only [found]
        refine Edit.leaves_lift rfl fun p isLocal => absurd isLocal (stays (by simpa using followed) p)
  exact leaves.state

end

/-- A drag of a node has begun, and nothing was done since. The sides of the node fit the box of its parent. -/
structure IsBegun (stage : Stage ℚ) (g : Gesture ℚ) (n : Node ℚ) (least : ℚ) : Prop where
  dragged : stage.drag = some g
  grips : g.Grips stage.store n
  width : roundedInto least (stage.store.room n.parent).1 n.w = n.w
  height : roundedInto least (stage.store.room n.parent).2 n.h = n.h
  least : stage.leastSide = .num least
  zoom : stage.zoom ≠ 0

/-- What a drag made of a store: other measures where it may, and nothing where its handle cannot be read. -/
structure IsFollowing (g : Gesture ℚ) (n : Node ℚ) (s t : Store ℚ) : Prop where
  drags : DragsOnly s n.id g.resizing t
  unread : g.resizing = true → ∀ fault, Edges.ofHandle g.handle = .error fault → t = s

variable {begun : Stage ℚ} {t : Store ℚ} {g : Gesture ℚ} {n m : Node ℚ} {least : ℚ} {e : PointerEvent ℚ} {p : Point ℚ}

/-- A store follows itself where nothing was moved. -/
theorem IsFollowing.refl (g : Gesture ℚ) (n : Node ℚ) (s : Store ℚ) : IsFollowing g n s s := ⟨.refl .., fun _ _ _ => rfl⟩

/-- Where an event is anywhere, the zoom is not zero. -/
theorem zoom_ne_zero {parent : Text} (isLocal : begun.eventLocal e parent = .ok p) : begun.zoom ≠ 0 := by
  obtain ⟨_, isWorld, -⟩ := bind_eq_ok.mp isLocal
  obtain ⟨x, -, isWorld⟩ := bind_eq_ok.mp isWorld
  obtain ⟨_, scaled, -⟩ := bind_eq_ok.mp isWorld
  intro none
  rw [show Arith.div x begun.zoom = .error .divisionByZero from if_pos none] at scaled
  cases scaled

namespace IsBegun

section

variable (begins : begun.IsBegun g n least)

include begins

/-- A step leads to where it leads from the beginning. -/
theorem state_dragBy (follows : IsFollowing g n begun.store t) (found : t.find? n.id = some m) (dx dy : ℚ) :
    Edit.state (dragBy g m dx dy (.num least) t) = Edit.state (dragBy g n dx dy (.num least) begun.store) := by
  have grips := begins.grips
  cases resizing : g.resizing with
  | false =>
      rw [grips.dragBy_moves follows.drags found resizing, grips.dragBy_moves (.refl ..) grips.found resizing]
  | true =>
      cases readable : Edges.ofHandle g.handle with
      | ok edges =>
          rw [grips.dragBy_resizes follows.drags found resizing readable,
            grips.dragBy_resizes (.refl ..) grips.found resizing readable]
      | error fault =>
          have same := follows.unread resizing fault readable
          rw [same, grips.found, Option.some_inj] at found
          rw [same, found]

/-- The store follows the gesture by whatever distance it is dragged. -/
theorem isFollowing_dragBy (dx dy : ℚ) :
    IsFollowing g n begun.store (Edit.state (dragBy g n dx dy (.num least) begun.store)) := by
  have grips := begins.grips
  have unread : g.resizing = true → ∀ fault, Edges.ofHandle g.handle = .error fault →
      Edit.state (dragBy g n dx dy (.num least) begun.store) = begun.store := by
    intro resizing fault unreadable
    rw [dragBy_of_unreadable grips.numeric grips.found resizing grips.typed unreadable]
    rfl
  refine ⟨?_, unread⟩
  cases resizing : g.resizing with
  | false => exact resizing ▸ grips.dragsOnly_move begins.width begins.height resizing dx dy
  | true =>
      cases readable : Edges.ofHandle g.handle with
      | ok edges => exact resizing ▸ grips.dragsOnly_resize resizing readable dx dy
      | error fault =>
          rw [unread resizing fault readable]
          exact .refl ..

/-- Nothing that a drag changes is above the dragged node, so the space of its parent starts where it did. -/
theorem eventLocal_eq (follows : IsFollowing g n begun.store t) (e : PointerEvent ℚ) :
    ({ begun with store := t } : Stage ℚ).eventLocal e g.parent = begun.eventLocal e g.parent := by
  have origin : t.spaceOrigin g.parent = begun.store.spaceOrigin g.parent := by
    rw [begins.grips.parent]
    refine follows.drags.reshapedIn.steady.agreeOn.spaceOrigin_eq (fun child above apart link within => ?_)
      begins.grips.numeric.plain fun _ => begins.grips.not_isWithin_parent
    exact apart (.of_parent? link within)
  simp only [eventLocal, Store.toParentSpace, eventWorld, origin]

/-- An event with a position is somewhere in the space of the parent. -/
theorem eventLocal_ok {x y : ℚ} (isX : e.x.asOperand = .ok x) (isY : e.y.asOperand = .ok y) :
    ∃ p, begun.eventLocal e g.parent = .ok p := by
  obtain ⟨start, isStart, -⟩ := spaceOrigin_ok begins.grips.numeric.isMeasured g.parent
  have scaled : ∀ v : ℚ, Arith.div v begun.zoom = .ok (v / begun.zoom) := fun v => if_neg begins.zoom
  have world : begun.eventWorld e = .ok (x / begun.zoom, y / begun.zoom) :=
    bind_eq_ok.mpr ⟨x, isX, bind_eq_ok.mpr ⟨_, scaled x, bind_eq_ok.mpr ⟨y, isY, bind_eq_ok.mpr ⟨_, scaled y, rfl⟩⟩⟩⟩
  exact ⟨_, bind_eq_ok.mpr ⟨_, world, bind_eq_ok.mpr ⟨start, isStart, rfl⟩⟩⟩

/-- The dragged node is still there. -/
theorem exists_dragged (follows : IsFollowing g n begun.store t) : ∃ m, t.find? g.nodeId = some m :=
  exists_find? (follows.drags.reshapedIn.reshaped.ids ▸ begins.grips.nodeId ▸ id_mem_ids begins.grips.isNode)

/-- An event of the pointer leads to where it leads from the beginning. -/
theorem state_pointerMove (follows : IsFollowing g n begun.store t) (followed : isFollowed g e)
    (isLocal : begun.eventLocal e g.parent = .ok p) : Edit.state (pointerMove e { begun with store := t }) =
      { begun with
        store := Edit.state (dragBy g n (p.1 - g.startPointer.1) (p.2 - g.startPointer.2) (.num least) begun.store) } := by
  obtain ⟨m, found⟩ := begins.exists_dragged follows
  have dragged : ({ begun with store := t } : Stage ℚ).drag = some g := begins.dragged
  rw [Stage.state_pointerMove dragged found followed ((begins.eventLocal_eq follows e).trans isLocal) rfl]
  refine congrArg (fun store => { begun with store }) ?_
  exact (congrArg (fun least => Edit.state (dragBy g m _ _ least t)) begins.least).trans
    (begins.state_dragBy follows (begins.grips.nodeId ▸ found) _ _)

/-- Whatever an event is, the drag goes on. -/
theorem follows_pointerMove (follows : IsFollowing g n begun.store t) (e : PointerEvent ℚ) :
    ∃ u, Edit.state (pointerMove e { begun with store := t }) = { begun with store := u } ∧
      IsFollowing g n begun.store u := by
  by_cases moves : isFollowed g e ∧ ∃ p, begun.eventLocal e g.parent = .ok p
  · obtain ⟨followed, p, isLocal⟩ := moves
    exact ⟨_, begins.state_pointerMove follows followed isLocal, begins.isFollowing_dragBy ..⟩
  · obtain ⟨m, found⟩ := begins.exists_dragged follows
    have dragged : ({ begun with store := t } : Stage ℚ).drag = some g := begins.dragged
    refine ⟨t, state_pointerMove_of_stays dragged found fun followed p isLocal => ?_, follows⟩
    exact moves ⟨followed, p, (begins.eventLocal_eq follows e).symm.trans isLocal⟩

/-- So it does over a run of events. -/
theorem follows_pointerMoves (follows : IsFollowing g n begun.store t) (events : List (PointerEvent ℚ)) :
    ∃ u, events.foldl (fun stage e => Edit.state (pointerMove e stage)) { begun with store := t } =
      { begun with store := u } ∧ IsFollowing g n begun.store u := by
  induction events generalizing t with
  | nil => exact ⟨t, rfl, follows⟩
  | cons e rest ih =>
      obtain ⟨u, step, follows'⟩ := begins.follows_pointerMove follows e
      rw [List.foldl_cons, step]
      exact ih follows'

/-- After a run of events the last one of the pointer leads to where it leads from the beginning. -/
theorem foldl_pointerMove (earlier : List (PointerEvent ℚ)) (followed : isFollowed g e) {x y : ℚ}
    (isX : e.x.asOperand = .ok x) (isY : e.y.asOperand = .ok y) :
    (earlier ++ [e]).foldl (fun stage e => Edit.state (pointerMove e stage)) begun = Edit.state (pointerMove e begun) := by
  obtain ⟨p, isLocal⟩ := begins.eventLocal_ok isX isY
  obtain ⟨u, before, follows⟩ := begins.follows_pointerMoves (.refl ..) earlier
  rw [List.foldl_append, List.foldl_cons, List.foldl_nil]
  refine (congrArg (fun stage => Edit.state (pointerMove e stage)) before).trans ?_
  rw [begins.state_pointerMove follows followed isLocal]
  exact (begins.state_pointerMove (.refl ..) followed isLocal).symm

end

end IsBegun

end Stage

namespace Session

open Edit

section

variable [Arith α] {s t : Session α} {e : PointerEvent α}

/-- To follow the pointer changes the stage as it does there; what is told about it does not. -/
theorem stage_pointerMove (e : PointerEvent α) (s : Session α) :
    (Edit.state (run (.pointerMove e) s)).stage = Edit.state (Stage.pointerMove e s.stage) := by
  let kept (t : Session α) : Prop := t.stage = Edit.state (Stage.pointerMove e s.stage)
  have moved : (onStage (Stage.pointerMove e)).Leaves s kept := leaves_focus.mpr (leaves_state _ _)
  have told : (pointerMove e).Leaves s kept := by
    refine leaves_notifying (moved.bind fun answer t same => leaves_get ?_) fun _ same => same
    split
    · exact Leaves.bind (leaves_lift same fun _ _ => leaves_modify same) fun _ _ same => leaves_pure same true
    · exact leaves_pure same _
  have ran : (run (.pointerMove e)).Leaves s kept := told.bind fun _ _ same => leaves_pure same _
  exact ran.state

/-- Moves of the pointer change the stage alone, one after the other. -/
theorem stage_pointerMoves (events : List (PointerEvent α)) (s : Session α) :
    (runAll (events.map .pointerMove) s).stage =
      events.foldl (fun stage e => Edit.state (Stage.pointerMove e stage)) s.stage := by
  induction events generalizing s with
  | nil => rfl
  | cons e rest ih =>
      rw [List.foldl_cons, ← stage_pointerMove]
      exact ih _

/-- A silent selection leaves the stage as it is. -/
theorem leaves_selectQuiet (s : Session α) (id? : Option Text) : (selectQuiet id?).Leaves s fun t => t.stage = s.stage := by
  unfold selectQuiet
  refine leaves_get ?_
  split
  · exact Leaves.bind (leaves_modify rfl) fun _ _ same => leaves_modify same
  · exact Leaves.bind (leaves_modify rfl) fun _ _ same => leaves_lift same fun _ _ => leaves_modify same

/-- A pointer that goes down and begins a drag captures a node and changes nothing else of the stage. -/
theorem pointerDown_begins (started : pointerDown e s = .ok true t) : ∃ g n p,
    t.stage = { s.stage with drag := some g } ∧ s.stage.eventLocal e n.parent = .ok p ∧ g.Captures s.store n ∧
    g.resizing = e.handle.truthy ∧ g.pointerId = e.pointerId := by
  have ends : (pointerDown e).Ends s (fun began t => began = true → ∃ g n p,
      t.stage = { s.stage with drag := some g } ∧ s.stage.eventLocal e n.parent = .ok p ∧ g.Captures s.store n ∧
      g.resizing = e.handle.truthy ∧ g.pointerId = e.pointerId) fun _ _ => True := by
    unfold pointerDown notifying
    simp only [ends_bind, Session.ends_onStage]
    refine Stage.ends_aim (fun isFalse => by cases isFalse) (fun _ => trivial) ?_ fun n isNode => ?_
    · simp only [ends_pure, ends_bind]
      exact Edit.Ends.mono (leaves_selectQuiet _ none) (fun _ _ _ isFalse => by cases isFalse) fun _ _ _ => trivial
    · simp only [ends_pure, ends_bind]
      refine Edit.Ends.mono (leaves_selectQuiet _ (some n.id)) (fun _ u same => ?_) fun _ _ _ => trivial
      simp only [Session.ends_onStage, same]
      refine Stage.ends_grab.mpr ⟨fun p isLocal _ => ?_, fun _ _ => trivial⟩
      exact ⟨_, n, p, rfl, isLocal, ⟨isNode, rfl, rfl, rfl, fun resizing => if_pos resizing⟩, rfl, rfl⟩
  exact ends.returned started rfl

end

/-- A pointer that begins a drag in a forest of nodes whose sides fit. -/
theorem isBegun_of_pointerDown {s t : Session ℚ} {least : ℚ} {e : PointerEvent ℚ} (forest : s.store.IsForest)
    (numeric : s.store.IsNumeric) (isLeast : s.stage.leastSide = .num least)
    (width : ∀ n ∈ s.store.nodes, roundedInto least (s.store.room n.parent).1 n.w = n.w)
    (height : ∀ n ∈ s.store.nodes, roundedInto least (s.store.room n.parent).2 n.h = n.h)
    (started : pointerDown e s = .ok true t) : ∃ g n, t.stage.IsBegun g n least ∧ t.stage.store = s.store ∧
      g.resizing = e.handle.truthy ∧ g.pointerId = e.pointerId := by
  obtain ⟨g, n, p, isStage, isLocal, captures, resizing, pointerId⟩ := pointerDown_begins started
  refine ⟨g, n, ?_, by rw [isStage]; rfl, resizing, pointerId⟩
  rw [isStage]
  exact {
    dragged := rfl
    grips := { captures with forest, numeric }
    width := width n captures.isNode
    height := height n captures.isNode
    least := isLeast
    zoom := Stage.zoom_ne_zero isLocal }

/-- **The latest position wins.** Take any session with a surface of integer sides and the usual least side
that commands lead to, and in which every node lies in the box of its parent. After a pointer that went down
began a drag, let it move through any positions, the last of them a pair of numbers: the store is what the
last event alone makes of it. Whatever the events are, a move changes only where the dragged node is, and a
resize only where the dragged node and what is below it are, and how large they are. -/
theorem latest_of_runAll (width height : ℤ) (duplicateOffset zoomRange : Value ℚ) (zoom : ℚ) (defaults : Project ℚ)
    (idSupply : Nat → Text) (depth : Nat) (unreserved : ∀ taken, idSupply taken ≠ root) (commands : List (Command ℚ))
    (down : PointerEvent ℚ) (t : Session ℚ) :
    let s := runAll commands
      (new (.int width, .int height) (.int leastSide) duplicateOffset zoom zoomRange defaults idSupply depth)
    (∀ n ∈ s.store.nodes, n.LiesIn (s.store.room n.parent)) → pointerDown down s = .ok true t →
    (∀ earlier last x y, last.pointerId.same down.pointerId → last.x.asOperand = .ok x → last.y.asOperand = .ok y →
      (runAll ((earlier ++ [last]).map .pointerMove) t).store = (runAll [.pointerMove last] t).store) ∧
    ∃ n ∈ s.store.nodes, t.stage.drag.map Gesture.nodeId = some n.id ∧
      ∀ events : List (PointerEvent ℚ), s.store.DragsOnly n.id down.handle.truthy (runAll (events.map .pointerMove) t).store := by
  intro s lies started
  have measure : ∀ v : ℚ, (Value.num v).IsMeasure := fun v => Value.isMeasure_num.mpr (Arith.fits v)
  have sound : (Contract.sound True (.num ((leastSide : ℤ) : ℚ)) duplicateOffset zoomRange).Holds
      (new (.int width, .int height) (.int leastSide) duplicateOffset zoom zoomRange defaults idSupply depth) :=
    holds_new unreserved fun _ => ⟨measure width, measure height⟩
  have isNew : (⟨.int width, .int height, []⟩ : Store ℚ) = ⟨.num (width : ℚ), .num (height : ℚ), []⟩ := rfl
  obtain ⟨forest, numeric⟩ := forest_numeric_of_runAll sound isNew commands
  have sized := sized_of_runAll sound rfl le_rfl rfl rfl commands
  have isLeast : s.stage.leastSide = .num ((leastSide : ℤ) : ℚ) :=
    (sound.runAll (Contract.kept_sound fun _ => measure _) trivial commands).least
  obtain ⟨g, n, begins, isStore, resizing, pointerId⟩ := isBegun_of_pointerDown forest numeric isLeast
    (fun n isNode => Node.boxedSide_eq_self (sized n isNode).w (lies n isNode).x.most)
    (fun n isNode => Node.boxedSide_eq_self (sized n isNode).h (lies n isNode).y.most) started
  constructor
  · intro earlier last x y followed isX isY
    have followed : Stage.isFollowed g last := (congrArg last.pointerId.same pointerId).trans followed
    refine congrArg Stage.store ?_
    rw [stage_pointerMoves, begins.foldl_pointerMove earlier followed isX isY]
    exact (stage_pointerMove last t).symm
  · refine ⟨n, isStore ▸ begins.grips.isNode, ?_, fun events => ?_⟩
    · rw [begins.dragged]
      exact congrArg some begins.grips.nodeId
    · obtain ⟨u, leads, follows⟩ := begins.follows_pointerMoves (.refl ..) events
      have isLast : (runAll (events.map .pointerMove) t).store = u :=
        congrArg Stage.store ((stage_pointerMoves events t).trans leads)
      rw [isLast, ← resizing, ← isStore]
      exact follows.drags

/-- The frame that holds the label is made narrower than the label, which shrinks with it, and then wide. -/
theorem latest_of_runAll_stretched :
    let down := pointerOn 650 310 (.str "n1") (.str "e")
    let narrow := pointerOn 400 310 .null .null
    let wide := pointerOn 700 (1 / 3) .null .null
    let s := runAll crowded usual
    let t := Edit.state (pointerDown down s)
    pointerDown down s = .ok true t ∧
      (runAll [.pointerMove narrow, .pointerMove wide] t).store = (runAll [.pointerMove wide] t).store ∧
      ∃ n ∈ s.store.nodes, t.stage.drag.map Gesture.nodeId = some n.id ∧
        s.store.DragsOnly n.id true (runAll [.pointerMove narrow, .pointerMove wide] t).store := by
  intro down narrow wide s t
  have started : pointerDown down s = .ok true t := Edit.eq_ok_of_answer (by decide +kernel)
  have lies : ∀ n ∈ s.store.nodes, n.LiesIn (s.store.room n.parent) := by decide +kernel
  obtain ⟨latest, n, isNode, drags, only⟩ := latest_of_runAll 980 620 (.int 12) (.arr [.num (1 / 2), .num 2]) 1 {} _ _
    (fun taken => (Text.numbered_fresh taken).1) crowded down t lies started
  exact ⟨started, latest [narrow] wide 700 (1 / 3) rfl rfl rfl, n, isNode, drags, only [narrow, wide]⟩

end Session

end LayoutDesigner
