import LayoutDesigner.Proofs.Fitted
import LayoutDesigner.Proofs.Rational

/-!
# Which least side is kept

A session is given a least side. Loading a document and following a drag clamp with it; creating,
copying, moving and writing a property clamp with the usual least side instead. All of them leave
sides that are integers. So no side is below the lesser of the two least sides, and a side is above
that of its parent only where it is not above the greater of the two.
-/

namespace LayoutDesigner

variable {α : Type} [Arith α]

namespace Node

variable {n : Node α} {least W H : Int}

/-- What a number is rounded to and kept between two integers is an integer between them. -/
theorem roundInto_int [Arith.OrdersInts α] {v w : α} {low high : Int}
    (rounded : roundInto v (.int low) (.int high) = .ok w) :
    ∃ j, roundHalfUp v = .ok j ∧ w = Arith.ofInt (max low (min high j)) := by
  obtain ⟨j, nearest, rest⟩ := bind_eq_ok.mp rounded
  obtain ⟨kept, clamped, isOperand⟩ := bind_eq_ok.mp rest
  rw [Value.int, Value.int, Value.int, Value.clamp_num, Arith.clamp_ofInt] at clamped
  obtain rfl := Except.ok.inj clamped
  exact ⟨j, nearest, (Except.ok.inj isOperand).symm⟩

/-- Where a node could be clamped, its sides are what they were, rounded and kept in range. -/
theorem sides_clampIn [Arith.OrdersInts α] (n : Node α) :
    (clampIn (.int W) (.int H) (.int least)).Ends n (fun _ m => ∃ w h,
      (roundHalfUp n.w = .ok w ∧ m.w = Arith.ofInt (max least (min W w))) ∧
        roundHalfUp n.h = .ok h ∧ m.h = Arith.ofInt (max least (min H h))) fun _ _ => True := by
  unfold clampIn
  simp only [Edit.ends_bind, Edit.ends_get, Edit.ends_modify]
  refine Edit.ends_lift_any fun w isW => Edit.ends_lift_any fun h isH => Edit.ends_lift_any fun _ _ => ?_
  refine Edit.ends_lift_any fun _ _ => Edit.ends_lift_any fun _ _ => Edit.ends_lift_any fun _ _ =>
    Edit.ends_lift_any fun _ _ => ?_
  obtain ⟨i, nearestW, rfl⟩ := roundInto_int isW
  obtain ⟨j, nearestH, rfl⟩ := roundInto_int isH
  exact ⟨i, j, ⟨nearestW, rfl⟩, nearestH, rfl⟩

/-- The sides of a node and those of a box are integers of which something is true, one by one. -/
def HasSides (n : Node α) (room : Value α × Value α) (holds : Int → Int → Prop) : Prop :=
  (∃ r k, room.1 = .int r ∧ n.w = Arith.ofInt k ∧ holds r k) ∧ ∃ r k, room.2 = .int r ∧ n.h = Arith.ofInt k ∧ holds r k

/-- Sides stay within weaker bounds. -/
theorem HasSides.imp {room : Value α × Value α} {holds weaker : Int → Int → Prop} (sides : n.HasSides room holds)
    (implies : ∀ r k, holds r k → weaker r k) : n.HasSides room weaker := by
  obtain ⟨⟨r, k, isRoom, isSide, first⟩, r', k', isRoom', isSide', second⟩ := sides
  exact ⟨⟨r, k, isRoom, isSide, implies _ _ first⟩, r', k', isRoom', isSide', implies _ _ second⟩

end Node

/-- The sides of the surface, which integers may be the sides of a box, and which may be in such a box.
What may be in a box may be one. -/
structure SideRule where
  surface : Int × Int
  Room : Int → Prop
  Side : Int → Int → Prop
  large {room side : Int} : Side room side → Room side

namespace SideRule

/-- Nodes fit boxes where both sides obey the rule. -/
def fitting (rule : SideRule) : Fitting α where
  Surface room := room = (.int rule.surface.1, .int rule.surface.2) ∧ rule.Room rule.surface.1 ∧ rule.Room rule.surface.2
  Roomy room := (∃ r, room.1 = .int r ∧ rule.Room r) ∧ ∃ r, room.2 = .int r ∧ rule.Room r
  Fits n room := n.HasSides room rule.Side
  congr {n m room} same sides := by
    obtain ⟨sameW, sameH⟩ : m.w = n.w ∧ m.h = n.h := Prod.mk.inj (congrArg Placing.side same)
    rwa [Node.HasSides, sameW, sameH]
  surface {room} given := by
    obtain ⟨rfl, roomyW, roomyH⟩ := given
    exact ⟨⟨_, rfl, roomyW⟩, _, rfl, roomyH⟩
  roomy {n room} sides := by
    obtain ⟨⟨r, k, -, isW, first⟩, r', k', -, isH, second⟩ := sides
    exact ⟨⟨k, congrArg Value.num isW, rule.large first⟩, k', congrArg Value.num isH, rule.large second⟩

variable {rule : SideRule} {least : Int}

/-- Clamping makes nodes fit where any integer that is kept in range obeys the rule. -/
theorem clampedBy [Arith.OrdersInts α] (obeys : ∀ {r} j, rule.Room r → rule.Side r (max least (min r j))) :
    (rule.fitting (α := α)).ClampedBy (.int least) := by
  rintro n ⟨_, _⟩ - ⟨⟨W, rfl, roomyW⟩, H, rfl, roomyH⟩
  refine (Node.sides_clampIn n).mono ?_ fun _ _ _ => trivial
  rintro _ m ⟨w, h, ⟨-, isW⟩, -, isH⟩
  exact ⟨⟨W, _, rfl, isW, obeys w roomyW⟩, H, _, rfl, isH, obeys h roomyH⟩

/-- A node that fits can be put elsewhere where the rule is true of its rounded sides in their place. -/
theorem moves [Arith.OrdersInts α] {n : Node α} {room : Value α × Value α} (fits : rule.fitting.Fits n room)
    (again : ∀ {r k j}, rule.Side r k → roundHalfUp (Arith.ofInt k : α) = .ok j →
      rule.Side r (max least (min r j)) ∧ ∀ i, rule.Side k i → rule.Side (max least (min r j)) i) :
    rule.fitting.Moves (.int least) n room := by
  intro x y
  obtain ⟨W, H⟩ := room
  obtain ⟨⟨W, w, rfl, isW, sideW⟩, H, h, rfl, isH, sideH⟩ := fits
  refine (Node.sides_clampIn ((n.setX x).setY y)).mono ?_ fun _ _ _ => trivial
  rintro _ m ⟨i, j, ⟨nearestW, isW'⟩, nearestH, isH'⟩
  have firsts := again sideW (isW ▸ nearestW)
  have seconds := again sideH (isH ▸ nearestH)
  refine ⟨⟨⟨W, _, rfl, isW', firsts.1⟩, H, _, rfl, isH', seconds.1⟩, ?_⟩
  rintro k ⟨⟨r, i, isRoom, isSide, first⟩, r', i', isRoom', isSide', second⟩
  rw [isW, Value.int, Value.num.injEq, Arith.ofInt_inj] at isRoom
  rw [isH, Value.int, Value.num.injEq, Arith.ofInt_inj] at isRoom'
  subst isRoom isRoom'
  exact ⟨⟨_, i, congrArg Value.num isW', isSide, firsts.2 i first⟩, _, i', congrArg Value.num isH', isSide',
    seconds.2 i' second⟩

/-- Any box, and sides that are not below some integer. -/
def atLeast (surface : Int × Int) (low : Int) : SideRule where
  surface := surface
  Room _ := True
  Side _ side := low ≤ side
  large _ := trivial

/-- Sides between two integers, none of them above both that of the box and another integer. -/
def between (surface : Int × Int) (low most limit : Int) : SideRule where
  surface := surface
  Room room := low ≤ room ∧ room ≤ limit
  Side room side := (low ≤ room ∧ room ≤ limit) ∧ (low ≤ side ∧ side ≤ limit) ∧ side ≤ max room most
  large side := side.2.1

section

variable [Arith.OrdersInts α] {surface : Int × Int} {low most limit : Int}

/-- Clamping to a least side keeps the sides between the bounds. -/
theorem clampedBy_between (lower : low ≤ least) (upper : least ≤ most) (small : least ≤ limit) :
    ((between surface low most limit).fitting (α := α)).ClampedBy (.int least) := by
  refine clampedBy fun {r} j (room : low ≤ r ∧ r ≤ limit) => ?_
  exact ⟨room, by omega, by omega⟩

omit [Arith.OrdersInts α] in
/-- A side between the least side and the room is as long as is promised. -/
theorem honours_of_between {room side : Int} (fits : (between surface least least limit).Side room side) :
    least ≤ side ∧ side ≤ room := by
  obtain ⟨box, own, under⟩ := fits
  omega

/-- Where an integer side that is kept is rounded to itself, moving keeps it. -/
theorem moves_between {n : Node α} {room : Value α × Value α} (lower : low ≤ least) (upper : least ≤ most)
    (small : least ≤ limit)
    (rounds : ∀ k : Int, low ≤ k → k ≤ limit → roundHalfUp (Arith.ofInt k : α) = .ok k)
    (fits : (between surface low most limit).fitting.Fits n room) :
    (between surface low most limit).fitting.Moves (.int least) n room := by
  refine moves fits fun {r k j} ⟨room, side, beside⟩ nearest => ?_
  obtain rfl := Except.ok.inj (nearest.symm.trans (rounds k side.1 side.2))
  exact ⟨⟨room, by omega, by omega⟩, fun i ⟨_, child, under⟩ => ⟨by omega, child, by omega⟩⟩

end

end SideRule

/-- Both sides of the geometry are integers that are not below a least one. -/
def Geometry.IsAtLeast (g : Geometry α) (low : Int) : Prop :=
  (∃ k, g.w = Arith.ofInt k ∧ low ≤ k) ∧ ∃ k, g.h = Arith.ofInt k ∧ low ≤ k

/-- A node fits a least length exactly where its room is of integers and its sides are long enough. -/
theorem SideRule.fits_atLeast_iff {surface : Int × Int} {low : Int} {n : Node α} {room : Value α × Value α} :
    (SideRule.atLeast surface low).fitting.Fits n room ↔
      ((∃ r, room.1 = .int r) ∧ ∃ r, room.2 = .int r) ∧ n.geometry.IsAtLeast low := by
  constructor
  · rintro ⟨⟨r, k, isRoom, isSide, first⟩, r', k', isRoom', isSide', second⟩
    exact ⟨⟨⟨r, isRoom⟩, r', isRoom'⟩, ⟨k, isSide, first⟩, k', isSide', second⟩
  · rintro ⟨⟨⟨r, isRoom⟩, r', isRoom'⟩, ⟨k, isSide, first⟩, k', isSide', second⟩
    exact ⟨⟨r, k, isRoom, isSide, first⟩, r', k', isRoom', isSide', second⟩

namespace Stage

open Store

variable {s : Store α} {n m : Node α} {surface : Int × Int} {low : Int} {starts : List (Text × Geometry α)}

/-- After sides were put back that were large enough all are but those of the resized node, which is no
parent of what is beside it. -/
theorem atLeast_restored (fitted : s.IsFitted (SideRule.atLeast surface low).fitting) (forest : s.IsForest) (isPlain : s.IsPlain)
    (found : s.find? n.id = some n) (reshaped : Node.Reshaped n m)
    (typed : ∀ entry ∈ starts, entry.2.unchecked = []) (large : ∀ entry ∈ starts, entry.2.IsAtLeast low)
    {k : Node α} (member : k ∈ (restore starts (s.put m)).nodes) (apart : ¬s.IsWithin k.id n.id) :
    (SideRule.atLeast surface low).fitting.Fits k ((restore starts (s.put m)).parentSize k.parent) := by
  have all : (restore starts (s.put m)).All fun k => k.id = n.id ∨ k.geometry.IsAtLeast low := by
    refine all_restore (fun entry listed k => .inr (large entry listed)) (All.put (fun k member => .inr ?_) (.inl reshaped.id))
    exact (SideRule.fits_atLeast_iff.mp (fitted.nodes k member)).2
  have restored := reshaped_put_restore found reshaped typed
  have link := parent?_of_mem (forest.congr restored.links).distinct member
  rw [parent?_congr restored.links] at link
  have roomy : (SideRule.atLeast surface low).fitting.Roomy ((restore starts (s.put m)).parentSize k.parent) := by
    refine roomy_parentSize (isPlain.pointwise restored fun _ _ step => step.plain) ?_ fun p isParent => ?_
    · rw [restored.width, restored.height]
      exact (SideRule.atLeast surface low).fitting.surface fitted.surface
    · refine ⟨(.int 0, .int 0), SideRule.fits_atLeast_iff.mpr ⟨⟨⟨0, rfl⟩, 0, rfl⟩, ?_⟩⟩
      refine (all p (mem_of_find? isParent)).resolve_left fun isResized => apart (.of_parent? link ?_)
      exact .inl ((id_of_find? isParent).symm.trans isResized)
  obtain ⟨⟨W, isW, -⟩, H, isH, -⟩ := roomy
  exact SideRule.fits_atLeast_iff.mpr ⟨⟨⟨W, isW⟩, H, isH⟩, (all k member).resolve_left fun same => apart (.inl same)⟩

end Stage

namespace Contract

open Store

variable {c : Contract α} {surface : Int × Int} {low least : Int}

/-- The contract that no side is below an integer, nor any that a drag began with. -/
def large (c : Contract α) (surface : Int × Int) (low : Int) : Contract α :=
  (c.fitted (SideRule.atLeast surface low).fitting).starting (·.IsAtLeast low)

/-- A drag puts back sides that were large enough when it began, and clamps the others. -/
theorem kept_large [Arith.OrdersInts α] (kept : c.Kept) (orderly : ∀ {s}, c.Good s → s.IsOrderly)
    (typed : ∀ {g}, c.Start g → g.unchecked = []) (isLeast : c.least = .int least) (below : low ≤ least)
    (usual : low ≤ leastSide) : (c.large surface low).Kept := by
  have clamped : ∀ {least : Int}, low ≤ least → ((SideRule.atLeast surface low).fitting (α := α)).ClampedBy (.int least) :=
    fun below => SideRule.clampedBy fun _ _ => below.trans (le_max_left ..)
  have atRest := keptAtRest_fitted kept.toKeptAtRest orderly (clamped usual) (isLeast ▸ clamped below)
  refine { atRest.starting fun good isNode => (SideRule.fits_atLeast_iff.mp (good.2.nodes _ isNode)).2 with
    drag := fun {s g n dx dy} good found start starts real => ?_ }
  obtain ⟨forest, isPlain, -⟩ := orderly good.1
  have allTyped : ∀ entry ∈ g.descendantStarts, entry.2.unchecked = [] := fun entry listed => typed (starts entry listed).1
  have moves : (SideRule.atLeast surface low).fitting.Moves c.least n (s.parentSize n.parent) :=
    isLeast ▸ SideRule.moves (good.2.nodes n (mem_of_find? found)) fun _ _ =>
      ⟨below.trans (le_max_left ..), fun _ large => large⟩
  exact ends_and (kept.drag good.1 found start.1 (fun entry listed => (starts entry listed).1) real)
    (Stage.fitted_dragBy (isLeast ▸ clamped below) good.2 forest isPlain found moves allTyped
      fun _ reshaped _ member apart => Stage.atLeast_restored good.2 forest isPlain found reshaped allTyped
        (fun entry listed => (starts entry listed).2) member apart)

end Contract

namespace Session

/-- The sessions that commands lead to, each of which may be run where it is. A command that returns
may always have been run, one that failed only where that is admitted. -/
inductive ReachesBy (may : Session α → Command α → Prop) (mayFail : Prop) (start : Session α) : Session α → Prop where
  | start : ReachesBy may mayFail start start
  | returned {s t : Session α} {command : Command α} {answer : Value α} (before : ReachesBy may mayFail start s)
      (allowed : may s command) (ran : run command s = .ok answer t) : ReachesBy may mayFail start t
  | failed {s t : Session α} {command : Command α} {fault : Fault} (admitted : mayFail)
      (before : ReachesBy may mayFail start s) (allowed : may s command)
      (ran : run command s = .error fault t) : ReachesBy may mayFail start t

/-- Any command may be run. -/
def anyCommand (_ : Session α) (_ : Command α) : Prop := True

/-- Any command may be run but a step of a drag after something that was captured went elsewhere. -/
def keepsAttached (s : Session α) (command : Command α) : Prop := command.IsMove → s.stage.IsAttached

/-- Where failing is admitted, the next command may be any that is allowed. -/
theorem ReachesBy.after {may : Session α → Command α → Prop} {start s : Session α} (reached : ReachesBy may True start s)
    {command : Command α} (allowed : may s command) : ReachesBy may True start (Edit.state (run command s)) := by
  cases ran : run command s with
  | ok answer t => exact reached.returned allowed ran
  | error fault t => exact reached.failed trivial allowed ran

/-- Commands lead on from what is reached. -/
theorem ReachesBy.runAll {start s : Session α} (reached : ReachesBy anyCommand True start s)
    (commands : List (Command α)) : ReachesBy anyCommand True start (runAll commands s) := by
  induction commands generalizing s with
  | nil => exact reached
  | cons command rest ih => exact ih (reached.after trivial)

/-- What is promised of the first session is true of all that commands lead to, as far as every step of
a drag keeps it where it is allowed. -/
theorem ReachesBy.holds [Arith.Lawful α] {may : Session α → Command α → Prop} {c : Contract α} {first s : Session α}
    (reached : ReachesBy may c.mayFail first s) (kept : c.KeptAtRest)
    (follows : ∀ {s command}, c.Holds s → may s command → command.IsMove → c.Follows s) (holds : c.Holds first) :
    c.Holds s := by
  induction reached with
  | start => exact holds
  | returned _ allowed ran before => exact (before.run_of_follows kept (follows before allowed)).returned ran
  | failed admitted _ allowed ran before => exact (before.run_of_follows kept (follows before allowed)).failure ran admitted

/-- Every node is between the least side and the sides of its parent's box. -/
def Honours (s : Session α) (least : Int) : Prop :=
  ∀ n ∈ s.store.nodes, n.HasSides (s.store.parentSize n.parent) fun room side => least ≤ side ∧ side ≤ room

/-- Loading that succeeds puts in place what was read. -/
theorem loadSnapshot_replaces {s : Session α} {data : Value α} :
    (loadSnapshot data).Ends s (fun done t => done = true → ∃ loaded,
      Snapshot.read data (s.store.canvasW, s.store.canvasH) s.project s.stage.leastSide s.depth = .ok loaded ∧
        t.store = s.store.replaceAll loaded.store.nodes) fun _ _ => True := by
  unfold loadSnapshot notifying
  simp only [Edit.ends_bind, Edit.ends_get]
  split
  · next loaded read =>
      simp only [replaceBy, Edit.ends_bind, Session.ends_onStage, Session.ends_onStore, Stage.losePointer,
        Edit.ends_modify, Stage.setZoom, Edit.ends_get]
      exact Edit.ends_lift_any fun _ _ => Edit.ends_lift_any fun _ _ => Edit.ends_lift_any fun _ _ =>
        Edit.ends_lift_any fun _ _ _ => ⟨loaded, read, rfl⟩
  · split
    · exact fun loads => absurd loads Bool.false_ne_true
    · trivial

section

variable [Arith.Lawful α] [Arith.OrdersInts α] {least width height : Int} {duplicateOffset zoomRange : Value α}
  {mayFail : Prop} {first s t : Session α}
  (sound : (Contract.sound mayFail (.int least) duplicateOffset zoomRange).Holds first)
  (isNew : first.store = ⟨.int width, .int height, []⟩) (leastFits : mayFail → (Value.int least : Value α).IsMeasure)

include sound isNew leastFits

/-- No side is below the lesser of the two least ones. -/
theorem holds_large (idle : first.stage.drag = none) (reached : ReachesBy anyCommand mayFail first s) :
    ((Contract.sound mayFail (.int least) duplicateOffset zoomRange).large (width, height) (min least leastSide)).Holds s := by
  have kept : ((Contract.sound mayFail (.int least) duplicateOffset zoomRange).large (width, height)
      (min least leastSide)).Kept :=
    Contract.kept_large (Contract.kept_sound leastFits) (fun good => good.orderly) (fun start => start.1) rfl
      (min_le_left ..) (min_le_right ..)
  have fitted : ((Contract.sound mayFail (.int least) duplicateOffset zoomRange).fitted
      (SideRule.atLeast (width, height) (min least leastSide)).fitting).Holds first :=
    sound.fitted_of_empty (by rw [isNew]) ⟨by rw [isNew]; rfl, trivial, trivial⟩
  exact reached.holds kept.toKeptAtRest (fun holds _ _ => holds.follows kept)
    { fitted with drag := fun g found => by simp [idle] at found }

/-- Where nothing that a drag captured goes elsewhere, sides stay between integers between which both
least sides and the surface are. -/
theorem holds_between {low most limit : Int} (surface : (low ≤ width ∧ width ≤ limit) ∧ low ≤ height ∧ height ≤ limit)
    (own : low ≤ least ∧ least ≤ most) (usual : low ≤ leastSide ∧ leastSide ≤ most) (small : most ≤ limit)
    (rounds : ∀ k : Int, low ≤ k → k ≤ limit → roundHalfUp (Arith.ofInt k : α) = .ok k)
    (reached : ReachesBy keepsAttached mayFail first s) :
    ((Contract.sound mayFail (.int least) duplicateOffset zoomRange).fitted
      (SideRule.between (width, height) low most limit).fitting).Holds s := by
  have kept : (Contract.sound mayFail (.int least) duplicateOffset zoomRange).Kept := Contract.kept_sound leastFits
  have clamped : ((SideRule.between (width, height) low most limit).fitting (α := α)).ClampedBy (.int least) :=
    SideRule.clampedBy_between own.1 own.2 (own.2.trans small)
  have atRest := Contract.keptAtRest_fitted kept.toKeptAtRest (fun good => good.orderly)
    (SideRule.clampedBy_between usual.1 usual.2 (usual.2.trans small)) clamped
  refine reached.holds atRest (fun {s command} holds attached isMove => ?_) (sound.fitted_of_empty (by rw [isNew]) ?_)
  · intro g n dx dy
    refine holds.follows_fitted kept (fun good => good.orderly) (fun start => start.1) clamped (attached isMove) fun n isNode => ?_
    exact SideRule.moves_between own.1 own.2 (own.2.trans small) rounds (holds.good.2.nodes n isNode)
  · exact ⟨by rw [isNew]; rfl, surface⟩

/-- What was loaded honours the least side of the session. -/
theorem honours_of_load {data : Value α} (enough : least ≤ width ∧ least ≤ height) (idle : first.stage.drag = none)
    (reached : ReachesBy anyCommand mayFail first s) (ran : loadSnapshot data s = .ok true t) : t.Honours least := by
  have holds := holds_large sound isNew leastFits idle reached
  obtain ⟨surface, -, -⟩ := holds.good.2.surface
  obtain ⟨loaded, read, store⟩ := loadSnapshot_replaces.returned ran rfl
  rw [holds.least] at read
  have clamped : ((SideRule.between (width, height) least least (max width height)).fitting (α := α)).ClampedBy (.int least) :=
    SideRule.clampedBy_between le_rfl le_rfl (enough.1.trans (le_max_left ..))
  obtain ⟨fitted, canvasW, canvasH⟩ := Snapshot.fitted_read clamped (Snapshot.unreserved_of_read read)
    ⟨surface, ⟨enough.1, le_max_left ..⟩, enough.2, le_max_right ..⟩ read
  dsimp only at canvasW canvasH
  have same : s.store.replaceAll loaded.store.nodes = loaded.store := by
    rw [Store.replaceAll_eq (Snapshot.orderly_read (Snapshot.unreserved_of_read read) read).forest.distinct, ← canvasW, ← canvasH]
  rw [Honours, store, same]
  exact fun n member => (fitted.nodes n member).imp fun _ _ => SideRule.honours_of_between

end

/-- **Which least side a session keeps.** A session is given a least side that the surface has room for.
Whatever commands are run, every side is an integer that is not below the lesser of this one and the
usual one. Where drags keep what they captured and integers are rounded to themselves, no side is above
both its parent's and the greater of the two; every node honours the least side where it is the usual
one. Whatever it is, what is loaded honours it. -/
theorem sides_of_runs [Arith.Lawful α] [Arith.OrdersInts α] (least width height : Int) (positive : 1 ≤ least)
    (enough : least ≤ width ∧ least ≤ height) (duplicateOffset zoomRange : Value α) (zoom : α)
    (defaults : Project α) (idSupply : Nat → Text) (depth : Nat) (unreserved : ∀ taken, idSupply taken ≠ root)
    (mayFail : Prop) (fits : mayFail → (Value.int width : Value α).IsMeasure ∧
      (Value.int height : Value α).IsMeasure ∧ (Value.int least : Value α).IsMeasure) :
    let first := new (.int width, .int height) (.int least) duplicateOffset zoom zoomRange defaults idSupply depth
    (∀ s, ReachesBy anyCommand mayFail first s → ∀ n ∈ s.store.nodes,
      n.HasSides (s.store.parentSize n.parent) fun _ side => min least leastSide ≤ side) ∧
    ((∀ k : Int, 1 ≤ k → k ≤ max (max width height) (max least leastSide) →
        roundHalfUp (Arith.ofInt k : α) = .ok k) →
      ∀ s, ReachesBy keepsAttached mayFail first s →
        (∀ n ∈ s.store.nodes, n.HasSides (s.store.parentSize n.parent) fun room side =>
          side ≤ max room (max least leastSide)) ∧
        (least = leastSide → s.Honours least)) ∧
    ∀ s t data, ReachesBy anyCommand mayFail first s → loadSnapshot data s = .ok true t → t.Honours least := by
  intro first
  have sound : (Contract.sound mayFail (.int least) duplicateOffset zoomRange).Holds first :=
    holds_new unreserved fun admitted => ⟨(fits admitted).1, (fits admitted).2.1⟩
  have leastFits := fun admitted => (fits admitted).2.2
  have usual : 1 ≤ leastSide := by decide
  refine ⟨fun s reached => ?_, fun rounds s reached => ⟨?_, fun isUsual => ?_⟩, fun s t data reached ran => ?_⟩
  · exact (holds_large sound rfl leastFits rfl reached).good.2.nodes
  · have holds := holds_between sound rfl leastFits ⟨⟨by omega, by omega⟩, by omega, by omega⟩
      ⟨positive, le_max_left ..⟩ ⟨usual, le_max_right ..⟩ (le_max_right ..) rounds reached
    exact fun n member => (holds.good.2.nodes n member).imp fun _ _ side => side.2.2
  · have holds := holds_between sound rfl leastFits ⟨⟨by omega, by omega⟩, by omega, by omega⟩
      ⟨le_rfl, le_rfl⟩ ⟨by omega, by omega⟩ (by omega)
      (fun k low => rounds k (by omega)) reached
    exact fun n member => (holds.good.2.nodes n member).imp fun _ _ => SideRule.honours_of_between
  · exact honours_of_load sound rfl leastFits enough rfl reached ran

/-- A new session with a least side that is above the usual one. -/
def coarse : Session ℚ :=
  new (.int 980, .int 620) (.int 50) (.int 12) 1 (.arr [.num (1 / 2), .num 2]) {}
    fun taken => ("n" : Text) ++ Text.ofNat taken

/-- A frame is made narrow and then dragged by a handle, and a document is loaded. -/
theorem sides_of_runs_coarse :
    let pointer (x : ℚ) (target handle : Value ℚ) : PointerEvent ℚ :=
      { x := .num x, y := .num 310, pointerId := .int 1, button := .int 1, target, handle }
    let narrowed := [.createNode (.str "Frame"), .setProperty (.str "w") (.str "10"),
      .pointerDown (pointer 500 (.str "n0") (.str "e"))]
    let s := runAll narrowed coarse
    let t := Edit.state (run (.pointerMove (pointer 510 .null .null)) s)
    let data : Value ℚ := .obj [("nodes", .arr [.obj [("id", .str "a"), ("type", .str "Frame"), ("w", .int 5)]])]
    (∀ n ∈ s.store.nodes, n.HasSides (s.store.parentSize n.parent) fun _ side => 20 ≤ side) ∧
      (∀ n ∈ t.store.nodes, n.HasSides (t.store.parentSize n.parent) fun room side => side ≤ max room 50) ∧
        (Edit.state (loadSnapshot data s)).Honours 50 := by
  intro pointer narrowed s t data
  have measure : ∀ n : Int, (Value.int n : Value ℚ).IsMeasure := fun _ => Value.isMeasure_num.mpr ⟨_, rfl⟩
  obtain ⟨large, attached, loaded⟩ := sides_of_runs (α := ℚ) 50 980 620 (by decide) ⟨by decide, by decide⟩
    (.int 12) (.arr [.num (1 / 2), .num 2]) 1 {} (fun taken => ("n" : Text) ++ Text.ofNat taken) usualDepth
    (fun taken => (Text.numbered_fresh taken).1) True
    fun _ => ⟨measure 980, measure 620, measure 50⟩
  have reached : ReachesBy anyCommand True coarse s := ((ReachesBy.start.after trivial).after trivial).after trivial
  -- Nothing is below the frame, so the drag has captured nothing.
  have alone : s.stage.drag.map (·.descendantStarts.map Prod.fst) = some [] := by decide +kernel
  have isAttached : s.stage.IsAttached := by
    intro g found _ entry listed
    rw [found, Option.map_some, Option.some_inj, List.map_eq_nil_iff] at alone
    rw [alone] at listed
    cases listed
  have moved : ReachesBy keepsAttached True coarse t :=
    (((ReachesBy.start.after (·.elim)).after (·.elim)).after (·.elim)).after fun _ => isAttached
  have rounds : ∀ k : Int, roundHalfUp (Arith.ofInt k : ℚ) = .ok k := fun k =>
    congrArg Except.ok (Exact.floor_int_add_half k)
  have loads : loadSnapshot data s = .ok true (Edit.state (loadSnapshot data s)) := by
    have answers : (match loadSnapshot data s with
      | .ok done _ => done
      | .error _ _ => false) = true := by decide +kernel
    revert answers
    cases loadSnapshot data s with
    | ok done u => exact fun answers => congrArg (EStateM.Result.ok · u) answers
    | error fault u => exact fun answers => nomatch answers
  exact ⟨large s reached, (attached (fun k _ _ => rounds k) t moved).1, loaded s _ data reached loads⟩

/-- Writing a width clamps it with the usual least side, whatever that of the session is. -/
theorem not_honours_narrowed :
    let s := runAll [.createNode (.str "Frame"), .setProperty (.str "w") (.str "10")] coarse
    s.store.nodes.map (·.w) = [20] ∧ ¬s.Honours 50 := by
  intro s
  have narrow : s.store.nodes.map (·.w) = [20] := by decide +kernel
  refine ⟨narrow, fun honours => ?_⟩
  obtain ⟨n, isNode⟩ : ∃ n, n ∈ s.store.nodes := List.exists_mem_of_ne_nil _ fun none => by simp [none] at narrow
  obtain ⟨⟨r, k, -, isSide, large, -⟩, -⟩ := honours n isNode
  have isTwenty : n.w ∈ [(20 : ℚ)] := narrow ▸ List.mem_map_of_mem isNode
  rw [List.mem_singleton.mp isTwenty, Exact.ofInt_eq] at isSide
  have : (k : ℚ) = (20 : ℤ) := isSide.symm
  exact absurd (Int.cast_injective this ▸ large) (by decide)

end Session

end LayoutDesigner
