import LayoutDesigner.Proofs.Containment
import LayoutDesigner.Proofs.Sides
import LayoutDesigner.Proofs.Tidy

/-!
# Where a node is after it was moved

A node that is moved under another parent is put where its anchor was on the canvas and is then
clamped. What is above the new parent is not within the node, so the space of the parent starts where
it did, and the node's place in that space is all that rounding can change.
-/

namespace LayoutDesigner

variable {α : Type} [Arith α]

/-- Where a box starts goes by its placing. -/
theorem Node.localTopLeft_congr {n m : Node α} (plain : n.unchecked = []) (plain' : m.unchecked = [])
    (same : m.placing = n.placing) : m.localTopLeft = n.localTopLeft := by
  simp only [placing, Placing.mk.injEq, Prod.mk.injEq] at same
  obtain ⟨-, ⟨anchorX, anchorY⟩, ⟨w, h⟩, x, y⟩ := same
  simp only [localTopLeft, needNumbers_plain plain, needNumbers_plain plain', anchorX, anchorY, w, h, x, y]

namespace Store

/-- The stores have the same ids, and where `stays` holds of an id their nodes have the same placing. -/
structure AgreeOn (stays : Text → Prop) (s t : Store α) : Prop where
  ids : t.ids = s.ids
  nodes {id : Text} {n : Node α} : stays id → s.find? id = some n →
    ∃ m, t.find? id = some m ∧ Node.Steady (fun _ => True) n m

variable {s t u : Store α} {id parent : Text} {n : Node α} {stays : Text → Prop}

omit [Arith α] in
/-- Where nodes stay, the stores agree on them. -/
theorem Steady.agreeOn (steady : Steady stays s t) : AgreeOn stays s t where
  ids := steady.ids fun _ _ step => step.id
  nodes {id n} holds found := by
    have related := steady.find? (fun _ _ step => step.id) id
    rw [found] at related
    cases found' : t.find? id with
    | none => rw [found'] at related; cases related
    | some m =>
        rw [found'] at related
        cases related with
        | some step =>
            exact ⟨m, rfl, step.id, step.plain, fun _ => step.placing ((id_of_find? found).symm ▸ holds)⟩

namespace AgreeOn

omit [Arith α] in
/-- Stores that agree on nodes one after the other agree on them. -/
theorem trans (first : AgreeOn stays s t) (second : AgreeOn stays t u) : AgreeOn stays s u where
  ids := second.ids.trans first.ids
  nodes holds found := by
    obtain ⟨m, found', step⟩ := first.nodes holds found
    obtain ⟨k, found'', step'⟩ := second.nodes holds found'
    exact ⟨k, found'', trans_of (Node.Steady fun _ => True) step step'⟩

omit [Arith α] in
/-- Where one store has no node, the other one has none. -/
theorem find?_none (agree : AgreeOn stays s t) (missing : s.find? id = none) : t.find? id = none := by
  rw [find?_eq_none] at missing ⊢
  rwa [agree.ids]

section

variable (agree : AgreeOn stays s t) (up : ∀ child parent, stays child → s.parent? child = some parent → stays parent)

include agree up

omit [Arith α] in
/-- On a walk up to an id that stays, the stores agree. -/
theorem ancestorsFrom_eq (bound : Nat) (met : List Text) (here : stays id) :
    t.ancestorsFrom bound met id = s.ancestorsFrom bound met id := by
  induction bound generalizing met id with
  | zero => rfl
  | succ bound ih =>
      have known : t.contains = s.contains := by
        funext other
        rw [Bool.eq_iff_iff, contains_iff, contains_iff, agree.ids]
      cases found : s.find? id with
      | none => simp only [ancestorsFrom, found, agree.find?_none found]
      | some n =>
          obtain ⟨m, found', step⟩ := agree.nodes here found
          have sameParent : m.parent = n.parent := congrArg Placing.parent (step.placing trivial)
          simp only [ancestorsFrom, found, found', sameParent, known,
            ih (n.parent :: met) (up id n.parent here (parent?_of_find? found))]

omit [Arith α] in
/-- An id that stays has the same ancestors in both stores. -/
theorem ancestors_eq (here : stays id) : t.ancestors id = s.ancestors id := by
  have size : t.size = s.size := by rw [← length_ids, ← length_ids, agree.ids]
  rw [ancestors, ancestors, size, agree.ancestorsFrom_eq up _ _ here]

omit up in
/-- Stores that agree on nodes move a point by them in the same way. -/
theorem offsetBy_eq (plain : s.IsPlain) {ids : List Text} (here : ∀ id ∈ ids, stays id) (start : Point α) :
    t.offsetBy start ids = s.offsetBy start ids := by
  induction ids generalizing start with
  | nil => rfl
  | cons id rest ih =>
      have rest_eq := fun p => ih (fun other inRest => here other (List.mem_cons_of_mem _ inRest)) p
      simp only [offsetBy, List.foldlM_cons] at rest_eq ⊢
      cases found : s.find? id with
      | none => simp only [agree.find?_none found, rest_eq]
      | some n =>
          obtain ⟨m, found', step⟩ := agree.nodes (here id List.mem_cons_self) found
          have isPlain := plain n (mem_of_find? found)
          have corner := Node.localTopLeft_congr isPlain (step.plain isPlain) (step.placing trivial)
          simp only [found', corner, rest_eq]

/-- Where a box starts on the canvas goes by the placings of its node and of what is above. -/
theorem absoluteTopLeft_eq (plain : s.IsPlain) (here : stays id) : t.absoluteTopLeft id = s.absoluteTopLeft id := by
  cases found : s.find? id with
  | none => simp only [absoluteTopLeft, found, agree.find?_none found]
  | some n =>
      obtain ⟨m, found', step⟩ := agree.nodes here found
      have isPlain := plain n (mem_of_find? found)
      have corner := Node.localTopLeft_congr isPlain (step.plain isPlain) (step.placing trivial)
      have above : ∀ other ∈ s.ancestors id, stays other := fun other member =>
        (ancestorsFrom_sound member).2.2.of_closed up here
      have offsets := agree.offsetBy_eq plain above
      simp only [absoluteTopLeft, found, found', corner, agree.ancestors_eq up here, offsets]

/-- A parent that stays has the same origin in both stores. -/
theorem spaceOrigin_eq (plain : s.IsPlain) (here : parent ≠ root → stays parent) :
    t.spaceOrigin parent = s.spaceOrigin parent := by
  rw [spaceOrigin, spaceOrigin]
  split
  · rfl
  · next notRoot => exact agree.absoluteTopLeft_eq up plain (here notRoot)

end

end AgreeOn

/-- What is not within a node once that names another parent. -/
def IsApart (s : Store α) (id parent other : Text) : Prop :=
  ¬(s.modifyNode id (·.setParent parent)).IsWithin other id

omit [Arith α] in
/-- What is above something apart from the node is so too. -/
theorem IsApart.up {child above : Text} (apart : s.IsApart id parent child) (link : s.parent? child = some above) :
    s.IsApart id parent above := by
  have other : child ≠ id := fun same => apart (same ▸ .refl _)
  have link' : (s.modifyNode id (·.setParent parent)).parent? child = some above := by
    rw [parent?_setParent, if_neg other, link]
  exact fun within => apart (.of_parent? link' within)

omit [Arith α] in
/-- So the new parent is, where it admits the node. -/
theorem isApart_parent (forest : s.IsForest) (admits : s.Admits parent id) (member : id ∈ s.ids) :
    s.IsApart id parent parent := by
  have forest' := forest.setParent admits
  obtain ⟨n, found⟩ := exists_find? member
  have link : (s.modifyNode id (·.setParent parent)).parent? id = some parent := by
    rw [parent?_setParent, if_pos rfl, parent?_of_find? found, Option.map_some]
  exact forest'.isRooted.not_isWithin_parent link

omit [Arith α] in
/-- A change of a node leaves what is apart from it. -/
theorem agreeOn_modifyNode {f : Node α → Node α} (sameId : ∀ n, (f n).id = n.id)
    (plain : ∀ n, n.unchecked = [] → (f n).unchecked = []) :
    AgreeOn (s.IsApart id parent) s (s.modifyNode id f) :=
  (Steady.modifyNode fun n here =>
    ⟨sameId n, plain n, fun apart => absurd (.inl here) apart⟩ : Steady (s.IsApart id parent) _ _).agreeOn

end Store

/-- Where an anchor that was at `before` on one axis is after its node came into another box, whose
space starts at `start`: at its old place, rounded into the range in which the node is inside. If the
node as it was is inside there, this is within a half of its old place, and just there where that rests. -/
structure Moored (room anchor side before start after : ℚ) : Prop where
  place : after = start + roundedInto (anchor * roundedInto leastSide room side)
    (room - (1 - anchor) * roundedInto leastSide room side) (before - start)
  near : IsWhole side → Housed leastSide room anchor side (before - start) → |after - before| ≤ 1 / 2
  stays_iff : IsWhole side → Housed leastSide room anchor side (before - start) →
    (after = before ↔ RestsIn room anchor side (before - start))

/-- A place in a parent's box moors a node. -/
theorem Moored.of_place {room anchor side before start after : ℚ}
    (place : after = start + roundedInto (anchor * roundedInto leastSide room side)
      (room - (1 - anchor) * roundedInto leastSide room side) (before - start)) :
    Moored room anchor side before start after := by
  refine ⟨place, fun whole housed => ?_, fun whole housed => ?_⟩
  · have near := abs_roundedInto_sub_le housed.low housed.high
    rw [place, whole.roundedInto_eq housed.least housed.most]
    rwa [add_comm, add_sub_assoc, ← neg_sub before start, ← sub_eq_add_neg]
  · rw [place, whole.roundedInto_eq housed.least housed.most, RestsIn,
      ← roundedInto_eq_self_iff housed.low housed.high, eq_sub_iff_add_eq']

/-- A node under another parent, in a box there. -/
theorem Node.placing_boxedFrom_movedTo (n : Node ℚ) (parent : Text) (x y : ℚ) (z : Int) (least : ℚ) (room : ℚ × ℚ) :
    ((n.movedTo parent x y z).boxedFrom least room).placing =
      ⟨parent, (n.anchorX, n.anchorY), (roundedInto least room.1 n.w, roundedInto least room.2 n.h),
        (roundedInto (n.anchorX * roundedInto least room.1 n.w) (room.1 - (1 - n.anchorX) * roundedInto least room.1 n.w) x,
        roundedInto (n.anchorY * roundedInto least room.2 n.h) (room.2 - (1 - n.anchorY) * roundedInto least room.2 n.h) y)⟩ := by
  simp only [placing, boxedFrom, movedTo, setZ, setY, setX, setParent, checked]

namespace Store

variable {s t : Store ℚ} {id parent : Text} {n m : Node ℚ} {start : Point ℚ}

/-- The anchor of a node on the canvas is its own place from the origin of its parent on. -/
theorem absoluteAnchor_num (found : s.find? id = some n) (plain : n.unchecked = [])
    (isStart : s.spaceOrigin n.parent = .ok start) : s.absoluteAnchor id = .ok (start.1 + n.x, start.2 + n.y) := by
  simp only [absoluteAnchor, found, isStart, Node.needNumbers_plain plain]
  rfl

/-- A node that is put under another parent and clamped with all that is within it is in the box that
the parent had. -/
theorem boxed_movedTo (forest : s.IsForest) (numeric : s.IsNumeric) (found : s.find? id = some n)
    (can : s.canReparent id parent) (x y : ℚ) (z : Int) :
    (clampSubtree id (.int leastSide)).Ends (s.modifyNode id (·.movedTo parent x y z))
      (fun _ t => AgreeOn (s.IsApart id parent) s t ∧ t.IsPlain ∧
        t.find? id = some ((n.movedTo parent x y z).boxedFrom leastSide (s.room parent))) fun _ _ => False := by
  let placed := s.modifyNode id (·.movedTo parent x y z)
  have admits := canReparent_admits forest can
  have member := mem_ids_of_find? found
  have sameId := fun n : Node ℚ => n.id_movedTo parent x y z
  have links : placed.links = (s.modifyNode id (·.setParent parent)).links := links_movedTo
  have rooted : placed.IsRooted := ((forest.setParent admits).congr links).isRooted
  have moved : AgreeOn (s.IsApart id parent) s placed :=
    agreeOn_modifyNode sameId fun _ plain => Node.plain_movedTo plain parent x y z
  have numeric' : placed.IsNumeric :=
    ⟨numeric.plain.modifyNode id fun _ plain => Node.plain_movedTo plain parent x y z, numeric.canvasW, numeric.canvasH⟩
  have found' : placed.find? id = some (n.movedTo parent x y z) := by
    rw [find?_modifyNode sameId, found, Option.map_some, if_pos (id_of_find? found)]
  have link : placed.parent? id = some parent := parent?_of_find? found'
  have sameRoom : placed.room parent = s.room parent := by
    refine room_congr ?_ rfl rfl
    have other : parent ≠ id := fun same => isApart_parent forest admits member (.inl same)
    rw [find?_modifyNode sameId]
    cases isFound : s.find? parent with
    | none => rfl
    | some p => rw [Option.map_some, if_neg (id_of_find? isFound ▸ other)]
  refine (boxed_clampSubtree rooted numeric' (.inr (mem_ids_of_find? found'))).mono ?_ fun _ _ fails => fails
  rintro _ t ⟨reshaped, boxed⟩
  refine ⟨moved.trans ⟨reshaped.ids, fun {k m} apart isNode => ?_⟩, (numeric'.reshaped reshaped).plain, ?_⟩
  · have outside : ¬placed.IsWithin m.id id := by
      rw [id_of_find? isNode, IsWithin.of_links links]
      exact apart
    have stays := (boxed m (mem_of_find? isNode)).2 outside
    exact ⟨m, id_of_find? isNode ▸ stays, refl_of (Node.Steady _) m⟩
  · have inside := (boxed _ (mem_of_find? found')).1 (.inl (id_of_find? found'))
    rw [id_of_find? found'] at inside
    rw [inside]
    have room : t.room parent = s.room parent := (boxed.room_base rooted reshaped (.inr link)).trans sameRoom
    exact congrArg (fun room => some ((n.movedTo parent x y z).boxedFrom leastSide room)) room

/-- Moving a node returns where it is legal. Its anchor is then in the room that the new parent had. -/
theorem moored_reparent (forest : s.IsForest) (numeric : s.IsNumeric) (found : s.find? id = some n)
    (can : s.canReparent id parent) :
    ∃ t before start after, reparent id parent s = .ok true t ∧ s.absoluteAnchor id = .ok before ∧
      s.spaceOrigin parent = .ok start ∧ t.absoluteAnchor id = .ok after ∧
      Moored (s.room parent).1 n.anchorX n.w before.1 start.1 after.1 ∧
      Moored (s.room parent).2 n.anchorY n.h before.2 start.2 after.2 := by
  have member := mem_ids_of_find? found
  have admits := canReparent_admits forest can
  have apart := isApart_parent forest admits member
  obtain ⟨before, isBefore, -⟩ := absoluteAnchor_ok numeric.isMeasured id
  obtain ⟨start, isStart, -⟩ := spaceOrigin_ok numeric.isMeasured parent
  have named : AgreeOn (s.IsApart id parent) s (s.modifyNode id (·.setParent parent)) :=
    agreeOn_modifyNode (fun _ => rfl) fun _ plain => Node.without_plain plain _
  have isStart' := (named.spaceOrigin_eq (fun _ _ => IsApart.up) numeric.plain fun _ => apart).trans isStart
  have moves : (reparent id parent).Ends s (fun answer t => answer = true ∧ ∃ after, t.absoluteAnchor id = .ok after ∧
      Moored (s.room parent).1 n.anchorX n.w before.1 start.1 after.1 ∧
      Moored (s.room parent).2 n.anchorY n.h before.2 start.2 after.2) fun _ _ => False := by
    refine ends_reparent_of_place forest.distinct numeric.plain found can isBefore isStart' rfl rfl fun z => ?_
    refine (boxed_movedTo forest numeric found can _ _ z).mono ?_ fun _ _ fails => fails
    rintro _ t ⟨agree, plain, inside⟩
    -- Renumbering changes neither the placing of the node nor where the space of its parent starts.
    have steady : Steady (fun _ => True) t ((t.normalizeZ parent).normalizeZ n.parent) :=
      trans_of (Steady fun _ => True) (.normalizeZ t parent) (.normalizeZ _ n.parent)
    obtain ⟨m, isMoved, step⟩ := steady.agreeOn.nodes trivial inside
    have placing := (step.placing trivial).trans (Node.placing_boxedFrom_movedTo ..)
    simp only [Node.placing, Placing.mk.injEq, Prod.mk.injEq] at placing
    obtain ⟨sameParent, -, -, x, y⟩ := placing
    have agree' : AgreeOn (s.IsApart id parent) s ((t.normalizeZ parent).normalizeZ n.parent) :=
      agree.trans (trans_of (Steady _) (.normalizeZ t parent) (.normalizeZ _ n.parent)).agreeOn
    have isStart'' : ((t.normalizeZ parent).normalizeZ n.parent).spaceOrigin m.parent = .ok start := by
      rw [sameParent]
      exact (agree'.spaceOrigin_eq (fun _ _ => IsApart.up) numeric.plain fun _ => apart).trans isStart
    have isAfter := absoluteAnchor_num isMoved (step.plain (plain _ (mem_of_find? inside))) isStart''
    exact ⟨rfl, _, isAfter, .of_place (congrArg (start.1 + ·) x), .of_place (congrArg (start.2 + ·) y)⟩
  obtain ⟨_, t, ran, rfl, after, isAfter, moored⟩ := moves.ok
  exact ⟨t, before, start, after, ran, isBefore, isStart, isAfter, moored⟩

end Store

namespace Session

section

variable {least : ℚ} {duplicateOffset zoomRange : Value ℚ} {first : Session ℚ}
  (sound : (Contract.sound True (.num least) duplicateOffset zoomRange).Holds first)

include sound

/-- Every session has a forest of typed nodes, on a surface whose sides stay numbers. -/
theorem forest_numeric_of_runAll {width height : ℚ} (isNew : first.store = ⟨.num width, .num height, []⟩)
    (commands : List (Command ℚ)) :
    (runAll commands first).store.IsForest ∧ (runAll commands first).store.IsNumeric := by
  have kept : (Contract.sound True (.num least) duplicateOffset zoomRange).Kept :=
    Contract.kept_sound fun _ => Value.isMeasure_num.mpr (Arith.fits least)
  have keptThere := Contract.kept_onSurface kept (fun good => good.orderly) (fun start => start.1)
    (.num width, .num height)
  have starts : ((Contract.sound True (.num least) duplicateOffset zoomRange).fitted
      (.onSurface (.num width, .num height))).Holds first := sound.fitted_of_empty (by rw [isNew]) (by rw [isNew]; rfl)
  obtain ⟨good, fitted⟩ := (starts.runAll keptThere trivial commands).good
  obtain ⟨sameW, sameH⟩ := Prod.mk.inj fitted.surface
  exact ⟨good.orderly.forest, good.orderly.plain, ⟨width, sameW⟩, height, sameH⟩

/-- On a surface of integer sides all sides are integers that are not below the usual least one, where the
least side of the session is not. -/
theorem sized_of_runAll {width height k : ℤ} (isLeast : least = k) (large : leastSide ≤ k)
    (isNew : first.store = ⟨.int width, .int height, []⟩) (idle : first.stage.drag = none)
    (commands : List (Command ℚ)) : ∀ n ∈ (runAll commands first).store.nodes, n.IsSized := by
  subst isLeast
  have holds := holds_large sound isNew (fun _ => Value.isMeasure_num.mpr (Arith.fits _)) idle
    (ReachesBy.start.runAll commands)
  rw [min_eq_right large] at holds
  intro n isNode
  obtain ⟨-, ⟨w, isW, largeW⟩, h, isH, largeH⟩ := SideRule.fits_atLeast_iff.mp (holds.good.2.nodes n isNode)
  exact ⟨⟨w, largeW, isW⟩, h, largeH, isH⟩

end

/-- **Moving a node moors its anchor.** In a session with a surface and a least side of any numbers,
whatever commands were run, moving a node returns where it is legal. The anchor comes to its old place
on the canvas, rounded into the room that the new parent has in its own space. A node of integer sides
that is inside there as it was is off by a half at most, and at its old place exactly where the place in
the new parent rests. All sides are such integers if those of the surface are integers, and the least
side is one that is not below the usual. -/
theorem moored_of_runAll (width height least : ℚ) (duplicateOffset zoomRange : Value ℚ) (zoom : ℚ)
    (defaults : Project ℚ) (idSupply : Nat → Text) (depth : Nat) (unreserved : ∀ taken, idSupply taken ≠ root)
    (commands : List (Command ℚ)) :
    let s := (runAll commands
      (new (.num width, .num height) (.num least) duplicateOffset zoom zoomRange defaults idSupply depth)).store
    (∀ n ∈ s.nodes, ∀ parent, s.canReparent n.id parent → ∃ t before start after,
      Store.reparent n.id parent s = .ok true t ∧ s.absoluteAnchor n.id = .ok before ∧
        s.spaceOrigin parent = .ok start ∧ t.absoluteAnchor n.id = .ok after ∧
        Moored (s.room parent).1 n.anchorX n.w before.1 start.1 after.1 ∧
        Moored (s.room parent).2 n.anchorY n.h before.2 start.2 after.2) ∧
      (IsWhole width → IsWhole height → IsSide least → ∀ n ∈ s.nodes, n.IsSized) := by
  intro s
  have measure : ∀ v : ℚ, (Value.num v).IsMeasure := fun v => Value.isMeasure_num.mpr (Arith.fits v)
  have sound : (Contract.sound True (.num least) duplicateOffset zoomRange).Holds
      (new (.num width, .num height) (.num least) duplicateOffset zoom zoomRange defaults idSupply depth) :=
    holds_new unreserved fun _ => ⟨measure width, measure height⟩
  constructor
  · intro n isNode parent can
    obtain ⟨forest, numeric⟩ := forest_numeric_of_runAll sound rfl commands
    exact Store.moored_reparent forest numeric (Store.find?_of_mem forest.distinct isNode) can
  · rintro ⟨w, rfl⟩ ⟨h, rfl⟩ ⟨k, large, isLeast⟩
    exact sized_of_runAll sound isLeast large rfl rfl commands

/-- A label in the middle of the surface, behind it a frame of an odd width. -/
def offCentre : List (Command ℚ) :=
  [.createNode (.str "Frame"), .setProperty (.str "w") (.int 325), .createNode (.str "TextLabel")]

/-- A label off the centre is dropped into a frame. -/
theorem moored_of_runAll_offCentre :
    let s := (runAll offCentre usual).store
    ∃ n ∈ s.nodes, n.id = "n1" ∧ ∃ t before start after,
      Store.reparent n.id "n0" s = .ok true t ∧ s.absoluteAnchor n.id = .ok before ∧
        s.spaceOrigin "n0" = .ok start ∧ t.absoluteAnchor n.id = .ok after ∧
        Moored (s.room "n0").1 n.anchorX n.w before.1 start.1 after.1 ∧
        Moored (s.room "n0").2 n.anchorY n.h before.2 start.2 after.2 := by
  intro s
  have can : s.canReparent "n1" "n0" := by decide +kernel
  obtain ⟨n, found⟩ := Store.exists_find?_of_canReparent can
  have isLabel := Store.id_of_find? found
  have moored := (moored_of_runAll 980 620 20 (.int 12) (.arr [.num (1 / 2), .num 2]) 1 {}
    (fun taken => ("n" : Text) ++ Text.ofNat taken) usualDepth (fun taken => (Text.numbered_fresh taken).1)
    offCentre).1
  exact ⟨n, Store.mem_of_find? found, isLabel, moored n (Store.mem_of_find? found) "n0" (isLabel.symm ▸ can)⟩

/-- The label is inside the frame, where its anchor would be at 162.5. It goes to 163, and on the canvas
from 490 to 490.5. -/
theorem reparent_drifts_offCentre :
    let s := (runAll offCentre usual).store
    let t := Edit.state (Store.reparent "n1" "n0" s)
    s.canReparent "n1" "n0" ∧ (s.absoluteAnchor "n1").toOption = some (490, 310) ∧
      (s.spaceOrigin "n0").toOption = some (655 / 2, 220) ∧
      Housed 20 (s.room "n0").1 (1 / 2) 300 (490 - 655 / 2) ∧ Housed 20 (s.room "n0").2 (1 / 2) 100 (310 - 220) ∧
      (t.absoluteAnchor "n1").toOption = some (981 / 2, 310) := by
  refine ⟨?_, ?_, ?_, ?_, ?_, ?_⟩ <;> decide +kernel

end Session

end LayoutDesigner
