import LayoutDesigner.Proofs.Fitting
import LayoutDesigner.Proofs.Structure

/-!
# Sessions whose nodes fit

A step of a move changes the node alone, so what fits it has to fit it still; a step of a resize
clamps everything below the node, so only what it puts back elsewhere has to be looked at. Loading
clamps everything. So every command keeps the nodes of a session fitted, the steps of a resize as
far as what was captured stays below the resized node.
-/

namespace LayoutDesigner

variable {α : Type} [Arith α]

/-- The node can be put elsewhere in its box and clamped: it still fits, and what fits it does so too. -/
def Fitting.Moves (fit : Fitting α) (least : Value α) (n : Node α) (room : Value α × Value α) : Prop :=
  ∀ x y, (Node.clampIn room.1 room.2 least).Ends ((n.setX x).setY y) (fun _ m => fit.Fits m room ∧
    ∀ k, fit.Fits k (.num n.w, .num n.h) → fit.Fits k (.num m.w, .num m.h)) fun _ _ => True

/-- Every node fits every box; only the surface has to be the given one. -/
def Fitting.onSurface (canvas : Value α × Value α) : Fitting α where
  Surface room := room = canvas
  Roomy _ := True
  Fits _ _ := True
  congr _ _ := trivial
  surface _ := trivial
  roomy _ := trivial

variable {fit : Fitting α} {least : Value α}

/-- A move puts the node somewhere and then clamps it. -/
theorem Node.ends_applyMove_of {n : Node α} {start : Geometry α} {dx dy : Value α} {room : Value α × Value α}
    {done : Unit → Node α → Prop}
    (clamps : ∀ x y, (clampIn room.1 room.2 least).Ends ((n.setX x).setY y) done fun _ _ => True) :
    (applyMove start dx dy (.arr [room.1, room.2]) least).Ends n done fun _ _ => True := by
  unfold applyMove
  simp only [Edit.ends_bind, Edit.ends_modify]
  exact Edit.ends_lift_any fun _ _ => Edit.ends_lift_any fun _ _ => Edit.ends_lift_any fun x _ =>
    Edit.ends_lift_any fun _ _ => Edit.ends_lift_any fun _ _ => Edit.ends_lift_any fun y _ =>
    Edit.ends_lift_ok rfl (clamps x y)

namespace Store

variable {s : Store α} {n m : Node α}

/-- A node may be changed where it still fits and what fits it does so too. -/
theorem IsFitted.put (fitted : s.IsFitted fit) (forest : s.IsForest) (isPlain : s.IsPlain)
    (found : s.find? n.id = some n) (reshaped : Node.Reshaped n m) (fits : fit.Fits m (s.parentSize n.parent))
    (children : ∀ k, fit.Fits k (.num n.w, .num n.h) → fit.Fits k (.num m.w, .num m.h)) :
    (s.put m).IsFitted fit := by
  have isNode := mem_of_find? found
  have find? : ∀ other, (s.put m).find? other = if other = n.id then some m else s.find? other :=
    reshaped.id ▸ find?_put (m := m) (reshaped.id.symm ▸ found)
  have elsewhere : ∀ {parent}, parent ≠ n.id → (s.put m).parentSize parent = s.parentSize parent :=
    fun differs => parentSize_congr (fun _ => by rw [find?, if_neg differs]) rfl rfl
  have notRoot : n.id ≠ root := fun isRoot => forest.unreserved (isRoot ▸ id_mem_ids isNode)
  have distinct : (s.put m).ids.Nodup := by
    rw [(Reshaped.put found reshaped).ids]
    exact forest.distinct
  refine ⟨fitted.surface, fun k member => ?_⟩
  have isFound := find?_of_mem distinct member
  rw [find?] at isFound
  split at isFound
  · obtain rfl := Option.some.inj isFound
    have notSelf := forest.isRooted.parent_ne (parent?_of_mem forest.distinct isNode)
    rw [reshaped.parent, elsewhere notSelf]
    exact fits
  · have old := fitted.nodes k (mem_of_find? isFound)
    by_cases isChild : k.parent = n.id
    · rw [isChild, parentSize_of_find? notRoot (by rw [find?, if_pos rfl]) (reshaped.plain (isPlain n isNode))]
      rw [isChild, parentSize_of_find? notRoot found (isPlain n isNode)] at old
      exact children k old
    · rwa [elsewhere isChild]

end Store

namespace Stage

open Store

variable {s : Store α} {g : Gesture α} {n m : Node α} {dx dy : α} {stays : Text → Prop}
  {starts : List (Text × Geometry α)}

omit [Arith α] in
/-- Putting nodes back to typed measures leaves alone what is none of them. -/
theorem steady_restore (typed : ∀ entry ∈ starts, entry.2.unchecked = [])
    (apart : ∀ entry ∈ starts, ¬stays entry.1) : Steady stays s (restore starts s) := by
  induction starts generalizing s with
  | nil => exact refl_of (Steady stays) s
  | cons entry rest ih =>
      have first : Steady stays s (s.modifyNode entry.1 (·.setGeometry entry.2)) :=
        .modifyNode fun n here => {
          id := rfl
          plain := (Node.Reshaped.setGeometry n (typed entry List.mem_cons_self)).plain
          placing := fun holds => absurd (here ▸ holds) (apart entry List.mem_cons_self) }
      exact trans_of (Steady stays) first (ih (fun other inRest => typed other (List.mem_cons_of_mem _ inRest))
        fun other inRest => apart other (List.mem_cons_of_mem _ inRest))

/-- Putting back what is below a node or gone leaves what is beside the node fit. -/
theorem fits_restored (fitted : s.IsFitted fit) (forest : s.IsForest) (isPlain : s.IsPlain)
    (found : s.find? n.id = some n) (reshaped : Node.Reshaped n m)
    (typed : ∀ entry ∈ starts, entry.2.unchecked = [])
    (below : ∀ entry ∈ starts, entry.1 ∈ s.ids → s.LeadsUp entry.1 n.id) {k : Node α}
    (member : k ∈ (restore starts (s.put m)).nodes) (apart : ¬s.IsWithin k.id n.id) :
    fit.Fits k ((restore starts (s.put m)).parentSize k.parent) := by
  have restored := reshaped_put_restore found reshaped typed
  have steady : Steady (fun id => id ∈ s.ids ∧ ¬s.IsWithin id n.id) s (restore starts (s.put m)) := by
    refine trans_of (Steady _) (.put (reshaped.id.symm ▸ found) ?_) (steady_restore typed fun entry listed holds => ?_)
    · exact ⟨reshaped.id, reshaped.plain, fun holds => absurd (.refl _) holds.2⟩
    · exact holds.2 (.inr (below entry listed holds.1))
  have forest' := forest.congr restored.links
  refine steady.fits isPlain fitted member ⟨restored.ids ▸ id_mem_ids member, apart⟩ fun notRoot => ⟨?_, fun within => ?_⟩
  · obtain ⟨p, isParent, same, -⟩ := (forest'.contained k member).resolve_left notRoot
    exact restored.ids ▸ same ▸ id_mem_ids isParent
  · have link := parent?_of_mem forest'.distinct member
    rw [parent?_congr restored.links] at link
    exact apart (.of_parent? link within)

/-- Everything that was captured when the drag began is gone or still below the dragged node. -/
def IsAttached (stage : Stage α) : Prop :=
  ∀ g, stage.drag = some g → g.nodeId ∈ stage.store.ids →
    ∀ entry ∈ g.descendantStarts, entry.1 ∈ stage.store.ids → stage.store.LeadsUp entry.1 g.nodeId

/-- A step of a drag keeps a store fitted, where after a resize has put back what it captured every
node fits that is not within the resized one. -/
theorem fitted_dragBy (clamped : fit.ClampedBy least) (fitted : s.IsFitted fit) (forest : s.IsForest)
    (isPlain : s.IsPlain) (found : s.find? n.id = some n) (moves : fit.Moves least n (s.parentSize n.parent))
    (typed : ∀ entry ∈ g.descendantStarts, entry.2.unchecked = [])
    (beside : ∀ m, Node.Reshaped n m → ∀ k ∈ (restore g.descendantStarts (s.put m)).nodes,
      ¬s.IsWithin k.id n.id → fit.Fits k ((restore g.descendantStarts (s.put m)).parentSize k.parent)) :
    (dragBy g n dx dy least).Ends s (fun _ t => t.IsFitted fit) fun _ _ => True := by
  unfold dragBy
  simp only [Edit.ends_bind, Edit.ends_get]
  split
  · simp only [Edit.ends_bind, Edit.ends_modify]
    rw [ends_onNode_of_found found]
    refine (Node.keeps_applyResize n).mono (fun _ m reshaped => ?_) fun _ _ _ => trivial
    have restored := reshaped_put_restore found reshaped typed
    have plain := isPlain.pointwise restored fun _ _ step => step.plain
    refine (fitted_clampSubtree clamped (forest.congr restored.links) plain ?_
      (.inr (restored.ids ▸ mem_ids_of_find? found)) fun k member apart => ?_).mono
        (fun _ _ both => both.1) fun _ _ _ => trivial
    · rw [restored.width, restored.height]
      exact fitted.surface
    · exact beside m reshaped k member ((IsWithin.of_links restored.links).not.mp apart)
  · rw [ends_onNode_of_found found]
    refine ((Node.ends_applyMove_of moves).and
      (Node.keeps_applyMove n)).mono ?_ fun _ _ _ => trivial
    rintro _ m ⟨⟨fits, children⟩, reshaped⟩
    exact fitted.put forest isPlain found reshaped fits children

end Stage

/-- What is read from a document that gives no node of the root's id, onto a surface that can hold a
node, is fitted. -/
theorem Snapshot.fitted_read {data : Value α} {canvas : Value α × Value α} {fallback : Project α}
    {loaded : Loaded α} (clamped : fit.ClampedBy least) (unreserved : Unreserved depth data)
    (surface : fit.Surface canvas) (read : Snapshot.read data canvas fallback least depth = .ok loaded) :
    loaded.store.IsFitted fit ∧ loaded.store.canvasW = canvas.1 ∧ loaded.store.canvasH = canvas.2 := by
  obtain ⟨nodes, isRead, ran, -, -⟩ := read_ok read
  exact (Store.fitted_repair clamped (plain_readRecords isRead) surface (readRecords_ok isRead).1
    (unreserved _ isRead)).returned ran

namespace Contract

open Store

variable {c : Contract α}

/-- The contract that the nodes fit as well. -/
def fitted (c : Contract α) (fit : Fitting α) : Contract α :=
  { c with Good := fun s => c.Good s ∧ s.IsFitted fit }

/-- The contract that more is true of the measures that a drag began with. -/
def starting (c : Contract α) (Start : Geometry α → Prop) : Contract α :=
  { c with Start := fun g => c.Start g ∧ Start g }

/-- A contract that is kept at rest stays so with what all nodes start from. -/
theorem KeptAtRest.starting {Start : Geometry α → Prop} (kept : c.KeptAtRest)
    (geometry : ∀ {s n}, c.Good s → n ∈ s.nodes → Start n.geometry) : (c.starting Start).KeptAtRest :=
  { kept with geometry := fun good isNode => ⟨kept.geometry good isNode, geometry good isNode⟩ }

/-- An edit that changes neither id nor placing of any node. -/
theorem fitted_modifyNode {s : Store α} {id : Text} {f : Node α → Node α} (isPlain : s.IsPlain)
    (fitted : s.IsFitted fit) (sameId : ∀ n, (f n).id = n.id)
    (plain : ∀ n, n.unchecked = [] → (f n).unchecked = []) (placing : ∀ n, (f n).placing = n.placing) :
    (s.modifyNode id f).IsFitted fit := by
  have steady : Steady (fun _ => True) s (s.modifyNode id f) :=
    .modifyNode fun n _ => ⟨sameId n, plain n, fun _ => placing n⟩
  exact steady.isFitted isPlain fitted

/-- What the edits keep of an orderly store they keep of one that is fitted too. -/
theorem keptAtRest_fitted (kept : c.KeptAtRest) (orderly : ∀ {s}, c.Good s → s.IsOrderly)
    (edits : fit.ClampedBy (.int leastSide)) (loads : fit.ClampedBy c.least) : (c.fitted fit).KeptAtRest where
  measured admitted good := kept.measured admitted good.1
  geometry good isNode := kept.geometry good.1 isNode
  first {s id} good fresh := by
    have cleared : s.clear.IsFitted fit := ⟨good.2.surface, by simp [Store.clear]⟩
    have isPlain : s.clear.IsPlain := by simp [IsPlain, Store.clear]
    exact ends_and (kept.first good.1 fresh) (fitted_createNode edits cleared (.empty _ _) isPlain (.inl rfl))
  create kind good fresh := ends_and (kept.create kind good.1 fresh)
    (fitted_createNode edits good.2 (orderly good.1).forest (orderly good.1).plain (.inl rfl))
  copy {s id n newId m ids _} good found fresh copied allFresh := by
    have isNode := mem_of_find? found
    obtain ⟨forest, isPlain, -⟩ := orderly good.1
    obtain ⟨-, sameParent, -, plain, -⟩ := copyOf_ok isPlain (isPlain n isNode) copied
    have under : m.parent = root ∨ m.parent ∈ s.ids := sameParent ▸ forest.parent_known isNode
    exact ends_and (kept.copy good.1 found fresh copied allFresh)
      (fitted_place edits good.2 forest isPlain plain under)
  delete id good := ((kept.delete id good.1).and
    (fitted_deleteSubtree good.2 (orderly good.1).forest (orderly good.1).plain)).mono
      (fun _ _ both => both) fun _ _ both => both.1
  swap id up good := ends_and (kept.swap id up good.1) (fitted_swapWithNeighbor good.2 (orderly good.1).plain up)
  reparent id parent good := ends_and (kept.reparent id parent good.1)
    ((fitted_reparent edits good.2 (orderly good.1).forest (orderly good.1).plain).mono
      (fun _ _ after => after.1) fun _ _ _ => trivial)
  reorder id other position good := ends_and (kept.reorder id other position good.1)
    (fitted_reorderRelative edits good.2 (orderly good.1).forest (orderly good.1).plain position)
  field id name v good := ends_and (kept.field id name v good.1)
    (fitted_applyField edits good.2 (orderly good.1).forest (orderly good.1).plain)
  text id good := ⟨kept.text id good.1,
    fitted_modifyNode (orderly good.1).plain good.2 (fun _ => rfl) (fun _ plain => plain) fun _ => rfl⟩
  extend id kind good fresh := ⟨kept.extend id kind good.1 fresh,
    fitted_modifyNode (orderly good.1).plain good.2 (fun _ => rfl) (fun _ plain => plain) fun _ => rfl⟩
  remove drops good isNode := ⟨kept.remove drops good.1 isNode,
    fitted_modifyNode (orderly good.1).plain good.2 (fun _ => rfl) (fun _ plain => plain) fun _ => rfl⟩
  setProp good isNode present known coerced := ⟨kept.setProp good.1 isNode present known coerced,
    fitted_modifyNode (orderly good.1).plain good.2 (fun _ => rfl) (fun _ plain => plain) fun _ => rfl⟩
  load {s data fallback loaded _} good typed unreserved read := by
    obtain ⟨kept, sameIds, project⟩ := kept.load good.1 typed unreserved read
    obtain ⟨fitted, width, height⟩ := Snapshot.fitted_read loads unreserved good.2.surface read
    refine ⟨⟨kept, ?_⟩, sameIds, project⟩
    dsimp only at width height
    have same : s.replaceAll loaded.store.nodes = loaded.store := by
      rw [replaceAll_eq (Snapshot.orderly_read unreserved read).forest.distinct, ← width, ← height]
    rwa [same]
  setProject name v typed := kept.setProject name v typed

/-- A session without nodes is fitted where its surface allows it. -/
theorem Holds.fitted_of_empty {s : Session α} (holds : c.Holds s) (empty : s.store.nodes = [])
    (surface : fit.Surface (s.store.canvasW, s.store.canvasH)) : (c.fitted fit).Holds s :=
  { holds with good := ⟨holds.good, surface, by simp [empty]⟩ }

/-- A drag of a node that can be put elsewhere, below which everything still is that it captured,
keeps the nodes fitted. -/
theorem Holds.follows_fitted {s : Session α} (kept : c.Kept) (orderly : ∀ {s}, c.Good s → s.IsOrderly)
    (typed : ∀ {g}, c.Start g → g.unchecked = []) (clamped : fit.ClampedBy c.least)
    (holds : (c.fitted fit).Holds s) (attached : s.stage.IsAttached)
    (moves : ∀ n ∈ s.store.nodes, fit.Moves c.least n (s.store.parentSize n.parent)) :
    (c.fitted fit).Follows s := by
  intro g n dx dy dragged found real
  obtain ⟨start, starts, -⟩ := holds.drag g dragged
  obtain ⟨forest, isPlain, -⟩ := orderly holds.good.1
  have same := id_of_find? found
  have allTyped : ∀ entry ∈ g.descendantStarts, entry.2.unchecked = [] := fun entry listed => typed (starts entry listed)
  refine ends_and (kept.drag holds.good.1 (same ▸ found) start starts real)
    (Stage.fitted_dragBy clamped holds.good.2 forest isPlain (same ▸ found) (moves n (mem_of_find? found)) allTyped
      fun m reshaped k member apart => ?_)
  refine Stage.fits_restored holds.good.2 forest isPlain (same ▸ found) reshaped allTyped (fun entry listed isNode => ?_)
    member apart
  exact same ▸ attached g dragged (mem_ids_of_find? found) entry listed isNode

/-- What is kept is kept with the surface, which no edit changes. -/
theorem kept_onSurface (kept : c.Kept) (orderly : ∀ {s}, c.Good s → s.IsOrderly)
    (typed : ∀ {g}, c.Start g → g.unchecked = []) (canvas : Value α × Value α) :
    (c.fitted (.onSurface canvas)).Kept := by
  have ends : ∀ {σ β : Type} (edit : Edit σ β) (s : σ), edit.Ends s (fun _ _ => True) fun _ _ => True :=
    fun _ _ => Edit.ends_any fun _ _ => trivial
  have clamped : ∀ least : Value α, (Fitting.onSurface canvas).ClampedBy least := fun _ n _ _ _ => ends _ n
  exact {
    keptAtRest_fitted kept.toKeptAtRest orderly (clamped _) (clamped _) with
    drag := fun {s g n dx dy} good found start starts real => by
      obtain ⟨forest, isPlain, -⟩ := orderly good.1
      refine ends_and (kept.drag good.1 found start starts real)
        (Stage.fitted_dragBy (clamped _) good.2 forest isPlain found (fun x y => ?_)
          (fun entry listed => typed (starts entry listed)) fun _ _ _ _ _ => trivial)
      exact (ends _ _).mono (fun _ _ _ => ⟨trivial, fun _ _ => trivial⟩) fun _ _ _ => trivial }

end Contract

end LayoutDesigner
