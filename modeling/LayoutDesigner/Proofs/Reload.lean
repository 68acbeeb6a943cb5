import LayoutDesigner.Proofs.Containment
import LayoutDesigner.Proofs.Loading
import LayoutDesigner.Proofs.Placement
import LayoutDesigner.Proofs.Restore
import LayoutDesigner.Proofs.Tidy

/-!
# Whether a reload changes the script

Saving a design and loading it again puts every node into its parent's box, with its anchor rounded
first. A node whose anchor is at a half and is held by an edge of that box comes to lie half a step
further in. So the script stays the same exactly where every node has the offsets that it has in its
box, and this can be told before anything is saved.
-/

namespace LayoutDesigner

/-- A store with every node in the box that its parent's new sides give. -/
structure Store.IsSettled (s t : Store ℚ) : Prop where
  reshaped : Store.Reshaped s t
  boxed : ∀ n ∈ s.nodes, t.find? n.id = some (n.boxed (t.room n.parent))

/-- The snapshot of a tidy design that can be copied reads back as the design with every node in its box. -/
theorem Snapshot.settled_read {s : Store ℚ} {p : Project ℚ} {depth : Nat} (orderly : s.IsOrderly) (tidy : s.IsTidy)
    (typed : p.IsTyped) (copyable : s.IsCopyable depth) (selected : Option Text) (zoom : ℚ) (showSafeArea : Bool) :
    ∃ loaded, Snapshot.read (ofStore s p selected (.num zoom) (.bool showSafeArea)) (s.canvasW, s.canvasH) p
        (.int leastSide) depth = .ok loaded ∧
      loaded.project = p ∧ s.IsSettled loaded.store := by
  have measured := tidy.isNumeric.isMeasured
  obtain ⟨given, loaded, -, same, read, clamped, -, -, project⟩ := read_ofStore p orderly
    (Store.isTidy_iff.mp tidy).1 measured.canvasW measured.canvasH (Value.isMeasure_num.mpr (Arith.fits _)) typed
    copyable selected zoom showSafeArea
  rw [same fun _ _ => ⟨rfl, rfl, rfl, rfl⟩] at clamped
  obtain ⟨t, clamped', reshaped, boxed⟩ := Store.settled_clampSubtree orderly.forest tidy.isNumeric
  obtain rfl : t = loaded.store := congrArg Edit.state (clamped'.symm.trans clamped)
  exact ⟨loaded, read, project.trans (Project.ofValue_toValue typed), reshaped, boxed⟩

/-- Loading the snapshot of a session that keeps its promises returns, and puts every node into its box,
where the session can be copied. -/
theorem Session.loadSnapshot_snapshot {offset zoomRange : Value ℚ} {s : Session ℚ} {low high : ℚ}
    (holds : (Contract.tidy offset zoomRange).Holds s) (range : zoomRange = .arr [.num low, .num high])
    (copyable : s.store.IsCopyable s.depth) :
    ∃ t, loadSnapshot s.snapshot s = .ok true t ∧ t.project = s.project ∧ s.store.IsSettled t.store := by
  obtain ⟨loaded, read, project, settled⟩ := Snapshot.settled_read holds.good.1.orderly holds.good.2
    holds.project copyable s.selectedId s.stage.zoom s.showSafeArea
  have distinct : (loaded.store.nodes.map Node.id).Nodup := by
    have distinct := holds.good.1.orderly.forest.distinct
    rwa [← settled.reshaped.ids] at distinct
  have same : s.store.replaceAll loaded.store.nodes = loaded.store := by
    rw [Store.replaceAll_eq distinct, ← settled.reshaped.width, ← settled.reshaped.height]
  have least : s.stage.leastSide = .int leastSide := holds.least
  obtain ⟨t, ran, store, project', -⟩ := loadSnapshot_shows (least ▸ read) (holds.zoomRange.trans range) rfl
  exact ⟨t, ran, project'.trans project, store.trans same ▸ settled⟩

/-- Sides that were clamped can be read off the offsets. -/
theorem Node.IsSized.sides_eq {n m : Node ℚ} (sized : n.IsSized) (sized' : m.IsSized)
    (same : m.offsets = n.offsets) : m.w = n.w ∧ m.h = n.h := by
  obtain ⟨⟨i, -, isW⟩, ⟨j, -, isH⟩⟩ := sized
  obtain ⟨⟨k, -, isW'⟩, ⟨l, -, isH'⟩⟩ := sized'
  have offsets := (List.cons.inj same).1
  simp only [isW, isH, isW', isH', Exact.floor_int_add_half, Prod.mk.injEq, Script.Expr.offsets.injEq,
    true_and] at offsets
  obtain ⟨rfl, rfl⟩ := offsets
  exact ⟨isW'.trans isW.symm, isH'.trans isH.symm⟩

namespace Store

/-- Every node has the offsets that it has in its parent's box. -/
def IsAligned (s : Store ℚ) : Prop := ∀ n ∈ s.nodes, (n.boxed (s.room n.parent)).offsets = n.offsets

variable {s t : Store ℚ}

instance : Decidable s.IsAligned :=
  inferInstanceAs (Decidable (∀ n ∈ s.nodes, (n.boxed (s.room n.parent)).offsets = n.offsets))

namespace IsSettled

/-- Where sides and offsets of a node stay, so does the box that it is for others. -/
theorem room_eq_of_node (settled : s.IsSettled t) (sized : s.IsSized) (sized' : t.IsSized) {n : Node ℚ}
    (isNode : n ∈ s.nodes) (found : s.find? n.id = some n) (notRoot : n.id ≠ root)
    (same : (n.boxed (t.room n.parent)).offsets = n.offsets) : t.room n.id = s.room n.id := by
  have found' := settled.boxed n isNode
  have isNode' := mem_of_find? found'
  obtain ⟨sameW, sameH⟩ := (sized.nodes n isNode).sides_eq (sized'.nodes _ isNode') same
  rw [room_of_find? notRoot found (sized.plain n isNode), room_of_find? notRoot found' (sized'.plain _ isNode'),
    sameW, sameH]

/-- In an aligned store all boxes stay, which is shown from the root on. -/
theorem room_eq (settled : s.IsSettled t) (forest : s.IsForest) (sized : s.IsSized) (sized' : t.IsSized)
    (aligned : s.IsAligned) {parent : Text} (grounded : s.Grounded parent) : t.room parent = s.room parent := by
  induction grounded with
  | atRoot => exact room_root_congr settled.reshaped.width settled.reshaped.height
  | @step child parent link above ih =>
      obtain ⟨n, found, rfl⟩ := Option.map_eq_some_iff.mp link
      have isNode := mem_of_find? found
      obtain rfl := id_of_find? found
      have notRoot : n.id ≠ root := fun isRoot => forest.unreserved (isRoot ▸ id_mem_ids isNode)
      exact settled.room_eq_of_node sized sized' isNode found notRoot (ih ▸ aligned n isNode)

/-- A reload keeps all offsets exactly where the store is aligned. -/
theorem offsets_iff (settled : s.IsSettled t) (forest : s.IsForest) (sized : s.IsSized) (sized' : t.IsSized) :
    (∀ n ∈ s.nodes, (t.find? n.id).map Node.offsets = some n.offsets) ↔ s.IsAligned := by
  have offsets : ∀ n ∈ s.nodes, (t.find? n.id).map Node.offsets = some (n.boxed (t.room n.parent)).offsets :=
    fun n isNode => congrArg (Option.map Node.offsets) (settled.boxed n isNode)
  constructor
  · intro same n isNode
    have kept : ∀ m ∈ s.nodes, (m.boxed (t.room m.parent)).offsets = m.offsets := fun m isNode =>
      Option.some.inj ((offsets m isNode).symm.trans (same m isNode))
    have sameRoom : t.room n.parent = s.room n.parent := by
      rcases forest.contained n isNode with isRoot | ⟨p, isParent, isId, -⟩
      · rw [isRoot]
        exact room_root_congr settled.reshaped.width settled.reshaped.height
      · have notRoot : p.id ≠ root := fun isRoot => forest.unreserved (isRoot ▸ id_mem_ids isParent)
        rw [← isId]
        exact settled.room_eq_of_node sized sized' isParent (find?_of_mem forest.distinct isParent) notRoot
          (kept p isParent)
    exact sameRoom ▸ kept n isNode
  · intro aligned n isNode
    have grounded : s.Grounded n.parent :=
      (forest.grounded n isNode).of_parent? forest.unreserved (parent?_of_mem forest.distinct isNode)
    rw [offsets n isNode, settled.room_eq forest sized sized' aligned grounded, aligned n isNode]

end IsSettled

end Store

namespace Session

open Store

/-- A session that keeps its promises exports its script, and where it can be copied, loads its own snapshot
and exports again. The script is the same exactly where the store is aligned. -/
theorem reload_of_holds {offset : Value ℚ} {low high : ℚ} {s : Session ℚ}
    (holds : (Contract.tidy offset (.arr [.num low, .num high])).Holds s) :
    ∃ before saved, exportScript s = .ok before saved ∧
      (saved.takeSnapshot = .ok saved.snapshot ↔ s.store.IsCopyable s.depth) ∧ (s.store.IsCopyable s.depth →
        ∃ loaded after t, loadSnapshot saved.snapshot saved = .ok true loaded ∧ exportScript loaded = .ok after t ∧
          (after = before ↔ s.store.IsAligned)) := by
  have forest : s.store.IsForest := holds.good.1.orderly.forest
  have tidy : s.store.IsTidy := holds.good.2
  obtain ⟨before, -, generated, -⟩ := Script.generate_reshaped forest tidy.plain holds.project (refl_of Reshaped s.store)
  obtain ⟨saved, exported, store, project, sameDepth⟩ := exportScript_ok generated
  have savedHolds := ((Contract.kept_tidy _ _).toKeptAtRest.regime.exportScript holds).returned exported
  have taken := takeSnapshot_ok_iff savedHolds.good.2.plain
  rw [store, sameDepth] at taken
  refine ⟨before, saved, exported, taken, fun copyable => ?_⟩
  rw [← store, ← sameDepth] at copyable
  obtain ⟨loaded, ran, project', settled⟩ := loadSnapshot_snapshot savedHolds rfl copyable
  rw [store] at settled
  have loadedHolds := savedHolds.state (Contract.kept_tidy _ _) trivial (.loadSnapshot saved.snapshot)
  rw [run_loadSnapshot ran] at loadedHolds
  obtain ⟨before', after, generated', regenerated, same⟩ :=
    Script.generate_reshaped forest tidy.plain holds.project settled.reshaped
  obtain rfl : before = before' := Except.ok.inj (generated.symm.trans generated')
  rw [← project, ← project'] at regenerated
  obtain ⟨t, reexported, -⟩ := exportScript_ok regenerated
  exact ⟨loaded, after, t, ran, reexported,
    same.trans (settled.offsets_iff forest tidy.toIsSized loadedHolds.good.2.toIsSized)⟩

/-- **When a reload keeps the script.** Take any session on the usual surface that commands lead to. Its
script is exported, and then its snapshot is taken exactly where its extensions can be copied. Where they
can be, the snapshot is loaded and a script is exported again; the texts are the same exactly where every
node has the offsets that it has in its parent's box. -/
theorem reload_of_runAll (offset : Value ℚ) (zoom low high : ℚ) (defaults : Project ℚ) (idSupply : Nat → Text)
    (depth : Nat) (typed : defaults.IsTyped) (fresh : ∀ taken, idSupply taken ≠ root ∧ idSupply taken ≠ [])
    (commands : List (Command ℚ)) :
    let s := runAll commands
      (new (.int 980, .int 620) (.int leastSide) offset zoom (.arr [.num low, .num high]) defaults idSupply depth)
    ∃ before saved, exportScript s = .ok before saved ∧
      (saved.takeSnapshot = .ok saved.snapshot ↔ s.store.IsCopyable depth) ∧ (s.store.IsCopyable depth →
        ∃ loaded after t, loadSnapshot saved.snapshot saved = .ok true loaded ∧ exportScript loaded = .ok after t ∧
          (after = before ↔ s.store.IsAligned)) := by
  intro s
  have start : (Contract.tidy offset (.arr [.num low, .num high])).Holds
      (new (.int 980, .int 620) (.int leastSide) offset zoom (.arr [.num low, .num high]) defaults idSupply depth) :=
    holds_tidy_new isExact_usual typed fresh
  have sameDepth : s.depth = depth := depth_runAll ..
  exact sameDepth ▸ reload_of_holds (start.runAll (Contract.kept_tidy _ _) trivial commands)

/-- A frame of some width is put at the left edge of the surface. -/
def edged (width : Int) : List (Command ℚ) :=
  [.createNode (.str "Frame"), .setProperty (.str "w") (.int width), .setProperty (.str "x") (.int 0)]

/-- The anchor of a frame of even width is at an integer. -/
theorem reload_of_runAll_even : ∃ script saved loaded t,
    exportScript (runAll (edged 24) usual) = .ok script saved ∧ saved.takeSnapshot = .ok saved.snapshot ∧
      loadSnapshot saved.snapshot saved = .ok true loaded ∧ exportScript loaded = .ok script t := by
  have copyable : (runAll (edged 24) usual).store.IsCopyable usualDepth := by decide +kernel
  obtain ⟨script, saved, exported, takes, reloads⟩ := reload_of_runAll (.int 12) 1 (1 / 2) 2 {} _ usualDepth
    holds_usual.defaults holds_usual.supply (edged 24)
  obtain ⟨loaded, _, t, ran, reexported, same⟩ := reloads copyable
  obtain rfl := same.mpr (show (runAll (edged 24) usual).store.IsAligned by decide +kernel)
  exact ⟨_, saved, loaded, t, exported, takes.mpr copyable, ran, reexported⟩

/-- The anchor of a frame of odd width is at a half, and is rounded away from the edge. -/
theorem reload_changes_odd :
    let script (s : Session ℚ) : Option Text := (Edit.answer (exportScript s)).toOption
    let s := runAll (edged 25) usual
    let saved := Edit.state (exportScript s)
    (script s).isSome ∧ saved.takeSnapshot = .ok saved.snapshot ∧
      script (Edit.state (loadSnapshot saved.snapshot saved)) ≠ script s := by
  intro script s saved
  refine ⟨by decide +kernel, ?_, by decide +kernel⟩
  exact (takeSnapshot_ok_iff (show saved.store.IsPlain by decide +kernel)).mpr (by decide +kernel)

end Session

end LayoutDesigner
