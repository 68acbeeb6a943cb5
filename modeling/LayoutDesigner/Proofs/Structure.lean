import LayoutDesigner.Proofs.Contract
import LayoutDesigner.Proofs.Population
import LayoutDesigner.Proofs.Property

/-!
# The structure of a design

Whatever commands are run, in whatever order and at any point of a drag, the nodes of a session
remain a forest of containers below the root, the layers of all siblings remain dense, and what is
selected remains a node.
-/

namespace LayoutDesigner

open Arith (Lawful)

/-- A letter and a number are neither the id of the root nor empty. -/
theorem Text.numbered_fresh (taken : Nat) :
    ("n" : Text) ++ Text.ofNat taken ≠ root ∧ ("n" : Text) ++ Text.ofNat taken ≠ [] := by
  refine ⟨fun same => ?_, List.cons_ne_nil _ _⟩
  have heads : (("n" : Text) ++ Text.ofNat taken).head? = root.head? := congrArg List.head? same
  exact absurd heads (by decide : ("n" : Text).head? ≠ root.head?)

variable {α : Type} [Arith α]

namespace Store

variable {s : Store α}

/-- The store is orderly, and where failing is admitted its measures fit. -/
structure IsSound (mayFail : Prop) (s : Store α) : Prop where
  orderly : s.IsOrderly
  measured : mayFail → s.IsMeasured

omit [Arith α] in
/-- An empty store is in order. -/
theorem isOrderly_clear : s.clear.IsOrderly where
  forest := .empty _ _
  plain := by simp [IsPlain, clear]
  layered parent := .of_no_children rfl

/-- An emptied store is measured where it was before. -/
theorem IsMeasured.clear (measured : s.IsMeasured) : s.clear.IsMeasured where
  nodes := by simp [Store.clear]
  canvasW := measured.canvasW
  canvasH := measured.canvasH

/-- An edit that keeps a store orderly, and that where measures fit does not fail, or only so that
nothing changes. -/
theorem IsSound.ends {β : Type} {mayFail : Prop} {edit : Edit (Store α) β} (sound : s.IsSound mayFail)
    (orderly : edit.Ends s (fun _ t => t.IsOrderly ∧ t.ids = s.ids) fun _ _ => True)
    (measured : s.IsMeasured → edit.Ends s (fun _ t => t.IsMeasured) fun _ t => t = s) :
    edit.Ends s (fun _ t => t.IsSound mayFail ∧ t.ids = s.ids) fun _ t => mayFail → t = s :=
  (orderly.and_when fun admitted => measured (sound.measured admitted)).mono
    (fun _ _ after => ⟨⟨after.1.1, after.2⟩, after.1.2⟩) fun _ _ unchanged => unchanged.2

/-- An edit of a node that changes neither its links nor its layer, nor any measure. -/
theorem IsSound.modifyNode {mayFail : Prop} {f : Node α → Node α} {id : Text}
    (sound : s.IsSound mayFail) (alike : ∀ n, Node.Alike n (f n))
    (measured : ∀ n, n.IsMeasured → (f n).IsMeasured) : (s.modifyNode id f).IsSound mayFail where
  orderly := (Alike.modifyNode alike).orderly sound.orderly
  measured admitted := (sound.measured admitted).modifyNode id measured

end Store

namespace Contract

open Store

variable {mayFail : Prop} {least offset zoomRange : Value α}

/-- The contract that the store is sound. -/
def sound (mayFail : Prop) (least offset zoomRange : Value α) : Contract α where
  mayFail := mayFail
  least := least
  offset := offset
  zoomRange := zoomRange
  Good := IsSound mayFail
  Start g := g.unchecked = [] ∧ (mayFail → g.IsMeasured)
  Fresh id := id ≠ root
  Known _ := True

/-- The contract for sound sessions is kept. -/
theorem kept_sound [Lawful α] (leastMeasure : mayFail → least.IsMeasure) :
    (sound mayFail least offset zoomRange).Kept where
  measured admitted good := good.measured admitted
  geometry good isNode :=
    ⟨by simp [Node.geometry, good.orderly.plain _ isNode], fun admitted =>
      ((good.measured admitted).nodes _ isNode).geometry⟩
  first {s id} good fresh := by
    have created := orderly_createNode (isOrderly_clear (s := s)) (.str Kind.textLabel.name) fresh
    have isNew : id ∉ s.clear.ids := by simp [Store.clear, Store.ids]
    have surely := fun admitted : mayFail =>
      ends_createNode (good.measured admitted).clear isNew .textLabel root
    refine (created.and_when surely).mono ?_ fun _ _ fails => fails.2
    rintro _ t ⟨⟨orderly, same, measured⟩, -⟩
    exact ⟨⟨orderly, fun admitted => measured (good.measured admitted).clear⟩, same⟩
  create {s id} kind good fresh := by
    refine (orderly_createNode good.orderly kind fresh).mono ?_ fun _ _ same => same
    rintro _ t ⟨orderly, same, measured⟩
    exact ⟨⟨orderly, fun admitted => measured (good.measured admitted)⟩, same⟩
  copy {s id n newId m ids _} good found fresh copied _ := by
    obtain ⟨addable, sameId, anchorX, anchorY⟩ := copyOf_addable good.orderly.forest good.orderly.plain found fresh copied
    have addable' : s.Addable (m.relabelExtensions ids) :=
      ⟨addable.notRoot, addable.contained, addable.isNext, addable.plain⟩
    refine (orderly_place good.orderly addable').mono ?_ fun _ _ same => same
    rintro _ t ⟨orderly, same, measured⟩
    refine ⟨⟨orderly, fun admitted => ?_⟩, sameId ▸ same⟩
    have isMeasured := (good.measured admitted).of_find? found
    exact measured (good.measured admitted) (anchorX ▸ isMeasured.anchorX)
      (anchorY ▸ isMeasured.anchorY)
  delete {s} id good := by
    refine (orderly_deleteSubtree good.orderly).mono ?_ fun _ _ fails => fails
    rintro _ t ⟨orderly, measured⟩
    exact ⟨orderly, fun admitted => measured (good.measured admitted)⟩
  swap {s} id up good := by
    refine (orderly_swapWithNeighbor good.orderly up).mono ?_ fun _ _ fails => fails.elim
    rintro _ t ⟨orderly, same, measured⟩
    exact ⟨⟨orderly, fun admitted => measured (good.measured admitted)⟩, same⟩
  reparent {s} id parent good := good.ends (orderly_reparent good.orderly) fun measured =>
    (measured_reparent good.orderly.forest measured).mono (fun _ _ after => after.1) fun _ _ fails => fails.elim
  reorder {s} id other position good := good.ends (orderly_reorderRelative good.orderly position)
    fun measured => (measured_reorderRelative good.orderly.forest measured position).mono
      (fun _ _ after => after) fun _ _ fails => fails.elim
  field {s} id name v good := good.ends (orderly_applyField good.orderly)
    (measured_applyField good.orderly.forest)
  drag {s g n dx dy} good found start starts real := by
    have plain : g.IsPlain := ⟨start.1, fun entry listed => (starts entry listed).1⟩
    have surely := fun admitted : mayFail =>
      Stage.measured_dragBy good.orderly (good.measured admitted) found
        ⟨start.2 admitted, fun entry listed => (starts entry listed).2 admitted, (real admitted).1⟩
        (real admitted).2.1 (real admitted).2.2 (leastMeasure admitted)
    refine ((Stage.reshaped_dragBy plain dx dy).and_when surely).mono ?_ fun _ _ unchanged => unchanged.2
    rintro _ t ⟨reshaped, measured⟩
    exact ⟨⟨(Alike.of_reshaped reshaped).orderly good.orderly, measured⟩, reshaped.ids⟩
  text id good := good.modifyNode (fun _ => ⟨rfl, rfl, fun plain => plain⟩) fun _ measured =>
    { measured with }
  extend id kind good _ := good.modifyNode (fun _ => ⟨rfl, rfl, fun plain => plain⟩) fun _ measured =>
    { measured with }
  remove drops good _ := good.modifyNode (fun _ => ⟨rfl, rfl, fun plain => plain⟩) fun _ measured =>
    { measured with }
  setProp good _ _ _ _ := good.modifyNode (fun _ => ⟨rfl, rfl, fun plain => plain⟩) fun _ measured =>
    { measured with }
  load {s data fallback loaded _} good _ unreserved isRead := by
    have orderly := Snapshot.orderly_read unreserved isRead
    rw [replaceAll_eq orderly.forest.distinct]
    refine ⟨⟨orderly.congr rfl, fun admitted => ?_⟩, rfl, trivial⟩
    have measured := good.measured admitted
    have isMeasured := Snapshot.measured_read unreserved measured.canvasW measured.canvasH
      (leastMeasure admitted) isRead
    exact ⟨isMeasured.nodes, measured.canvasW, measured.canvasH⟩
  setProject _ _ _ := trivial

end Contract

namespace Session

variable {canvas : Value α × Value α} {leastSide duplicateOffset zoomRange : Value α} {zoom : α}
  {defaults : Project α} {idSupply : Nat → Text} {depth : Nat} {mayFail : Prop} {s : Session α}

/-- A session in which nothing was done yet. -/
theorem holds_new (unreserved : ∀ taken, idSupply taken ≠ root)
    (fits : mayFail → canvas.1.IsMeasure ∧ canvas.2.IsMeasure) :
    (Contract.sound mayFail leastSide duplicateOffset zoomRange).Holds
      (new canvas leastSide duplicateOffset zoom zoomRange defaults idSupply depth) where
  good := {
    orderly := Store.isOrderly_clear (s := ⟨canvas.1, canvas.2, []⟩)
    measured := fun admitted => ⟨by simp [store, new], (fits admitted).1, (fits admitted).2⟩ }
  selected id found := by cases found
  drag g found := by cases found
  supply := unreserved
  least := rfl
  offset := rfl
  zoomRange := rfl
  project := trivial
  defaults := trivial

/-- **The structure of a session over whole runs.** Where no supplied id is that of the root, every
session that commands lead to has a forest of containers below the root with dense layers under
every parent, and what is selected is one of its nodes. Commands that failed may be among those
that were run where the sides of the surface and the least side fit. -/
theorem structure_of_reaches [Lawful α] (canvas : Value α × Value α)
    (leastSide duplicateOffset zoomRange : Value α) (zoom : α) (defaults : Project α)
    (idSupply : Nat → Text) (depth : Nat) (unreserved : ∀ taken, idSupply taken ≠ root) (mayFail : Prop)
    (fits : mayFail → canvas.1.IsMeasure ∧ canvas.2.IsMeasure ∧ leastSide.IsMeasure) (s : Session α)
    (reached : Reaches mayFail
      (new canvas leastSide duplicateOffset zoom zoomRange defaults idSupply depth) s) :
    s.store.IsForest ∧ (∀ parent, s.store.Layered parent) ∧
      ∀ id, s.selectedId = some id → id ∈ s.store.ids := by
  have kept : (Contract.sound mayFail leastSide duplicateOffset zoomRange).Kept :=
    Contract.kept_sound fun admitted => (fits admitted).2.2
  have holds := reached.holds kept
    (holds_new unreserved fun admitted => ⟨(fits admitted).1, (fits admitted).2.1⟩)
  exact ⟨holds.good.orderly.forest, holds.good.orderly.layered, holds.selected⟩

/-- A new project gets a frame, and what is no snapshot is loaded. -/
theorem structure_of_reaches_framed :
    let supply (taken : Nat) : Text := ("n" : Text) ++ Text.ofNat taken
    let first : Session Number :=
      new (.int 980, .int 620) (.int 20) (.int 20) Arith.one (.arr [.int 0, .int 2]) {} supply
    let framed := Edit.state (run (.createNode (.str "Frame")) (Edit.state (run .newProject first)))
    let s := Edit.state (run (.loadSnapshot .null) framed)
    s.store.IsForest ∧ (∀ parent, s.store.Layered parent) ∧
      ∀ id, s.selectedId = some id → id ∈ s.store.ids := by
  intro supply first framed s
  have fits : ∀ n : Int, n.natAbs ≤ 2 ^ 53 → (Value.int n : Value Number).IsMeasure := fun _ small =>
    Value.isMeasure_num.mpr (Lawful.fits_ofInt small)
  refine structure_of_reaches (.int 980, .int 620) (.int 20) (.int 20) (.arr [.int 0, .int 2])
    Arith.one {} supply usualDepth (fun taken => (Text.numbered_fresh taken).1) True
    (fun _ => ⟨fits 980 (by decide), fits 620 (by decide), fits 20 (by decide)⟩) s ?_
  refine ((Reaches.start.after ?_).after ?_).after ?_
  · exact trivial
  · exact trivial
  · exact fun records found => by cases found

end Session

end LayoutDesigner
