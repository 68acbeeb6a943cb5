import LayoutDesigner.Proofs.Loading
import LayoutDesigner.Proofs.Mended
import LayoutDesigner.Proofs.Regular
import LayoutDesigner.Proofs.Restore

/-!
# What is seen of a design that was saved

Edits and loads uphold that the record of a node is legible, its layer apart. So what is saved of a
session loads again where its zoom and its layers fit, and then the selection, the safe area and the
project are as before. The zoom is not: documents are read with a range of their own, whatever range the
session is configured with.
-/

namespace LayoutDesigner

open Arith

variable {α : Type} [Arith α] {depth : Nat}

/-- A number is legible exactly where it fits. -/
theorem Value.isLegible_num {a : α} : (Value.num a).IsLegible ↔ Fits a :=
  ⟨fun legible => legible a rfl, fun fits _ same => Value.num.inj same ▸ fits⟩

namespace Node

variable {n m : Node α} {f : Field} {v : Value α}

/-- The record of the node is legible, its measures and its layer apart. -/
structure IsRestorable (n : Node α) : Prop where
  id : n.id ≠ []
  styled : n.IsStyled
  bgColor : n.bgColor.InRange
  textColor : n.textColor.InRange
  extensions : n.HasTypedExtensions

variable [Lawful α]

/-- The style of a node fits after a property was written. -/
theorem IsStyled.setField (styled : n.IsStyled) (written : n.setField f v = .ok m) : m.IsStyled := by
  have integer : ∀ {default : α} {x : α}, v.toNumber (.num default) = .ok x → Fits (ofInt (max 0 (floorHalf x)) : α) := by
    intro default x isNumber
    rcases max_choice 0 (floorHalf x) with isZero | isRounded
    · rw [isZero]
      exact Lawful.fits_ofInt (by decide)
    · rw [isRounded]
      exact Lawful.fits_floorHalf (Value.isReal_toNumber isNumber)
  cases setField_iff.mp written with
  | bgAlpha typed =>
      exact { styled with bgAlpha := isReal_clamp (Value.isReal_toNumber typed) isReal_zero isReal_one }
  | canvasW typed => exact { styled with canvasW := integer typed }
  | canvasH typed => exact { styled with canvasH := integer typed }
  | scrollbarThickness typed => exact { styled with scrollbarThickness := integer typed }
  | _ => exact { styled with }

namespace IsRestorable

omit [Lawful α] in
/-- A change of place and sides alone leaves a node restorable. -/
theorem of_reshaped (restorable : n.IsRestorable) (reshaped : Reshaped n m) : m.IsRestorable where
  id := reshaped.id ▸ restorable.id
  styled := IsStyled.lasting.reshaped restorable.styled reshaped
  bgColor := reshaped.common Node.bgColor (fun _ _ => rfl) ▸ restorable.bgColor
  textColor := reshaped.common Node.textColor (fun _ _ => rfl) ▸ restorable.textColor
  extensions := (HasTypedExtensions.upheld fun _ => True).reshaped restorable.extensions reshaped

/-- A new node is restorable, where its id is not empty. -/
theorem of_created {kind : Kind} {id parent : Text} {z : Int} (named : id ≠ [])
    (created : Store.IsCreated kind id parent z n) : n.IsRestorable where
  id := created.id ▸ named
  styled := created.styled
  bgColor := created.bgColor ▸ Rgb.inRange_descriptor kind
  textColor := created.textColor ▸ Rgb.inRange_white
  extensions := by simp [HasTypedExtensions, created.extensions]

/-- A node that was read is restorable. -/
theorem of_read {d : List (Text × Value α)} (read : IsRead depth d n) : n.IsRestorable where
  id := read.named
  styled := read.styled
  bgColor := Rgb.inRange_ofValue (Rgb.inRange_descriptor _) read.bgColor
  textColor := Rgb.inRange_ofValue Rgb.inRange_white read.textColor
  extensions := plain_of_readExtensions read.extensions

/-- A node stays restorable when a property is written. -/
theorem setField (restorable : n.IsRestorable) (written : n.setField f v = .ok m) : m.IsRestorable := by
  have styled := restorable.styled.setField written
  cases setField_iff.mp written with
  | bgColor => exact { restorable with styled, bgColor := Rgb.inRange_typedColor v }
  | textColor => exact { restorable with styled, textColor := Rgb.inRange_typedColor v }
  | _ => exact { restorable with styled }

omit [Lawful α] in
/-- A node stays restorable with other extensions that are typed. -/
theorem setExtensions {extensions : List (Extension α)} (restorable : n.IsRestorable)
    (typed : HasTypedExtensions { n with extensions }) : IsRestorable { n with extensions } :=
  { restorable with styled := { restorable.styled with }, extensions := typed }

/-- Edits and loads uphold that a node is restorable. -/
theorem upheld : Upheld (fun id => id ≠ root ∧ id ≠ []) (IsRestorable (α := α)) :=
  let typed := HasTypedExtensions.upheld (α := α) fun id => id ≠ root ∧ id ≠ []
  { reshaped := of_reshaped
    setParent := fun parent restorable => { restorable with styled := IsStyled.lasting.setParent parent restorable.styled }
    setZ := fun z restorable => { restorable with styled := IsStyled.lasting.setZ z restorable.styled }
    created := fun fresh created => of_created fresh.2 created
    read := of_read
    copied := fun fresh _ restorable => { restorable with id := fresh.2, styled := { restorable.styled with } }
    relabelled := fun fresh restorable => restorable.setExtensions (typed.relabelled fresh restorable.extensions)
    setField := fun written restorable => restorable.setField written
    setText := fun _ restorable => { restorable with styled := { restorable.styled with } }
    extended := fun kind fresh restorable => restorable.setExtensions (typed.extended kind fresh restorable.extensions)
    filtered := fun stays restorable => restorable.setExtensions (typed.filtered stays restorable.extensions)
    writeProp := fun place key value restorable =>
      restorable.setExtensions (typed.writeProp place key value restorable.extensions) }

end IsRestorable

/-- The channels of a colour in range are legible. -/
theorem isLegible_channel {c : Rgb} (inRange : c.InRange) :
    ∀ channel ∈ Rgb.channelsOf (c.toRecord : Value α), channel.IsLegible := by
  have legible : ∀ {k : Int}, 0 ≤ k ∧ k ≤ 255 → (Value.int k : Value α).IsLegible := fun inRange =>
    Value.isLegible_num.mpr (Lawful.fits_ofInt ((by omega : Int.natAbs _ ≤ 255).trans (by decide)))
  have channels : Rgb.channelsOf (c.toRecord : Value α) = [.int c.r, .int c.g, .int c.b] := rfl
  rw [channels, List.forall_mem_cons, List.forall_mem_cons, List.forall_mem_singleton]
  exact ⟨legible inRange.r, legible inRange.g, legible inRange.b⟩

omit [Lawful α] in
/-- The records of typed extensions that can be copied are legible. -/
theorem hasLegibleItems_toRecord (typed : n.HasTypedExtensions) (copyable : n.IsCopyable depth) :
    HasLegibleItems depth (.arr (n.extensions.map Extension.toRecord)) := by
  intro item listed
  obtain ⟨e, isExtension, rfl⟩ := List.mem_map.mp listed
  obtain ⟨members, isRecord, read⟩ := Extension.ofRecord_toRecord (typed e isExtension) (copyable e isExtension)
  rw [isRecord, IsLegibleItem]
  by_contra illegible
  obtain ⟨fault, failed, -⟩ := Extension.ofRecord_of_not_legible illegible
  rw [read] at failed
  cases failed

/-- The record of a restorable node that can be copied is legible exactly where its layer fits. -/
theorem isLegible_toMembers (measured : n.IsMeasured) (restorable : n.IsRestorable) (copyable : n.IsCopyable depth) :
    IsLegible depth n.toMembers ↔ Fits (ofInt n.z : α) := by
  have styled := restorable.styled
  rw [toMembers_plain measured.plain, isLegible_iff]
  constructor
  · rintro ⟨numbers, -, -, -⟩
    exact Value.isLegible_num.mp (numbers "zIndex" (by decide))
  · intro layer
    refine ⟨?_, ?_, ?_, hasLegibleItems_toRecord restorable.extensions copyable⟩
    · simp only [numberKeys, List.forall_mem_cons]
      have number : ∀ {a : α}, Fits a → (Value.num a).IsLegible := Value.isLegible_num.mpr
      exact ⟨number measured.x, number measured.y, number measured.w, number measured.h, number measured.anchorX.fits,
        number measured.anchorY.fits, number layer, number styled.bgAlpha.fits, number styled.scrollbarThickness,
        List.forall_mem_nil _⟩
    · rw [List.forall_mem_cons, List.forall_mem_singleton]
      exact ⟨Value.isLegible_num.mpr styled.canvasW, Value.isLegible_num.mpr styled.canvasH⟩
    · rw [List.forall_mem_cons, List.forall_mem_singleton]
      exact ⟨isLegible_channel restorable.bgColor, isLegible_channel restorable.textColor⟩

end Node

namespace Snapshot

variable {s : Store α} {p fallback : Project α} {selected : Option Text} {zoom : α} {showSafeArea : Bool}
  {least : Value α} {data : Value α} {canvas : Value α × Value α} {loaded : Loaded α} {n : Node α}

/-- The records of a snapshot are those of the nodes. -/
theorem recordsOf_ofStore : recordsOf (ofStore s p selected (.num zoom) (.bool showSafeArea)) =
    s.nodes.map fun n => .obj n.toMembers := rfl

/-- The selected node is written where there is one. -/
theorem asId_ofStore : (((ofStore s p selected (.num zoom) (.bool showSafeArea)).get? "selectedId").getD .null).asId =
    .ok ((s.lookup selected).map Node.id) := by
  rw [ofStore]
  cases s.lookup selected <;> rfl

/-- The record of a plain node has its id. -/
theorem get?_id_toMembers (plain : n.unchecked = []) : (Value.obj n.toMembers).get? "id" = some (.str n.id) := by
  rw [Node.toMembers_plain plain]
  rfl

/-- No record of a snapshot has the root's id. -/
theorem unreserved_ofStore (unreserved : root ∉ s.ids) (plain : s.IsPlain) :
    Unreserved depth (ofStore s p selected (.num zoom) (.bool showSafeArea)) := by
  refine SparesRoot.unreserved ?_
  rintro records isRecords record listed isRoot
  obtain rfl : s.nodes.map (fun n => .obj n.toMembers) = records := Value.arr.inj (Option.some.inj isRecords)
  obtain ⟨n, isNode, rfl⟩ := List.mem_map.mp listed
  rw [get?_id_toMembers (plain n isNode), Option.some_inj, Value.str.injEq] at isRoot
  exact unreserved (isRoot ▸ Store.id_mem_ids isNode)

/-- The selection and the safe area that are read from an accepted document. -/
theorem view_of_read {id? : Option Text} (read : Snapshot.read data canvas fallback least depth = .ok loaded)
    (selects : ((data.get? "selectedId").getD .null).asId = .ok id?) :
    loaded.selectedId = (loaded.store.lookup id?).map Node.id ∧
      loaded.showSafeArea = ((data.get? "showSafeArea").getD (.bool false)).truthy := by
  obtain ⟨_, selected, -, -, isSelected, found, -, -, shown⟩ := steps_of_read read
  obtain rfl := Except.ok.inj (selects.symm.trans isSelected)
  exact ⟨found, shown⟩

section

variable [Lawful α] [Refuses α]

omit [Refuses α] in
/-- The record of a restorable node that can be copied is legible exactly where its layer fits. -/
theorem isLegibleRecord_toMembers (measured : n.IsMeasured) (restorable : n.IsRestorable)
    (copyable : n.IsCopyable depth) : IsLegibleRecord depth (.obj n.toMembers) ↔ Fits (ofInt n.z : α) :=
  (forall_prop_of_true (Node.recordProblems_toMembers measured.plain restorable.id)).trans
    (Node.isLegible_toMembers measured restorable copyable)

/-- What was saved of restorable nodes that can be copied is read exactly where their layers and the zoom fit. -/
theorem reads_ofStore [KnowsInts α] (unreserved : root ∉ s.ids) (measured : s.IsMeasured)
    (restorable : s.All Node.IsRestorable) (copyable : s.IsCopyable depth) (typed : p.IsTyped)
    (leastMeasure : least.IsMeasure) :
    ReadsWhen
      (Snapshot.read (ofStore s p selected (.num zoom) (.bool showSafeArea)) (s.canvasW, s.canvasH) fallback
        least depth)
      ((∀ n ∈ s.nodes, Fits (ofInt n.z : α)) ∧ Fits zoom) := by
  have records :
      (∀ record ∈ recordsOf (ofStore s p selected (.num zoom) (.bool showSafeArea)),
        IsLegibleRecord depth record) ↔
      ∀ n ∈ s.nodes, Fits (ofInt n.z : α) := by
    rw [recordsOf_ofStore, List.forall_mem_map]
    exact forall₂_congr fun n isNode =>
      isLegibleRecord_toMembers (measured.nodes n isNode) (restorable n isNode) (copyable n isNode)
  rw [read_of_accepted (snapshotProblems_ofStore typed selected zoom showSafeArea)]
  refine ((reads_readRecords [] 0 _).bind fun kept isRead => ?_).congr (and_congr records Value.isLegible_num)
  obtain ⟨rehomed, t, repaired, -⟩ := (Store.ends_repair (measured_readRecords measured.canvasW measured.canvasH isRead)
    (readRecords_ok isRead).1 (unreserved_ofStore unreserved measured.isPlain kept isRead) leastMeasure).ok
  have answered : Edit.answer (Store.repair least { canvasW := s.canvasW, canvasH := s.canvasH, nodes := kept.1 }) =
      .ok rehomed := by
    rw [repaired]
    rfl
  exact .known answered <| .known asId_ofStore <| (reads_readZoom (.num zoom)).then_ok fun _ _ => ⟨_, rfl⟩

/-- What was saved of restorable nodes gives them again, each with its id. -/
theorem mem_ids_read (unreserved : root ∉ s.ids) (plain : s.IsPlain) (restorable : s.All Node.IsRestorable)
    (read : Snapshot.read (ofStore s p selected (.num zoom) (.bool showSafeArea)) canvas fallback least depth =
      .ok loaded)
    (isNode : n ∈ s.nodes) : n.id ∈ loaded.store.ids := by
  obtain ⟨nodes, isRead, ran, -⟩ := read_ok read
  have repaired := (Store.repair_ends (plain_readRecords isRead) (readRecords_ok isRead).1
    (unreserved_ofStore unreserved plain _ isRead) least).returned ran
  have given : n.id ∈ nodes.map Node.id :=
    (mem_ids_of_record isRead (List.mem_map_of_mem isNode)
      (Node.recordProblems_toMembers (plain n isNode) (restorable n isNode).id)
      (get?_id_toMembers (plain n isNode))).resolve_left List.not_mem_nil
  exact Store.ids_repaired repaired ▸ given

/-- What is seen of restorable nodes is read as it was saved, but for the zoom. -/
theorem view_ofStore (unreserved : root ∉ s.ids) (plain : s.IsPlain) (restorable : s.All Node.IsRestorable) (typed : p.IsTyped)
    (known : ∀ id, selected = some id → id ∈ s.ids)
    (read : Snapshot.read (ofStore s p selected (.num zoom) (.bool showSafeArea)) canvas p least depth = .ok loaded) :
    loaded.selectedId = selected ∧ loaded.showSafeArea = showSafeArea ∧ loaded.project = p ∧
      readZoom (.num zoom) = .ok loaded.zoom := by
  obtain ⟨_, -, -, -, project, isZoom⟩ := read_ok read
  obtain ⟨selects, isShown⟩ := view_of_read read asId_ofStore
  refine ⟨selects.trans ?_, isShown, project.trans (Project.ofValue_toValue typed), isZoom⟩
  cases selected with
  | none => rfl
  | some id =>
      obtain ⟨n, found⟩ := Store.exists_find? (known id rfl)
      have isNode := mem_ids_read unreserved plain restorable read (Store.mem_of_find? found)
      obtain ⟨m, found'⟩ := Store.exists_find? (Store.id_of_find? found ▸ isNode)
      simp [Store.lookup, found, found', Store.id_of_find? found, Store.id_of_find? found']

end

/-- The zoom is a finite real that is left as it is where it is kept in the range of documents and in the
range from `low` to `high`. -/
structure KeepsZoom (low high zoom : α) : Prop where
  isReal : IsReal zoom
  finite : isFinite zoom
  written : clamp zoom zoomRange.1 zoomRange.2 = zoom
  configured : clamp zoom low high = zoom

/-- A zoom that is kept is read as it is. -/
theorem KeepsZoom.read {low high : α} (keeps : KeepsZoom low high zoom) : readZoom (.num zoom) = .ok zoom := by
  have isNumber : (Value.num zoom).toNumber (.num one) = .ok zoom := by
    have isReal : toReal zoom = .ok zoom := keeps.isReal
    simp only [Value.toNumber, Value.asReal, isReal, keeps.finite, if_true]
  exact bind_eq_ok.mpr ⟨zoom, isNumber, congrArg Except.ok keeps.written⟩

end Snapshot

namespace Session

/-- **Saving and loading keeps the view but for the zoom.** Take any session that commands lead to, from a
typed project and with fresh ids. Its snapshot is taken exactly where its extensions can be copied. Where
they can be and all layers and the zoom fit, the snapshot loads into it, and then the selection, the safe
area and all metadata of the project are as before. The zoom is first kept in the range of documents and
then in that of the session, so it is as before where it is in both. Where a layer or the zoom does not
fit, loading fails and changes nothing. -/
theorem view_of_runAll [Refuses α] [Lawful α] [KnowsInts α] (canvas : Value α × Value α)
    (leastSide duplicateOffset : Value α) (zoom low high : α) (defaults : Project α) (idSupply : Nat → Text)
    (depth : Nat) (width : canvas.1.IsMeasure) (height : canvas.2.IsMeasure) (leastMeasure : leastSide.IsMeasure)
    (typed : defaults.IsTyped) (fresh : ∀ taken, idSupply taken ≠ root ∧ idSupply taken ≠ [])
    (commands : List (Command α)) :
    let s := runAll commands
      (new canvas leastSide duplicateOffset zoom (.arr [.num low, .num high]) defaults idSupply depth)
    let fits := (∀ n ∈ s.store.nodes, Fits (ofInt n.z : α)) ∧ Fits s.stage.zoom
    (s.takeSnapshot = .ok s.snapshot ↔ s.store.IsCopyable depth) ∧ (s.store.IsCopyable depth →
      (fits → ∃ t kept, loadSnapshot s.snapshot s = .ok true t ∧ t.selectedId = s.selectedId ∧
        t.showSafeArea = s.showSafeArea ∧ t.project = s.project ∧ Snapshot.readZoom (.num s.stage.zoom) = .ok kept ∧
        t.stage.zoom = clamp kept low high ∧
        (Snapshot.KeepsZoom low high s.stage.zoom → t.stage.zoom = s.stage.zoom)) ∧
      (¬fits → ∃ fault, loadSnapshot s.snapshot s = .error fault s ∧ fault.StopsReading)) := by
  intro s fits
  have sameDepth : s.depth = depth := depth_runAll ..
  have holds : ((Contract.typed leastSide duplicateOffset (.arr [.num low, .num high])).upholding Node.IsRestorable).Holds s :=
    (holds_upholding_new width height typed fresh).runAll
      (Contract.kept_upholding (Contract.kept_typed leastMeasure) (fun good => good.orderly) (fun start => start.1)
        Node.IsRestorable.upheld) trivial commands
  have measured := holds.good.1.measured trivial
  have unreserved := holds.good.1.orderly.forest.unreserved
  have isTyped : s.project.IsTyped := holds.project
  refine ⟨sameDepth ▸ takeSnapshot_ok_iff measured.isPlain, fun copyable => ?_⟩
  have reads : ReadsWhen
      (Snapshot.read s.snapshot (s.store.canvasW, s.store.canvasH) s.project s.stage.leastSide s.depth) fits :=
    Snapshot.reads_ofStore unreserved measured holds.good.2 (sameDepth ▸ copyable) isTyped
      (holds.least ▸ leastMeasure)
  constructor
  · intro holdsFits
    obtain ⟨loaded, read⟩ := reads.returns.mpr holdsFits
    obtain ⟨selected, isShown, project, isZoom⟩ :=
      Snapshot.view_ofStore unreserved measured.isPlain holds.good.2 isTyped holds.selected read
    obtain ⟨t, ran, -, sameProject, sameSelected, sameShown, isClamped⟩ :=
      loadSnapshot_shows read holds.zoomRange (Snapshot.isReal_zoom read)
    refine ⟨t, loaded.zoom, ran, sameSelected.trans selected, sameShown.trans isShown, sameProject.trans project, isZoom,
      isClamped, fun keeps => ?_⟩
    have same : loaded.zoom = s.stage.zoom := Except.ok.inj (isZoom.symm.trans keeps.read)
    rw [isClamped, same, keeps.configured]
  · intro notFits
    cases isRead : Snapshot.read s.snapshot (s.store.canvasW, s.store.canvasH) s.project s.stage.leastSide
        s.depth with
    | ok loaded => exact absurd (reads.returns.mp ⟨loaded, isRead⟩) notFits
    | error fault =>
        have stops : fault.StopsReading := reads.stops isRead
        exact ⟨fault, loadSnapshot_fails isRead (Fault.StopsReading.isUsable stops), stops⟩

/-- A session with a selected frame whose zoom may go from a tenth to four, and was set. -/
def zoomedTo (zoom : Number) : Session Number :=
  runAll [.createNode (.str "Frame"), .setShowSafeArea (.bool true), .setZoom (.num zoom)]
    (new (.int 980, .int 620) (.int leastSide) (.int 12) one (.arr [.num (ofDecimal 1 1), .num (ofInt 4)]) {}
      fun taken => ("n" : Text) ++ Text.ofNat taken)

/-- A zoom of one and a half is in both ranges. -/
theorem view_of_runAll_enlarged :
    ∃ t, (zoomedTo (ofDecimal 15 1)).takeSnapshot = .ok (zoomedTo (ofDecimal 15 1)).snapshot ∧
      loadSnapshot (zoomedTo (ofDecimal 15 1)).snapshot (zoomedTo (ofDecimal 15 1)) = .ok true t ∧
      t.selectedId = some "n0" ∧ t.showSafeArea = true ∧ t.stage.zoom = ofDecimal 15 1 := by
  have fits : ∀ n : Int, n.natAbs ≤ 2 ^ 53 → (Value.int n : Value Number).IsMeasure := fun _ small =>
    Value.isMeasure_num.mpr (Lawful.fits_ofInt small)
  obtain ⟨selects, isShown, isZoom⟩ : (zoomedTo (ofDecimal 15 1)).selectedId = some "n0" ∧
      (zoomedTo (ofDecimal 15 1)).showSafeArea = true ∧ (zoomedTo (ofDecimal 15 1)).stage.zoom = ofDecimal 15 1 := by
    decide +kernel
  have keeps : Snapshot.KeepsZoom (ofDecimal 1 1) (ofInt 4) (zoomedTo (ofDecimal 15 1)).stage.zoom := by
    rw [isZoom]
    exact ⟨rfl, rfl, rfl, rfl⟩
  obtain ⟨takes, restores⟩ := view_of_runAll (.int 980, .int 620) (.int leastSide) (.int 12) one
    (ofDecimal 1 1) (ofInt 4) {} _ usualDepth (fits 980 (by decide)) (fits 620 (by decide))
    (fits leastSide (by decide)) ⟨⟨_, rfl⟩, ⟨_, rfl⟩, ⟨_, rfl⟩, ⟨_, rfl⟩⟩ Text.numbered_fresh
    [.createNode (.str "Frame"), .setShowSafeArea (.bool true), .setZoom (.num (ofDecimal 15 1))]
  have copyable : (zoomedTo (ofDecimal 15 1)).store.IsCopyable usualDepth := by decide +kernel
  obtain ⟨t, kept, ran, sameSelected, sameShown, -, -, -, sameZoom⟩ := (restores copyable).1 (by decide +kernel)
  rw [zoomedTo] at keeps isZoom
  exact ⟨t, takes.mpr copyable, ran, sameSelected.trans selects, sameShown.trans isShown, (sameZoom keeps).trans isZoom⟩

/-- A zoom of three is in the range of the session but not in that of documents. -/
theorem loadSnapshot_shrinks :
    let s := zoomedTo (ofDecimal 3 0)
    s.stage.zoom = ofDecimal 3 0 ∧ s.takeSnapshot = .ok s.snapshot ∧
      (Edit.answer (loadSnapshot s.snapshot s)).toOption = some true ∧
      (Edit.state (loadSnapshot s.snapshot s)).stage.zoom = ofDecimal 2 0 := by
  intro s
  refine ⟨by decide +kernel, ?_, by decide +kernel, by decide +kernel⟩
  exact (takeSnapshot_ok_iff (show s.store.IsPlain by decide +kernel)).mpr (by decide +kernel)

end Session

end LayoutDesigner
