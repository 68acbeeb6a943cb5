import LayoutDesigner.Proofs.Extended
import LayoutDesigner.Proofs.Mended

/-!
# Loading what was saved

In an orderly store no link is broken and all layers are dense, so a repair finds nothing to do but
to clamp. Where arithmetic is faithful, loading what was saved of a session therefore drops no record
and moves no node to another parent, and all that may change is where nodes are and how large they are.
-/

namespace LayoutDesigner

open Arith (Faithful)

namespace Store

variable {α : Type} {s : Store α} {parent : Text}

/-- A plain node on its own layer stays as it is. -/
theorem setZ_self {n : Node α} (plain : n.unchecked = []) : n.setZ n.z = n := by
  rw [Node.setZ, Node.checked_plain plain]

variable [Arith α]

/-- The layers from one on are sorted. -/
theorem firstLayers_sorted (count : Nat) : (firstLayers count).Pairwise (· ≤ ·) := by
  rw [firstLayers, List.pairwise_map]
  refine List.pairwise_lt_range.imp fun less => ?_
  omega

/-- In drawing order, dense layers are 1, 2, … -/
theorem layers_childrenOf (plain : s.IsPlain) (layered : s.Layered parent) :
    (s.childrenOf parent).map Node.z = firstLayers (s.childrenOf parent).length := by
  have sorted : ((s.childrenOf parent).map Node.z).Pairwise (· ≤ ·) := by
    rw [List.pairwise_map]
    refine (childrenOf_sorted plain parent).imp fun before => ?_
    rw [Node.drawnBefore_iff] at before
    omega
  have perm : ((s.childrenOf parent).map Node.z).Perm (firstLayers (s.childrenOf parent).length) := by
    rw [childrenOf_perm.length_eq]
    exact (childrenOf_perm.map _).trans layered
  exact perm.eq_of_pairwise (fun _ _ _ _ le ge => le_antisymm le ge) sorted (firstLayers_sorted _)

/-- Where layers are dense, a child is on the layer of its place among its siblings. -/
theorem z_of_layered (plain : s.IsPlain) (distinct : s.ids.Nodup) {n : Node α} (layered : s.Layered n.parent)
    (isNode : n ∈ s.nodes) : n.z = ((s.childIds n.parent).idxOf n.id : Int) + 1 := by
  obtain ⟨i, inside, isHere⟩ := List.mem_iff_getElem.mp (mem_childrenOf.mpr ⟨isNode, rfl⟩)
  have position : (s.childIds n.parent).idxOf n.id = i := by
    have within : i < (s.childIds n.parent).length := by simpa [childIds] using inside
    have listed : (s.childIds n.parent)[i] = n.id := by simp [childIds, isHere]
    rw [← listed, (nodup_childIds distinct n.parent).idxOf_getElem]
  have layers := congrArg (·[i]?) (layers_childrenOf plain layered)
  rw [position]
  simpa [firstLayers, inside, isHere] using layers

/-- Renumbering dense layers changes nothing. -/
theorem normalizeZ_eq_self (plain : s.IsPlain) (distinct : s.ids.Nodup) (layered : s.Layered parent) :
    s.normalizeZ parent = s := by
  have same : ∀ n ∈ s.nodes, (if (s.childIds parent).elem n.id then
      n.setZ (((s.childIds parent).idxOf n.id : Int) + 1) else n) = n := by
    intro n isNode
    split
    · next listed =>
        obtain rfl := (id_mem_childIds distinct isNode).mp (List.elem_iff.mp listed)
        rw [← z_of_layered plain distinct layered isNode, setZ_self (plain n isNode)]
    · rfl
  rw [normalizeZ, numberBy, List.map_congr_left same, List.map_id']

/-- In an orderly store all layers are numbered already. -/
theorem normalizeAll_eq_self (orderly : s.IsOrderly) : s.normalizeAll = s := by
  rw [normalizeAll_eq_foldl]
  induction root :: s.ids with
  | nil => rfl
  | cons parent rest ih =>
      rw [List.foldl_cons, normalizeZ_eq_self orderly.plain orderly.forest.distinct (orderly.layered parent)]
      exact ih

/-- In a forest nothing is lifted from a leaf. -/
theorem liftFromLeaves_eq_self (forest : s.IsForest) (ids : List Text) :
    (liftFromLeaves ids).Ends s (fun lifted t => lifted = [] ∧ t = s) fun _ _ => False := by
  induction ids with
  | nil => exact ⟨rfl, rfl⟩
  | cons id rest ih =>
      unfold liftFromLeaves
      simp only [Edit.ends_bind, Edit.ends_get]
      split
      · exact ih
      · next n found =>
          have accepts : s.parentRefuses n = false := by
            rw [parentRefuses]
            rcases forest.contained n (mem_of_find? found) with isRoot | ⟨p, isParent, same, isContainer⟩
            · rw [isRoot, find?_eq_none.mpr forest.unreserved]
              rfl
            · rw [← same, find?_of_mem forest.distinct isParent]
              simp [isContainer]
          rw [accepts]
          exact ih

/-- Repairing an orderly store only clamps it. -/
theorem repair_orderly {least : Value α} {t : Store α} (orderly : s.IsOrderly)
    (clamped : clampSubtree root least s = .ok () t) : repair least s = .ok [] t := by
  have reshaped : Reshaped s t := (keeps_clampSubtree s).returned clamped
  have ends : (repair least).Ends s (fun rehomed u => rehomed = [] ∧ u = t) fun _ _ => False := by
    unfold repair
    simp only [Edit.ends_bind, Edit.ends_get, cutDangling_eq_self orderly.forest.isRooted,
      cutCycles_eq_self orderly.forest.isRooted, Edit.ends_set]
    refine (liftFromLeaves_eq_self orderly.forest s.ids).mono ?_ fun _ _ fails => fails
    rintro lifted _ ⟨rfl, rfl⟩
    rw [Edit.ends_of_ok clamped]
    exact ⟨rfl, normalizeAll_eq_self ((Alike.of_reshaped reshaped).orderly orderly)⟩
  obtain ⟨_, _, ran, rfl, rfl⟩ := ends.ok
  exact ran

/-- In an orderly store of mended nodes every record reads back. -/
theorem IsOrderly.readable (orderly : s.IsOrderly) (mended : s.All Node.IsMended) :
    ∀ n ∈ s.nodes, n.IsMended ∧ n.parent ≠ [] ∧ 1 ≤ n.z := by
  intro n isNode
  refine ⟨mended n isNode, ?_, ?_⟩
  · rcases orderly.forest.contained n isNode with isRoot | ⟨p, isParent, same, -⟩
    · rw [isRoot]
      decide
    · exact same ▸ (mended p isParent).id
  · have isLayer : n.z ∈ (s.children n.parent).map Node.z :=
      List.mem_map_of_mem (mem_children.mpr ⟨isNode, rfl⟩)
    rw [(orderly.layered n.parent).mem_iff, firstLayers] at isLayer
    obtain ⟨i, -, isLayer⟩ := List.mem_map.mp isLayer
    omega

end Store

variable {α : Type} [Arith α] [Faithful α] {depth : Nat}

/-- The snapshot of a design is read, no record is dropped and no node gets another parent. What the
records give differs from the design at most in measures that are not finite; then it is clamped. -/
theorem Snapshot.read_ofStore {s : Store α} {p : Project α} (fallback : Project α) {least : Value α} (orderly : s.IsOrderly)
    (mended : s.All Node.IsMended) (width : s.canvasW.IsMeasure) (height : s.canvasH.IsMeasure)
    (leastMeasure : least.IsMeasure) (typed : p.IsTyped) (copyable : s.IsCopyable depth) (selected : Option Text)
    (zoom : α) (showSafeArea : Bool) :
    ∃ given loaded, Store.Reshaped s given ∧ (s.All Node.IsFinite → given = s) ∧
      Snapshot.read (ofStore s p selected (.num zoom) (.bool showSafeArea)) (s.canvasW, s.canvasH) fallback least
        depth = .ok loaded ∧
      Store.clampSubtree root least given = .ok () loaded.store ∧ loaded.dropped = [] ∧ loaded.rehomed = [] ∧
      loaded.project = Project.ofValue p.toValue fallback := by
  obtain ⟨nodes, records, reshaped, same⟩ := readRecords_toMembers 0 orderly.forest.distinct
    (fun _ _ => List.not_mem_nil) (orderly.readable mended) copyable
  have given : Store.Reshaped s { s with nodes } := ⟨rfl, rfl, reshaped⟩
  have orderly' := (Store.Alike.of_reshaped given).orderly orderly
  have replaced : ({ canvasW := s.canvasW, canvasH := s.canvasH } : Store α).replaceAll nodes = { s with nodes } :=
    Store.replaceAll_eq orderly'.forest.distinct
  obtain ⟨_, t, clamped, -⟩ := (Store.ends_clampSubtree (Store.isMeasured_of_plain orderly'.plain width height)
    orderly'.forest.isRooted leastMeasure (.inl rfl)).ok
  obtain ⟨id?, isSelected⟩ : ∃ id?, (((ofStore s p selected (.num zoom) (.bool showSafeArea)).get?
      "selectedId").getD .null).asId = .ok id? := by
    rw [ofStore]
    cases s.lookup selected <;> exact ⟨_, rfl⟩
  have isZoom : ∃ kept, readZoom (.num zoom) = .ok kept :=
    ⟨_, congrArg (· >>= fun v => Except.ok (Arith.clamp v zoomRange.1 zoomRange.2)) (Value.toNumber_num zoom Arith.one)⟩
  obtain ⟨kept, isZoom⟩ := isZoom
  refine ⟨_, ⟨t, Project.ofValue p.toValue fallback, (t.lookup id?).map Node.id, kept, showSafeArea, [], []⟩, given,
    fun finite => by rw [same finite], ?_, clamped, rfl, rfl, rfl⟩
  unfold Snapshot.read
  simp only [snapshotProblems_ofStore typed]
  refine bind_eq_ok.mpr ⟨_, records, ?_⟩
  simp only [replaced, Store.repair_orderly orderly' clamped]
  exact bind_eq_ok.mpr ⟨[], rfl, bind_eq_ok.mpr ⟨id?, isSelected, bind_eq_ok.mpr ⟨kept, isZoom, rfl⟩⟩⟩

namespace Session

omit [Faithful α] in
/-- Taking the snapshot of typed nodes needs room for the copies of their extensions and for nothing else. -/
theorem takeSnapshot_eq {s : Session α} (plain : s.store.IsPlain) :
    s.takeSnapshot = Value.roomFor (s.store.IsCopyable s.depth) s.snapshot := by
  have colors : ∀ nodes : List (Node α), (∀ n ∈ nodes, n.unchecked = []) → nodes.forM Node.needColors = .ok () := by
    intro nodes plain
    induction nodes with
    | nil => rfl
    | cons n rest ih =>
        obtain ⟨isPlain, others⟩ := List.forall_mem_cons.mp plain
        have first : n.needColors = .ok () := by
          simp only [Node.needColors, Node.needColor, isPlain, Unchecked.value?, List.find?_nil, Option.map_none]
          rfl
        change (n.needColors >>= fun _ => rest.forM Node.needColors) = _
        rw [first]
        exact ih others
  rw [takeSnapshot, Store.needColors, colors _ plain, Store.needCopies_eq]
  exact Value.roomFor_map fun _ => s.snapshot

omit [Faithful α] in
/-- The snapshot of typed nodes is taken exactly where their extensions can be copied. -/
theorem takeSnapshot_ok_iff {s : Session α} (plain : s.store.IsPlain) :
    s.takeSnapshot = .ok s.snapshot ↔ s.store.IsCopyable s.depth :=
  takeSnapshot_eq plain ▸ Value.roomFor_eq_ok

end Session

end LayoutDesigner
