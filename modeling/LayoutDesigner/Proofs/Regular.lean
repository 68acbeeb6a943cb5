import LayoutDesigner.Proofs.Export
import LayoutDesigner.Proofs.Property
import LayoutDesigner.Proofs.Worklist

/-!
# Edits that raise nothing after they have written

A store is regular where its measures fit and no two nodes have one id. Its links need not be a forest:
a session may be supplied with the id of the root, and then clamping what is within a node may have no
end. Each edit of a regular store computes what can fail before it writes, and what it computes
afterwards raises nothing.
-/

namespace LayoutDesigner

open Arith

variable {α : Type} [Arith α]

/-- The failure is raised. The one that is not stands for a run that has no end. -/
def Fault.IsRaised (fault : Fault) : Prop := fault ≠ .endless

namespace Store

variable {s t : Store α} {id other parent : Text} {n m : Node α} {least : Value α} {β : Type}

/-- The measures fit, and no two nodes have one id. -/
structure IsRegular (s : Store α) : Prop extends s.IsMeasured where
  distinct : s.ids.Nodup

/-- The edit leaves a regular store; where it raises a failure, this is the store that it began with. -/
def Spares (edit : Edit (Store α) β) (s : Store α) : Prop :=
  edit.Ends s (fun _ t => t.IsRegular) fun fault t => t.IsRegular ∧ (fault.IsRaised → t = s)

/-- What a script says of a new node fits. -/
theorem IsCreated.styled [Lawful α] {kind : Kind} {id parent : Text} {z : Int}
    (created : IsCreated kind id parent z n) : n.IsStyled := by
  have small : ∀ {k : Int}, k.natAbs ≤ 1000 → Fits (Arith.ofInt k : α) := fun small =>
    Lawful.fits_ofInt (small.trans (by decide))
  obtain ⟨isW, isH⟩ := Prod.mk.inj created.canvas
  refine ⟨created.bgAlpha ▸ isReal_one, isW ▸ small ?_, isH ▸ small ?_, created.scrollbarThickness ▸ small ?_⟩
  all_goals cases kind <;> decide

namespace IsRegular

/-- A change of places and sides that leaves a regular store measured leaves it regular. -/
theorem reshaped (regular : s.IsRegular) (reshaped : Reshaped s t) (measured : t.IsMeasured) : t.IsRegular :=
  ⟨measured, reshaped.ids ▸ regular.distinct⟩

/-- Renumbering siblings leaves a store regular. -/
theorem normalizeZ (regular : s.IsRegular) : (s.normalizeZ parent).IsRegular :=
  ⟨regular.toIsMeasured.normalizeZ, (ids_normalizeZ (s := s)).symm ▸ regular.distinct⟩

/-- A change of one node that keeps its id and its measures leaves a store regular. -/
theorem modifyNode {f : Node α → Node α} (regular : s.IsRegular) (keepsId : ∀ n, (f n).id = n.id)
    (changed : ∀ n, n.IsMeasured → (f n).IsMeasured) : (s.modifyNode id f).IsRegular :=
  ⟨regular.toIsMeasured.modifyNode id changed, (ids_modifyNode keepsId).symm ▸ regular.distinct⟩

/-- A measured node with a new id is added to a regular store. -/
theorem add (regular : s.IsRegular) (isMeasured : n.IsMeasured) (fresh : n.id ∉ s.ids) :
    IsRegular { s with nodes := s.nodes ++ [n] } where
  nodes := All.add regular.nodes isMeasured
  canvasW := regular.canvasW
  canvasH := regular.canvasH
  distinct := by
    rw [ids, List.map_append, List.map_singleton, List.nodup_append]
    refine ⟨regular.distinct, List.nodup_singleton _, fun other listed last isLast same => fresh ?_⟩
    exact List.mem_singleton.mp isLast ▸ same ▸ listed

variable [Lawful α]

/-- The least side is a measure. -/
theorem leastMeasure : (Value.int leastSide : Value α).IsMeasure :=
  Value.isMeasure_num.mpr (Lawful.fits_ofInt (by decide))

/-- Clamping everything below a node raises nothing. -/
theorem clampSubtree (regular : s.IsRegular) (leastMeasure : least.IsMeasure) (id : Text) :
    (clampSubtree id least).Ends s (fun _ t => t.IsRegular) fun fault t => t.IsRegular ∧ ¬fault.IsRaised :=
  ((measured_clampSubtree regular.toIsMeasured leastMeasure id).and (keeps_clampSubtree s)).mono
    (fun _ _ both => regular.reshaped both.2 both.1) fun _ _ both =>
      ⟨regular.reshaped both.2 both.1.1, fun raised => raised both.1.2⟩

/-- An edit that ends with such a clamping spares the store that it began with. -/
theorem spares_clampSubtree (regular : t.IsRegular) (leastMeasure : least.IsMeasure) (id : Text)
    {done : Unit → Store α → Prop} (rest : ∀ u, u.IsRegular → done () u) :
    (Store.clampSubtree id least).Ends t done fun fault u => u.IsRegular ∧ (fault.IsRaised → u = s) :=
  (regular.clampSubtree leastMeasure id).mono (fun _ u isRegular => rest u isRegular)
    fun _ _ fails => ⟨fails.1, fun raised => absurd raised fails.2⟩

/-- Moving a node to another parent leaves a store regular, and spares the nodes if it fails. -/
theorem reparent (regular : s.IsRegular) (id parent : Text) : Spares (reparent id parent) s := by
  refine ends_reparent_of_measured regular.distinct regular.toIsMeasured regular fun _ _ _ x y z xFits yFits => ?_
  have sameIds : (s.modifyNode id (·.movedTo parent x y z)).ids = s.ids :=
    ids_modifyNode fun n => n.id_movedTo parent x y z
  have moved : (s.modifyNode id (·.movedTo parent x y z)).IsRegular :=
    ⟨regular.toIsMeasured.movedTo xFits yFits, sameIds.symm ▸ regular.distinct⟩
  exact moved.spares_clampSubtree leastMeasure id fun _ isRegular => isRegular.normalizeZ.normalizeZ

/-- Moving a node beside another one leaves a store regular, and spares the nodes if it fails. -/
theorem reorderRelative (regular : s.IsRegular) (id other : Text) (position : DropPosition) :
    Spares (reorderRelative id other position) s :=
  ends_reorderRelative IsRegular (fun holds => ⟨holds.isPlain, holds.distinct⟩) regular (regular.reparent _ _)
    (fun {t order} _ holds _ => by
      have sameIds : (t.numberBy order).ids = t.ids := ids_congr links_numberBy
      exact ⟨holds.toIsMeasured.numberBy, sameIds.symm ▸ holds.distinct⟩) position

/-- Writing a property leaves a store regular, and spares the nodes if it fails. -/
theorem applyField (regular : s.IsRegular) (id name : Text) (v : Value α) : Spares (applyField id name v) s := by
  refine ends_applyField regular.isPlain (fun _ => ⟨regular, fun _ => rfl⟩) regular fun n f m found written => ?_
  have adjusted := Adjusted.put found (id_of_find? found ▸ Node.adjusted_setField written)
  have changed : (s.put m).IsRegular :=
    ⟨regular.put ((regular.of_find? found).setField written), ids_congr adjusted.links ▸ regular.distinct⟩
  split
  · exact changed.normalizeZ.spares_clampSubtree leastMeasure id fun _ isRegular => isRegular
  · exact changed.spares_clampSubtree leastMeasure id fun _ isRegular => isRegular

omit [Lawful α] in
/-- Changing places with a neighbour leaves a store regular and never fails. -/
theorem swapWithNeighbor (regular : s.IsRegular) (id : Text) (up : Bool) :
    (swapWithNeighbor id up).Ends s (fun _ t => t.IsRegular) fun _ _ => False := by
  refine ends_swapWithNeighbor regular.isPlain (fun _ => regular) fun n m _ _ => ?_
  have first : (s.modifyNode id (·.setZ m.z)).IsRegular :=
    regular.modifyNode (fun _ => rfl) fun _ measured => measured.setZ m.z
  have second : ((s.modifyNode id (·.setZ m.z)).modifyNode m.id (·.setZ n.z)).IsRegular :=
    first.modifyNode (fun _ => rfl) fun _ measured => measured.setZ n.z
  exact second.normalizeZ

omit [Lawful α] in
/-- Removing a node does not fail. -/
theorem deleteSubtree (regular : s.IsRegular) (id : Text) :
    (deleteSubtree id).Ends s (fun _ t => t.IsRegular) fun _ _ => False :=
  ends_deleteSubtree regular.isPlain (fun _ => regular) fun _ _ =>
    have rest : (s.removeAll (s.subtreeIds id)).IsRegular :=
      { nodes := All.removeAll regular.nodes _
        canvasW := regular.canvasW
        canvasH := regular.canvasH
        distinct := regular.distinct.sublist (List.filter_sublist.map _) }
    rest.normalizeZ

/-- A node with a real anchor is placed, or it is refused and nothing is changed. -/
theorem place (regular : s.IsRegular) (plain : n.unchecked = []) (anchorX : IsReal n.anchorX)
    (anchorY : IsReal n.anchorY) :
    (Store.place n).Ends s (fun _ t => t.IsRegular) fun _ t => t = s :=
  ends_place_of plain (fun _ => rfl) fun _ clamped fresh =>
    regular.add (measured_of_clampLoose regular.toIsMeasured leastMeasure plain anchorX anchorY clamped)
      ((reshaped_of_clampLoose clamped).id ▸ fresh)

/-- Creating a node leaves a store regular, and changes nothing if it fails. -/
theorem createNode (regular : s.IsRegular) (kind : Value α) (id parent : Text) :
    (createNode kind id parent).Ends s (fun _ t => t.IsRegular) fun _ t => t = s :=
  ends_createNode_of regular.isPlain (fun _ => rfl) fun _ _ created =>
    regular.place created.plain (created.anchorX ▸ isReal_half) (created.anchorY ▸ isReal_half)

/-- Dragging leaves a store regular, and spares the nodes if it fails. -/
theorem dragBy (regular : s.IsRegular) {g : Gesture α} (found : s.find? n.id = some n) (starts : g.IsMeasured)
    {dx dy : α} (dxReal : IsReal dx) (dyReal : IsReal dy) (isLeast : least.IsMeasure) :
    Spares (Stage.dragBy g n dx dy least) s :=
  Stage.ends_dragBy_of_measured regular.toIsMeasured found starts dxReal dyReal isLeast
    (fun _ => ⟨regular, fun _ => rfl⟩) (fun _ measured reshaped => regular.reshaped reshaped measured)
    fun _ measured reshaped =>
      (regular.reshaped reshaped measured).spares_clampSubtree isLeast n.id fun _ isRegular => isRegular

/-- The first node of a store that was cleared is made, and a script can say all of it. -/
theorem createFirst (regular : s.IsRegular) (id : Text) :
    (Store.createNode (.str Kind.textLabel.name) id root).Ends s.clear
      (fun _ t => t.IsRegular ∧ t.All Node.IsStyled ∧ t.IsExportable) fun _ _ => False := by
  have cleared : s.clear.IsRegular := ⟨regular.toIsMeasured.clear, List.nodup_nil⟩
  have looks : (Store.createNode (.str Kind.textLabel.name) id root).Ends s.clear
      (fun _ t => t.All Node.IsStyled ∧ t.IsExportable) fun _ _ => True := by
    refine ends_createNode_of cleared.isPlain (fun _ => trivial) fun k n created => ?_
    refine ends_place_of created.plain (fun _ => trivial) fun m clamped _ => ?_
    have reshaped := reshaped_of_clampLoose clamped
    have extensions : m.extensions = [] :=
      (reshaped.common Node.extensions fun _ _ => rfl).trans created.extensions
    have first : m.z = 1 := reshaped.z.trans created.z
    refine ⟨List.forall_mem_singleton.mpr (Node.IsStyled.lasting.reshaped created.styled reshaped),
      List.forall_mem_singleton.mpr ?_⟩
    rw [first, extensions]
    exact ⟨Lawful.fits_ofInt (by decide), List.forall_mem_nil _⟩
  refine (((ends_createNode cleared.toIsMeasured List.not_mem_nil .textLabel root).and
    (cleared.createNode (.str Kind.textLabel.name) id root)).and looks).mono ?_ fun _ _ fails => fails.1.1
  exact fun _ t all => ⟨all.1.2, all.2⟩

/-- A document is loaded into a regular store. -/
theorem load (regular : s.IsRegular) {data : Value α} {fallback : Project α} {depth : Nat}
    {loaded : Snapshot.Loaded α} (isLeast : least.IsMeasure)
    (read : Snapshot.read data (s.canvasW, s.canvasH) fallback least depth = .ok loaded) :
    (s.replaceAll loaded.store.nodes).IsRegular := by
  have unreserved := Snapshot.unreserved_of_read read
  have distinct := (Snapshot.orderly_read unreserved read).forest.distinct
  have measured := Snapshot.measured_read unreserved regular.canvasW regular.canvasH isLeast read
  rw [replaceAll_eq distinct]
  exact ⟨⟨measured.nodes, regular.canvasW, regular.canvasH⟩, distinct⟩

end IsRegular

end Store

end LayoutDesigner
