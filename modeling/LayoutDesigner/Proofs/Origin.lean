import LayoutDesigner.Proofs.Contract
import LayoutDesigner.Proofs.Property

/-!
# Where nodes come from

A node of a session was created, copied from another one or read from the record of a document, and
was edited since. `Node.Arises` says so of one node, with one constructor for each thing that an edit
writes. Whatever commands are run, also those that fail half way, all nodes of the session have come
about like this, so what is kept by each constructor is true of every node that there ever is.
-/

namespace LayoutDesigner

open Edit

variable {α : Type} [Arith α] {supply : Nat → Text} {Admitted : Nat → List (Text × Value α) → Prop}
  {taken : Nat}

/-- The nodes that come about while the first `taken` ids of a supply are taken, where the records
that are loaded are admitted. -/
inductive Node.Arises (supply : Nat → Text) (Admitted : Nat → List (Text × Value α) → Prop) :
    (taken : Nat) → Node α → Prop where
  | created {taken : Nat} {kind : Kind} {id parent : Text} {z : Int} {n : Node α} :
    Store.IsCreated kind id parent z n → Arises supply Admitted taken n
  | read {taken : Nat} {d : List (Text × Value α)} {n : Node α} : Admitted taken d → IsRead depth d n →
    Arises supply Admitted taken n
  | later {taken : Nat} {n : Node α} : Arises supply Admitted taken n →
    Arises supply Admitted (taken + 1) n
  | reshaped {taken : Nat} {n m : Node α} : Arises supply Admitted taken n → Reshaped n m →
    Arises supply Admitted taken m
  | setParent {taken : Nat} {n : Node α} (parent : Text) : Arises supply Admitted taken n →
    Arises supply Admitted taken (n.setParent parent)
  | setZ {taken : Nat} {n : Node α} (z : Int) : Arises supply Admitted taken n →
    Arises supply Admitted taken (n.setZ z)
  | setField {taken : Nat} {n m : Node α} {f : Field} {v : Value α} : Arises supply Admitted taken n →
    n.setField f v = .ok m → Arises supply Admitted taken m
  | setText {taken : Nat} {n : Node α} (text : Text) : Arises supply Admitted taken n →
    Arises supply Admitted taken { n with text }
  | renamed {taken : Nat} {n : Node α} {id name : Text} : Arises supply Admitted taken n → name ≠ [] →
    Arises supply Admitted taken { n with id, name }
  /-- All extensions get the next ids of the supply. -/
  | relabelled {taken : Nat} {n : Node α} : Arises supply Admitted taken n →
    Arises supply Admitted (taken + n.extensions.length)
      (n.relabelExtensions ((List.range n.extensions.length).map fun i => supply (taken + i)))
  /-- A new extension gets the next id of the supply. -/
  | extended {taken : Nat} {n : Node α} (kind : ExtensionKind) : Arises supply Admitted taken n →
    Arises supply Admitted (taken + 1)
      { n with extensions := n.extensions ++ [Extension.new kind (supply taken)] }
  | filtered {taken : Nat} {n : Node α} (stays : Extension α → Bool) : Arises supply Admitted taken n →
    Arises supply Admitted taken { n with extensions := n.extensions.filter stays }
  | writeProp {taken : Nat} {n : Node α} (place : Nat) (key : Text) (value : Value α) :
    Arises supply Admitted taken n →
    Arises supply Admitted taken { n with extensions := Session.writeProp n.extensions place key value }

namespace Node

variable {n m : Node α}

/-- How a node came about lasts through a repair. -/
theorem lasting_arises : Lasting (Arises supply Admitted taken) where
  reshaped := .reshaped
  setParent := .setParent
  setZ := .setZ

/-- No attribute is written unchecked. -/
theorem Arises.plain (arises : n.Arises supply Admitted taken) : n.unchecked = [] := by
  induction arises with
  | created source => exact source.plain
  | read _ source => exact source.plain
  | reshaped _ step plain => exact step.plain plain
  | setParent _ _ plain => exact without_plain plain .parent
  | setZ _ _ plain => exact without_plain plain .zIndex
  | setField _ written plain => exact (adjusted_setField written).plain plain
  | later _ plain | setText _ _ plain | renamed _ _ plain | relabelled _ plain | extended _ _ plain
  | filtered _ _ plain | writeProp _ _ _ _ plain => exact plain

/-- The node came about in a session and is on the first layer or above it. -/
structure Stands (supply : Nat → Text) (Admitted : Nat → List (Text × Value α) → Prop) (taken : Nat)
    (n : Node α) : Prop where
  arises : n.Arises supply Admitted taken
  layer : 1 ≤ n.z

namespace Stands

/-- A node that stands does so after more ids were taken. -/
theorem later (stands : n.Stands supply Admitted taken) : n.Stands supply Admitted (taken + 1) :=
  ⟨stands.arises.later, stands.layer⟩

/-- A change of place and sides alone leaves a node standing. -/
theorem reshaped (stands : n.Stands supply Admitted taken) (step : Reshaped n m) :
    m.Stands supply Admitted taken :=
  ⟨stands.arises.reshaped step, step.z.symm ▸ stands.layer⟩

/-- Another parent leaves a node standing. -/
theorem setParent (stands : n.Stands supply Admitted taken) (parent : Text) :
    (n.setParent parent).Stands supply Admitted taken :=
  ⟨stands.arises.setParent parent, stands.layer⟩

/-- Another layer from one on leaves a node standing. -/
theorem setZ (stands : n.Stands supply Admitted taken) {z : Int} (layer : 1 ≤ z) :
    (n.setZ z).Stands supply Admitted taken :=
  ⟨stands.arises.setZ z, layer⟩

/-- The layer that is written is the first one at least; other properties leave it. -/
theorem setField {f : Field} {v : Value α} (stands : n.Stands supply Admitted taken)
    (written : n.setField f v = .ok m) : m.Stands supply Admitted taken := by
  refine ⟨stands.arises.setField written, ?_⟩
  cases setField_iff.mp written with
  | zIndex => exact le_max_left _ _
  | _ => exact stands.layer

end Stands

end Node

namespace Store

variable {s : Store α} {n m : Node α} {id parent other : Text}

/-- All nodes of the store stand, and no two of them have one id. -/
structure Stands (supply : Nat → Text) (Admitted : Nat → List (Text × Value α) → Prop) (taken : Nat)
    (s : Store α) : Prop where
  nodes : s.All (Node.Stands supply Admitted taken)
  distinct : s.ids.Nodup

namespace Stands

/-- A store that stands does so after more ids were taken. -/
theorem later (stands : s.Stands supply Admitted taken) : s.Stands supply Admitted (taken + 1) :=
  ⟨fun n member => (stands.nodes n member).later, stands.distinct⟩

/-- The nodes of a store that stands are plain. -/
theorem isPlain (stands : s.Stands supply Admitted taken) : s.IsPlain :=
  fun n member => (stands.nodes n member).arises.plain

/-- The next layer in a store that stands is one at least. -/
theorem one_le_nextZ (stands : s.Stands supply Admitted taken) (parent : Text) : 1 ≤ s.nextZ parent :=
  Store.one_le_nextZ stands.isPlain (fun n member => (stands.nodes n member).layer) parent

/-- A change of places and sides alone leaves a store standing. -/
theorem reshaped {t : Store α} (stands : s.Stands supply Admitted taken) (step : Reshaped s t) :
    t.Stands supply Admitted taken :=
  ⟨stands.nodes.pointwise step fun _ _ step stands => stands.reshaped step, step.ids ▸ stands.distinct⟩

/-- A change of the one node that leaves it standing leaves the store standing. -/
theorem modifyAt {f : Node α → Node α} (stands : s.Stands supply Admitted taken) (id : Text)
    (keepsId : ∀ n, (f n).id = n.id)
    (changed : ∀ n ∈ s.nodes, n.id = id → (f n).Stands supply Admitted taken) :
    (s.modifyNode id f).Stands supply Admitted taken :=
  ⟨stands.nodes.modifyAt id changed, (ids_modifyNode keepsId).symm ▸ stands.distinct⟩

/-- A change that leaves each node standing leaves the store standing. -/
theorem modifyNode {f : Node α → Node α} (stands : s.Stands supply Admitted taken) (id : Text)
    (keepsId : ∀ n, (f n).id = n.id)
    (changed : ∀ n, n.Stands supply Admitted taken → (f n).Stands supply Admitted taken) :
    (s.modifyNode id f).Stands supply Admitted taken :=
  stands.modifyAt id keepsId fun n member _ => changed n (stands.nodes n member)

/-- A node gets an extension with the next id of the supply, which is taken with it. -/
theorem extended (stands : s.Stands supply Admitted taken) (id : Text) (kind : ExtensionKind) :
    (s.modifyNode id fun n => { n with extensions := n.extensions ++ [Extension.new kind (supply taken)] }).Stands
      supply Admitted (taken + 1) where
  nodes := by
    intro m member
    obtain ⟨n, isNode, rfl⟩ := List.mem_map.mp member
    have isStanding := stands.nodes n isNode
    split
    · exact ⟨isStanding.arises.extended kind, isStanding.layer⟩
    · exact isStanding.later
  distinct := by
    rw [ids_modifyNode fun n => by rfl]
    exact stands.distinct

/-- A node is put in the place of the one of its id. -/
theorem put (stands : s.Stands supply Admitted taken) (isNode : m.Stands supply Admitted taken)
    (member : m.id ∈ s.ids) : (s.put m).Stands supply Admitted taken := by
  refine ⟨stands.nodes.put isNode, ?_⟩
  rw [put_eq_modifyNode stands.distinct member, modifyNode_eq_mapNodes, ids_mapNodes]
  · exact stands.distinct
  · intro n
    split
    · next same => exact same.symm
    · rfl

/-- Numbering leaves a store standing. -/
theorem numberBy (stands : s.Stands supply Admitted taken) (order : List Text) :
    (s.numberBy order).Stands supply Admitted taken := by
  have sameIds : (s.numberBy order).ids = s.ids := ids_congr links_numberBy
  exact ⟨stands.nodes.numberBy_of_one_le fun _ _ layer stands => stands.setZ layer, sameIds ▸ stands.distinct⟩

/-- Renumbering siblings leaves a store standing. -/
theorem normalizeZ (stands : s.Stands supply Admitted taken) (parent : Text) :
    (s.normalizeZ parent).Stands supply Admitted taken := stands.numberBy _

/-- Clamping a subtree leaves a store standing. -/
theorem leaves_clampSubtree {least : Value α} (stands : s.Stands supply Admitted taken) (id : Text) :
    (clampSubtree id least).Leaves s (Stands supply Admitted taken) :=
  Leaves.mono (keeps_clampSubtree s) fun _ => stands.reshaped

/-- Placing a node that stands leaves a store standing. -/
theorem leaves_place (stands : s.Stands supply Admitted taken) (isNode : n.Stands supply Admitted taken) :
    (place n).Leaves s (Stands supply Admitted taken) := by
  refine ends_place_of isNode.arises.plain (fun _ => stands) fun m clamped fresh => ?_
  have reshaped := reshaped_of_clampLoose clamped
  refine ⟨stands.nodes.add (isNode.reshaped reshaped), ?_⟩
  rw [ids, List.map_append, List.map_singleton, reshaped.id, ← List.concat_eq_append,
    List.nodup_concat]
  exact ⟨fresh, stands.distinct⟩

/-- Creating a node leaves a store standing. -/
theorem leaves_createNode (stands : s.Stands supply Admitted taken) (kind : Value α) :
    (createNode kind id parent).Leaves s (Stands supply Admitted taken) :=
  ends_createNode_of stands.isPlain (fun _ => stands) fun _ _ created =>
    stands.leaves_place ⟨.created created, created.z.symm ▸ stands.one_le_nextZ parent⟩

/-- Deleting a subtree leaves a store standing. -/
theorem leaves_deleteSubtree (stands : s.Stands supply Admitted taken) (id : Text) :
    (deleteSubtree id).Leaves s (Stands supply Admitted taken) :=
  ends_deleteSubtree stands.isPlain (fun _ => stands) fun _ _ =>
    have rest : (s.removeAll (s.subtreeIds id)).Stands supply Admitted taken :=
      ⟨stands.nodes.removeAll _, stands.distinct.sublist (List.filter_sublist.map _)⟩
    rest.normalizeZ _

/-- Changing places with a neighbour leaves a store standing. -/
theorem leaves_swapWithNeighbor (stands : s.Stands supply Admitted taken) (id : Text) (up : Bool) :
    (swapWithNeighbor id up).Leaves s (Stands supply Admitted taken) := by
  refine ends_swapWithNeighbor stands.isPlain (fun _ => stands) fun n m found next => ?_
  have lower := (stands.nodes n (mem_of_find? found)).layer
  have upper := (stands.nodes m (mem_of_neighbor? next).1).layer
  have moved : (s.modifyNode id (·.setZ m.z)).Stands supply Admitted taken :=
    stands.modifyNode id (fun _ => rfl) fun _ stands => stands.setZ upper
  have exchanged : ((s.modifyNode id (·.setZ m.z)).modifyNode m.id (·.setZ n.z)).Stands supply Admitted taken :=
    moved.modifyNode m.id (fun _ => rfl) fun _ stands => stands.setZ lower
  exact exchanged.normalizeZ n.parent

/-- Bringing a node to the front leaves a store standing. -/
theorem leaves_bringToFront (stands : s.Stands supply Admitted taken) (id parent : Text) :
    (bringToFront id parent).Leaves s (Stands supply Admitted taken) := by
  unfold bringToFront
  refine leaves_get ?_
  split
  · next n found =>
      refine leaves_lift stands fun m raised => leaves_modify ?_
      rw [onTop_plain stands.isPlain] at raised
      obtain rfl := Except.ok.inj raised
      have member := mem_of_find? found
      have sameId : n.id ∈ s.ids := id_mem_ids member
      exact stands.put ((stands.nodes n member).setZ (stands.one_le_nextZ parent)) sameId
  · exact stands

/-- Every step of moving a node leaves all nodes standing, so it may fail at any of them. -/
theorem leaves_reparent (stands : s.Stands supply Admitted taken) (id parent : Text) :
    (reparent id parent).Leaves s (Stands supply Admitted taken) := by
  unfold reparent
  refine leaves_get ?_
  split
  · exact leaves_pure stands false
  · next n _ =>
      split
      · exact leaves_pure stands false
      · refine leaves_lift stands fun world _ => ?_
        refine Leaves.bind (leaves_modify (stands.modifyNode id (fun _ => rfl) fun _ stands =>
          stands.setParent parent)) fun _ t stands => leaves_get ?_
        refine leaves_lift stands fun start _ => leaves_lift stands fun x _ => ?_
        refine Leaves.bind (leaves_modify (stands.modifyNode id (fun _ => rfl) fun _ stands =>
          stands.reshaped (.setX _ x))) fun _ t stands => leaves_lift stands fun y _ => ?_
        refine Leaves.bind (leaves_modify (stands.modifyNode id (fun _ => rfl) fun _ stands =>
          stands.reshaped (.setY _ y))) fun _ t stands => ?_
        refine (stands.leaves_bringToFront id parent).bind fun _ t stands => ?_
        refine (stands.leaves_clampSubtree id).bind fun _ t stands => ?_
        refine Leaves.bind (leaves_modify ((stands.normalizeZ parent).normalizeZ n.parent)) fun _ t stands => ?_
        exact leaves_pure stands true

/-- Moving a node beside another one leaves a store standing. -/
theorem leaves_reorderRelative (stands : s.Stands supply Admitted taken) (id other : Text)
    (position : DropPosition) :
    (reorderRelative id other position).Leaves s (Stands supply Admitted taken) :=
  ends_reorderRelative (Stands supply Admitted taken) (fun stands => ⟨stands.isPlain, stands.distinct⟩) stands
    (fun {parent} => stands.leaves_reparent id parent) (fun _ stands _ => stands.numberBy _) position

/-- Writing a property leaves a store standing. -/
theorem leaves_applyField (stands : s.Stands supply Admitted taken) (id name : Text) (v : Value α) :
    (applyField id name v).Leaves s (Stands supply Admitted taken) := by
  refine ends_applyField stands.isPlain (fun _ => stands) stands fun n f m found written => ?_
  have member := mem_of_find? found
  have sameId : m.id = n.id := (Node.adjusted_setField written).id_eq
  have changed : (s.put m).Stands supply Admitted taken :=
    stands.put ((stands.nodes n member).setField written) (sameId ▸ id_mem_ids member)
  split
  · exact (changed.normalizeZ _).leaves_clampSubtree id
  · exact changed.leaves_clampSubtree id

/-- Dragging leaves a store standing. -/
theorem leaves_dragBy {g : Gesture α} {dx dy : α} {least : Value α}
    (stands : s.Stands supply Admitted taken) (plain : g.IsPlain) (n : Node α) :
    (Stage.dragBy g n dx dy least).Leaves s (Stands supply Admitted taken) :=
  (Stage.reshaped_dragBy plain dx dy).mono fun _ => stands.reshaped

/-- A copy stands; its extensions have the ids yet of those that they were copied from. -/
theorem stands_copyOf {offset : Value α} {depth : Nat} (stands : s.Stands supply Admitted taken)
    (isNode : n ∈ s.nodes) (copied : s.copyOf n id offset depth = .ok m) : m.Stands supply Admitted taken := by
  have plain := (stands.nodes n isNode).arises.plain
  obtain ⟨-, name, _, x, y, -, -, -, -, rfl⟩ := (copyOf_iff stands.isPlain plain).mp copied
  have named : name ++ ("Copy" : Text) ≠ [] := by simp [Text.ofString]
  have renamed : Node.Arises supply Admitted taken { n with id, name := name ++ ("Copy" : Text) } :=
    (stands.nodes n isNode).arises.renamed named
  exact ⟨(((renamed.setZ _).reshaped (.setX _ x)).reshaped (.setY _ y)), stands.one_le_nextZ n.parent⟩

end Stands

end Store

/-- All records of the document are admitted. -/
def Snapshot.Admits (Admitted : List (Text × Value α) → Prop) (data : Value α) : Prop :=
  ∀ d, .obj d ∈ recordsOf data → Admitted d

/-- What is read from a document of admitted records stands. -/
theorem Snapshot.stands_read {data : Value α} {canvas : Value α × Value α} {fallback : Project α}
    {least : Value α} {loaded : Loaded α} (admits : Snapshot.Admits (Admitted taken) data)
    (read : Snapshot.read data canvas fallback least depth = .ok loaded) :
    loaded.store.Stands supply Admitted taken := by
  have orderly := orderly_read (unreserved_of_read read) read
  obtain ⟨nodes, isRead, ran, -, -⟩ := read_ok read
  have arises : Store.All (Node.Arises supply Admitted taken)
      { canvasW := canvas.1, canvasH := canvas.2, nodes } := by
    intro n member
    obtain ⟨d, listed, -, source⟩ := isRead_of_readRecords isRead n member
    exact .read (admits d listed) source
  have repaired := (Store.All.repair arises Node.lasting_arises).returned ran
  refine ⟨fun n member => ⟨repaired n member, ?_⟩, orderly.forest.distinct⟩
  have isLayer := (orderly.layered n.parent).mem_iff.mp
    (List.mem_map_of_mem (f := Node.z) (Store.mem_children.mpr ⟨member, rfl⟩))
  obtain ⟨i, -, isLayer⟩ := List.mem_map.mp isLayer
  omega

end LayoutDesigner
