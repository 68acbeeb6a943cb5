import LayoutDesigner.Proofs.Contract
import LayoutDesigner.Proofs.Property

/-!
# What edits uphold of every node

An edit makes a node, copies one, writes an attribute, or changes where a node is in the tree and on
the canvas. So a property of nodes that each of these upholds is true of all nodes after every command.
-/

namespace LayoutDesigner

variable {α : Type} [Arith α]

/-- All that edits write into a node upholds the property. -/
structure Node.Upheld (Fresh : Text → Prop) (P : Node α → Prop) : Prop extends Lasting P where
  created {kind : Kind} {id parent : Text} {z : Int} {n : Node α} :
    Fresh id → Store.IsCreated kind id parent z n → P n
  read {d : List (Text × Value α)} {n : Node α} : IsRead depth d n → P n
  copied {n : Node α} {id name : Text} : Fresh id → name ≠ [] → P n → P { n with id, name }
  relabelled {n : Node α} {ids : List Text} : (∀ id ∈ ids, Fresh id) → P n → P (n.relabelExtensions ids)
  setField {n m : Node α} {f : Field} {v : Value α} : n.setField f v = .ok m → P n → P m
  setText {n : Node α} (text : Text) : P n → P { n with text }
  extended {n : Node α} {id : Text} (kind : ExtensionKind) : Fresh id → P n →
    P { n with extensions := n.extensions ++ [Extension.new kind id] }
  filtered {n : Node α} (stays : Extension α → Bool) : P n → P { n with extensions := n.extensions.filter stays }
  writeProp {n : Node α} (place : Nat) (key : Text) (value : Value α) : P n →
    P { n with extensions := Session.writeProp n.extensions place key value }

namespace Store

variable {s : Store α} {P : Node α → Prop} {Fresh : Text → Prop} {n m : Node α} {id parent : Text}

namespace All

omit [Arith α] in
/-- What lasts holds of all nodes after a change of places and sides. -/
theorem reshaped {t : Store α} (all : s.All P) (lasting : Node.Lasting P) (reshaped : Reshaped s t) : t.All P :=
  all.pointwise reshaped fun _ _ step holds => lasting.reshaped holds step

/-- What lasts holds of all nodes after siblings are renumbered. -/
theorem normalizeZ (all : s.All P) (lasting : Node.Lasting P) (parent : Text) : (s.normalizeZ parent).All P :=
  all.numberBy fun _ z => lasting.setZ z

/-- What lasts holds of all nodes after a subtree is clamped. -/
theorem clampSubtree {least : Value α} (all : s.All P) (lasting : Node.Lasting P) (id : Text) :
    (clampSubtree id least).Ends s (fun _ t => t.All P) fun _ _ => True :=
  (keeps_clampSubtree s).mono (fun _ _ => all.reshaped lasting) fun _ _ _ => trivial

/-- What lasts and holds of a plain node holds of all nodes after it is placed. -/
theorem place (all : s.All P) (lasting : Node.Lasting P) (plain : n.unchecked = []) (holds : P n) :
    (Store.place n).Ends s (fun _ t => t.All P) fun _ _ => True :=
  ends_place_of plain (fun _ => trivial) fun _ clamped _ =>
    all.add (lasting.reshaped holds (reshaped_of_clampLoose clamped))

/-- What is upheld holds of all nodes after one is created. -/
theorem createNode (all : s.All P) (upheld : Node.Upheld Fresh P) (isPlain : s.IsPlain) (kind : Value α) (fresh : Fresh id) :
    (createNode kind id parent).Ends s (fun _ t => t.All P) fun _ _ => True :=
  ends_createNode_of isPlain (fun _ => trivial) fun _ _ created =>
    all.place upheld.toLasting created.plain (upheld.created fresh created)

/-- What lasts holds of all nodes after a subtree is deleted. -/
theorem deleteSubtree (all : s.All P) (lasting : Node.Lasting P) (isPlain : s.IsPlain) :
    (deleteSubtree id).Ends s (fun _ t => t.All P) fun _ _ => True :=
  ends_deleteSubtree isPlain (fun _ => all) fun _ _ => (all.removeAll _).normalizeZ lasting _

/-- What lasts holds of all nodes after two neighbours change places. -/
theorem swapWithNeighbor (all : s.All P) (lasting : Node.Lasting P) (isPlain : s.IsPlain) (up : Bool) :
    (swapWithNeighbor id up).Ends s (fun _ t => t.All P) fun _ _ => True :=
  ends_swapWithNeighbor isPlain (fun _ => all) fun _ m _ _ =>
    ((all.modifyNode id fun _ => lasting.setZ _).modifyNode m.id fun _ => lasting.setZ _).normalizeZ lasting _

/-- What lasts holds of all nodes after one goes to another parent. -/
theorem reparent (all : s.All P) (lasting : Node.Lasting P) (distinct : s.ids.Nodup) (isPlain : s.IsPlain) :
    (reparent id parent).Ends s (fun _ t => t.All P) fun _ _ => True := by
  refine ends_reparent distinct isPlain (fun _ => all) fun n found can x y z => ?_
  have moved : (s.modifyNode id (·.movedTo parent x y z)).All P := all.modifyNode id fun n holds =>
    lasting.setZ z (lasting.reshaped (lasting.reshaped (lasting.setParent parent holds) (.setX _ x)) (.setY _ y))
  exact (moved.clampSubtree lasting id).mono (fun _ _ all => (all.normalizeZ lasting _).normalizeZ lasting _)
    fun _ _ _ => trivial

/-- What lasts holds of all nodes after one is moved beside another one. -/
theorem reorderRelative {other : Text} (all : s.All P) (lasting : Node.Lasting P) (orderly : s.IsOrderly)
    (position : DropPosition) :
    (reorderRelative id other position).Ends s (fun _ t => t.All P) fun _ _ => True := by
  refine (ends_reorderRelative (fun t => t.All P ∧ t.IsOrderly) (fun holds => ⟨holds.2.plain, holds.2.forest.distinct⟩)
    ⟨all, orderly⟩ (((all.reparent lasting orderly.forest.distinct orderly.plain).and (orderly_reparent orderly)).mono
      (fun _ _ both => ⟨both.1, both.2.1⟩) fun _ _ _ => trivial) (fun _ holds perm => ?_) position).mono
    (fun _ _ holds => holds.1) fun _ _ _ => trivial
  exact ⟨holds.1.numberBy fun _ z => lasting.setZ z, isOrderly_numberBy holds.2 _ perm⟩

/-- What is upheld holds of all nodes after a property is written. -/
theorem applyField {name : Text} {v : Value α} (all : s.All P) (upheld : Node.Upheld Fresh P) (isPlain : s.IsPlain) :
    (applyField id name v).Ends s (fun _ t => t.All P) fun _ _ => True := by
  refine ends_applyField isPlain (fun _ => trivial) all fun n f m found written => ?_
  have changed : (s.put m).All P := all.put (upheld.setField written (all n (mem_of_find? found)))
  split
  · exact (changed.normalizeZ upheld.toLasting _).clampSubtree upheld.toLasting id
  · exact changed.clampSubtree upheld.toLasting id

end All

/-- A copy of a typed node has a new id, another name and another place. -/
theorem upheld_copyOf {offset : Value α} {ids : List Text} {depth : Nat} (upheld : Node.Upheld Fresh P)
    (isPlain : s.IsPlain) (plain : n.unchecked = []) (fresh : Fresh id)
    (allFresh : ∀ other ∈ ids, Fresh other) (holds : P n) (copied : s.copyOf n id offset depth = .ok m) :
    P (m.relabelExtensions ids) := by
  refine upheld.relabelled allFresh ?_
  obtain ⟨-, name, _, x, y, -, -, -, -, rfl⟩ := (copyOf_iff isPlain plain).mp copied
  have named : name ++ ("Copy" : Text) ≠ [] := by simp [Text.ofString]
  exact upheld.reshaped (upheld.reshaped (upheld.setZ _ (upheld.copied fresh named holds)) (.setX _ x)) (.setY _ y)

end Store

/-- What is read from a document has the property. -/
theorem Snapshot.all_read {data : Value α} {canvas : Value α × Value α} {fallback : Project α} {least : Value α}
    {loaded : Loaded α} {P : Node α → Prop} {Fresh : Text → Prop} (upheld : Node.Upheld Fresh P)
    (read : Snapshot.read data canvas fallback least depth = .ok loaded) : loaded.store.All P := by
  obtain ⟨nodes, isRead, ran, -, -⟩ := read_ok read
  have all : Store.All P { canvasW := canvas.1, canvasH := canvas.2, nodes } := by
    intro n member
    obtain ⟨d, -, -, source⟩ := isRead_of_readRecords isRead n member
    exact upheld.read source
  exact (Store.All.repair all upheld.toLasting).returned ran

namespace Contract

open Store

variable {c : Contract α} {P : Node α → Prop}

/-- The contract that all nodes have a property as well. -/
def upholding (c : Contract α) (P : Node α → Prop) : Contract α :=
  { c with Good := fun s => c.Good s ∧ s.All P }

/-- What the edits keep of an orderly store they keep of one whose nodes have an upheld property. -/
theorem kept_upholding (kept : c.Kept) (orderly : ∀ {s}, c.Good s → s.IsOrderly)
    (typed : ∀ {g}, c.Start g → g.unchecked = []) (upheld : Node.Upheld c.Fresh P) : (c.upholding P).Kept where
  measured admitted good := kept.measured admitted good.1
  geometry good isNode := kept.geometry good.1 isNode
  first {s id} good fresh := ends_and (kept.first good.1 fresh)
    (All.createNode (s := s.clear) (by simp [All, Store.clear]) upheld (by simp [IsPlain, Store.clear]) _ fresh)
  create kind good fresh := ends_and (kept.create kind good.1 fresh)
    (good.2.createNode upheld (orderly good.1).plain kind fresh)
  copy {s id n newId m ids _} good found fresh copied allFresh := by
    have isPlain := (orderly good.1).plain
    have isNode := mem_of_find? found
    have plain : (m.relabelExtensions ids).unchecked = [] := (copyOf_ok isPlain (isPlain n isNode) copied).2.2.2.1
    exact ends_and (kept.copy good.1 found fresh copied allFresh) (good.2.place upheld.toLasting plain
      (upheld_copyOf upheld isPlain (isPlain n isNode) fresh allFresh (good.2 n isNode) copied))
  delete id good := ((kept.delete id good.1).and (good.2.deleteSubtree upheld.toLasting (orderly good.1).plain)).mono
    (fun _ _ both => both) fun _ _ both => both.1
  swap id up good := ends_and (kept.swap id up good.1)
    (good.2.swapWithNeighbor upheld.toLasting (orderly good.1).plain up)
  reparent id parent good := ends_and (kept.reparent id parent good.1)
    (good.2.reparent upheld.toLasting (orderly good.1).forest.distinct (orderly good.1).plain)
  reorder id other position good := ends_and (kept.reorder id other position good.1)
    (good.2.reorderRelative upheld.toLasting (orderly good.1) position)
  field id name v good := ends_and (kept.field id name v good.1) (good.2.applyField upheld (orderly good.1).plain)
  drag {s g n dx dy} good found start starts real := by
    have plain : g.IsPlain := ⟨typed start, fun entry listed => typed (starts entry listed)⟩
    exact ends_and (kept.drag good.1 found start starts real)
      ((Stage.reshaped_dragBy plain dx dy).mono fun _ => good.2.reshaped upheld.toLasting)
  text id good := ⟨kept.text id good.1, good.2.modifyNode id fun _ => upheld.setText _⟩
  extend id kind good fresh := ⟨kept.extend id kind good.1 fresh, good.2.modifyNode id fun _ => upheld.extended kind fresh⟩
  remove {s n} drops good isNode := ⟨kept.remove drops good.1 isNode, good.2.modifyAt n.id fun m isOther same => by
    obtain rfl := eq_of_id_eq (orderly good.1).forest.distinct isOther isNode same
    exact upheld.filtered drops (good.2 m isNode)⟩
  setProp good isNode present known coerced := ⟨kept.setProp good.1 isNode present known coerced,
    good.2.modifyNode _ fun _ => upheld.writeProp _ _ _⟩
  load {s data fallback loaded _} good typed unreserved read := by
    obtain ⟨kept, sameIds, project⟩ := kept.load good.1 typed unreserved read
    refine ⟨⟨kept, ?_⟩, sameIds, project⟩
    rw [replaceAll_eq (Snapshot.orderly_read unreserved read).forest.distinct]
    exact Snapshot.all_read upheld read
  setProject name v typed := kept.setProject name v typed

end Contract

end LayoutDesigner
