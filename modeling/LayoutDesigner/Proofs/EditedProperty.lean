import LayoutDesigner.Proofs.Step
import LayoutDesigner.Proofs.WrittenLayer

/-!
# What editing a property leaves alone

A property is written to one or two attributes of one node, and clamping then reshapes this node and
what is below it. Only the layer concerns other nodes too: the siblings are numbered anew, in the order
in which they are drawn.
-/

namespace LayoutDesigner

/-- The attributes that a property is written to. -/
def Field.attributes : Field → List Attribute
  | .name => [.name] | .x => [.x] | .y => [.y] | .w => [.w] | .h => [.h]
  | .anchor => [.anchorX, .anchorY] | .zIndex => [.zIndex] | .bgColor => [.bgColor]
  | .bgAlpha => [.bgAlpha] | .border => [.border] | .text => [.text]
  | .textColor => [.textColor] | .textScaled => [.textScaled] | .font => [.font]
  | .image => [.image]
  | .canvasW => [.canvasWidth] | .canvasH => [.canvasHeight]
  | .scrollbarThickness => [.scrollbarThickness]

variable {α : Type} [Arith α]

/-- The nodes differ at most in some attributes. -/
structure Node.DiffersIn (attributes : List Attribute) (n m : Node α) : Prop where
  kind : m.kind = n.kind
  extensions : m.extensions = n.extensions
  others : ∀ a ∉ attributes, m.written a = n.written a

namespace Node

variable {n m k : Node α} {f : Field} {v : Value α} {attributes wider : List Attribute}

namespace DiffersIn

/-- A node differs from itself in nothing. -/
theorem refl (attributes : List Attribute) (n : Node α) : DiffersIn attributes n n := ⟨rfl, rfl, fun _ _ => rfl⟩

/-- Two changes of the same attributes are one of them. -/
theorem trans (first : DiffersIn attributes n m) (second : DiffersIn attributes m k) : DiffersIn attributes n k :=
  ⟨second.kind.trans first.kind, second.extensions.trans first.extensions, fun a other =>
    (second.others a other).trans (first.others a other)⟩

/-- What differs in some attributes differs in no others than these and more. -/
theorem widen (differs : DiffersIn attributes n m) (more : attributes ⊆ wider) : DiffersIn wider n m :=
  ⟨differs.kind, differs.extensions, fun a other => differs.others a fun listed => other (more listed)⟩

/-- A typed node that is reshaped differs in its measures. -/
theorem of_reshaped (reshaped : Reshaped n m) (plain : n.unchecked = []) : DiffersIn Attribute.measures n m := by
  rw [reshaped.eq_of_plain plain (reshaped.plain plain)]
  refine ⟨rfl, rfl, fun a other => ?_⟩
  cases a <;> first | rfl | exact absurd (by decide) other

/-- Another layer is a difference in the layer. -/
theorem of_layer (n : Node α) (z : Int) : DiffersIn [.zIndex] n { n with z } := by
  refine ⟨rfl, rfl, fun a other => ?_⟩
  cases a <;> first | rfl | exact absurd (by decide) other

/-- A property is written to its own attributes. -/
theorem of_setField (written : n.setField f v = .ok m) (plain : n.unchecked = []) : DiffersIn f.attributes n m := by
  have same := checked_plain plain
  refine ⟨congrArg Link.kind (adjusted_setField written).link, extensions_setField written, fun a other => ?_⟩
  cases setField_iff.mp written <;>
    simp only [setX, setY, setW, setH, setZ, same] <;>
    cases a <;> first | rfl | exact absurd (by decide) other

end DiffersIn

end Node

/-- What editing a property of a node `n` of a store makes of the node `k`. -/
structure Node.EditedIn (s : Store α) (n : Node α) (f : Field) (k m : Node α) : Prop where
  link : m.link = k.link
  own : k.id = n.id → DiffersIn (f.attributes ++ Attribute.measures) k m
  below : s.LeadsUp k.id n.id → DiffersIn Attribute.measures k m
  apart : ¬s.IsWithin k.id n.id → m = k ∨ f = .zIndex ∧ k.parent = n.parent ∧ ∃ z, m = { k with z }

namespace Node.EditedIn

variable {s : Store α} {n k l m : Node α} {f : Field}

/-- An edit may leave a node as it is. -/
theorem refl (s : Store α) (n : Node α) (f : Field) (k : Node α) : EditedIn s n f k k :=
  ⟨rfl, fun _ => .refl _ _, fun _ => .refl _ _, fun _ => .inl rfl⟩

/-- An edited node has its id. -/
theorem id (edited : EditedIn s n f k l) : l.id = k.id := congrArg Link.id edited.link

/-- Two edits of the same field are one of it. -/
theorem trans (first : EditedIn s n f k l) (second : EditedIn s n f l m) : EditedIn s n f k m where
  link := second.link.trans first.link
  own here := (first.own here).trans (second.own (first.id.trans here))
  below leads := (first.below leads).trans (second.below (first.id.symm ▸ leads))
  apart outside := by
    rcases first.apart outside with rfl | ⟨isLayer, sibling, z, rfl⟩
    · exact second.apart outside
    · rcases second.apart outside with rfl | ⟨-, -, z', rfl⟩
      · exact .inr ⟨isLayer, sibling, z, rfl⟩
      · exact .inr ⟨isLayer, sibling, z', rfl⟩

/-- Reshaping typed nodes that are within the node. -/
theorem of_reshaped (reshaped : Reshaped k m) (plain : k.unchecked = [])
    (still : ¬s.IsWithin k.id n.id → m = k) : EditedIn s n f k m where
  link := reshaped.link
  own _ := (DiffersIn.of_reshaped reshaped plain).widen (List.subset_append_right ..)
  below _ := .of_reshaped reshaped plain
  apart outside := .inl (still outside)

end Node.EditedIn

namespace Store

open LayoutDesigner.Node (EditedIn DiffersIn)

variable {s t : Store α} {n m : Node α} {f : Field}

/-- What editing a property of a node leaves of a store: the same nodes in the same places, each with its kind,
its parent and its extensions. The node has other values of that property and other measures, what is below
it other measures, and all else is as it was but for the layers of siblings. The siblings are in order. -/
structure EditsOnly (s : Store α) (n : Node α) (f : Field) (t : Store α) : Prop where
  nodes : Pointwise (EditedIn s n f) s t
  siblings : KeepsOthers n.id s t

namespace EditsOnly

/-- An edit of one field leaves all links. -/
theorem links (edits : EditsOnly s n f t) : t.links = s.links := edits.nodes.map_eq fun _ _ edited => edited.link

/-- What is no sibling and not within the node is as it was. -/
theorem find?_eq {id : Text} (edits : EditsOnly s n f t) (outside : ¬s.IsWithin id n.id)
    (elsewhere : s.parent? id ≠ some n.parent) : t.find? id = s.find? id := by
  have related := edits.nodes.find? (fun _ _ edited => edited.id) id
  generalize isNode : s.find? id = k?, t.find? id = m? at related ⊢
  cases related with
  | none => rfl
  | @some k m edited =>
      rcases edited.apart ((id_of_find? isNode).symm ▸ outside) with rfl | ⟨-, sibling, -⟩
      · rfl
      · exact absurd ((parent?_of_find? isNode).trans (congrArg some sibling)) elsewhere

end EditsOnly

/-- Clamping reshapes nothing but what is within the node. -/
theorem reshapedIn_clampSubtree {id : Text} {least : Value α} (rooted : s.IsRooted) (plain : s.IsPlain) (known : id ∈ s.ids) :
    (clampSubtree id least).Ends s (fun _ t => ReshapedIn (s.IsWithin · id) s t) fun _ _ => True := by
  refine (ends_clampSubtree_of (fun done t => ReshapedIn (· ∈ done) s t) rooted plain (.inr known)
    (Pointwise.refl (fun k => ⟨refl_of Node.Reshaped k, fun _ => rfl⟩) s) fun {_ done next _ t} _ _ _ soFar => ?_).mono
    ?_ fun _ _ fails => fails
  · cases found : t.find? next with
    | none => exact (ends_clampNode_of_missing found).mpr (soFar.widen fun _ => List.mem_append_left _)
    | some k =>
        have here := id_of_find? found
        rw [ends_clampNode_of_found found]
        refine (Node.keeps_clampIn k).mono (fun _ m step => ?_) fun _ _ _ => trivial
        refine (soFar.widen fun _ => List.mem_append_left _).trans ?_
        refine (ReshapedIn.put_one (here.symm ▸ found) step).widen fun other same => ?_
        exact List.mem_append_right _ (List.mem_singleton.mpr (same.trans here))
  · rintro _ t ⟨all, -, within, reshaped⟩
    exact reshaped.widen fun other met => ((within other).mp met).2

/-- Writing the property itself. -/
theorem editsOnly_put {v : Value α} (rooted : s.IsRooted) (plain : s.IsPlain) (isNode : n ∈ s.nodes)
    (written : n.setField f v = .ok m) : EditsOnly s n f (s.put m) := by
  have adjusted := Node.adjusted_setField written
  have sameId := adjusted.id_eq
  have typed := plain n isNode
  constructor
  · refine Pointwise.put (EditedIn.refl s n f) (sameId.symm ▸ find?_of_mem rooted.distinct isNode) ?_
    refine ⟨adjusted.link, fun _ => ?_, fun below => absurd below rooted.not_leadsUp_self, fun outside => ?_⟩
    · exact (DiffersIn.of_setField written typed).widen (List.subset_append_left ..)
    · exact absurd (.refl n.id) outside
  · rw [put_eq_modifyNode rooted.distinct (sameId ▸ id_mem_ids isNode), sameId,
      modifyNode_congr rooted.distinct isNode (f := fun _ => m) (g := fun k => { m with id := k.id })
        (by rw [← sameId])]
    exact .modifyNode (fun _ => rfl) (fun _ _ => adjusted.plain typed) plain rooted.distinct

/-- Renumbering the node and its siblings. -/
theorem editedIn_normalizeZ (rooted : s.IsRooted) (plain : t.IsPlain) (isNode : n ∈ s.nodes) (links : t.links = s.links) :
    Pointwise (EditedIn s n .zIndex) t (t.normalizeZ n.parent) := by
  have distinct : t.ids.Nodup := ids_congr links ▸ rooted.distinct
  refine ⟨rfl, rfl, List.forall₂_map_right_iff.mpr (List.forall₂_same.mpr fun k isNode' => ?_)⟩
  split
  · next listed =>
      have sibling : k.parent = n.parent := (id_mem_childIds distinct isNode').mp (List.elem_iff.mp listed)
      have link : s.parent? k.id = some n.parent := by
        rw [← parent?_congr links, parent?_of_mem distinct isNode', sibling]
      rw [Node.setZ, Node.checked_plain (plain k isNode')]
      -- A sibling below the node would have the node's parent below it.
      refine ⟨rfl, fun _ => ?_, fun below => ?_, fun _ => .inr ⟨rfl, sibling, _, rfl⟩⟩
      · exact (DiffersIn.of_layer k _).widen (List.subset_append_left ..)
      · exact absurd ((leadsUp_of_parent? link).mp below)
          (rooted.not_isWithin_parent (parent?_of_mem rooted.distinct isNode))
  · exact .refl s n .zIndex k

/-- Renumbering the siblings of the node, where its layer was written. -/
theorem EditsOnly.normalizeZ (edits : EditsOnly s n .zIndex t) (rooted : s.IsRooted) (plain : t.IsPlain)
    (isNode : n ∈ s.nodes) : EditsOnly s n .zIndex (t.normalizeZ n.parent) where
  nodes := .trans EditedIn.trans edits.nodes (editedIn_normalizeZ rooted plain isNode edits.links)
  siblings := edits.siblings.trans (.of_childIds (childIds_normalizeZ plain (ids_congr edits.links ▸ rooted.distinct) n.parent))

/-- Clamping what is within the node. -/
theorem EditsOnly.clamp {least : Value α} (edits : EditsOnly s n f t) (rooted : s.IsRooted) (plain : t.IsPlain)
    (isNode : n ∈ s.nodes) :
    (clampSubtree n.id least).Ends t (fun _ u => EditsOnly s n f u) fun _ _ => True := by
  have known : n.id ∈ t.ids := ids_congr edits.links ▸ id_mem_ids isNode
  refine (reshapedIn_clampSubtree (rooted.congr edits.links) plain known).mono (fun _ u reshaped => ⟨?_, ?_⟩)
    fun _ _ _ => trivial
  · refine .trans EditedIn.trans edits.nodes ((Pointwise.with_mem reshaped).mono fun k _ ⟨step, isNode, _⟩ => ?_)
    exact .of_reshaped step.1 (plain k isNode) fun outside => step.2 fun within =>
      outside ((IsWithin.of_links edits.links).mp within)
  · exact edits.siblings.trans (.of_childIds fun _ => reshaped.reshaped.childIds plain)

/-- A node without the property is left as it is. -/
theorem applyField_of_unknown {name : Text} {v : Value α} (found : s.find? n.id = some n)
    (unknown : fieldApplies n name = false) : applyField n.id name v s = .ok false s := by
  refine Edit.eq_of_ends ?_
  unfold applyField
  cases named : Field.ofName? name with
  | none =>
      simp only [Edit.ends_bind, Edit.ends_get, found]
      exact (Edit.ends_pure false).mpr rfl
  | some f =>
      have other : f.appliesTo n.kind = false := by simpa [fieldApplies, named] using unknown
      simp only [Edit.ends_bind, Edit.ends_get, found, other, Bool.not_false, if_true]
      exact (Edit.ends_pure false).mpr rfl

/-- **A property edit touches nothing else.** Take a tree of typed nodes, a node of it, and any name and value of
a property. Where the edit returns, it answers whether the node has the property. Where it answers no, the
store is as it was. Where it answers yes, the same nodes are there in the same places with their kinds,
parents and extensions; the node differs in the attributes of that property and in its measures, what is
below it in measures, and no other node differs but siblings, where the property is the layer, in theirs.
They are in the order in which they were. -/
theorem applyField_editsOnly (rooted : s.IsRooted) (plain : s.IsPlain) (isNode : n ∈ s.nodes) (name : Text)
    (v : Value α) :
    (applyField n.id name v).Ends s
      (fun edited t => edited = fieldApplies n name ∧
        if edited then ∃ f, Field.ofName? name = some f ∧ EditsOnly s n f t else t = s) fun _ _ => True := by
  have found := find?_of_mem rooted.distinct isNode
  cases known : fieldApplies n name with
  | false =>
      rw [Edit.ends_of_ok (applyField_of_unknown found known)]
      exact ⟨rfl, rfl⟩
  | true =>
      obtain ⟨f, named, applies⟩ : ∃ f, Field.ofName? name = some f ∧ f.appliesTo n.kind := by
        cases named : Field.ofName? name with
        | none => simp [fieldApplies, named] at known
        | some f => exact ⟨f, rfl, by simpa [fieldApplies, named] using known⟩
      refine ends_applyField_of plain found named applies (fun _ _ => trivial) fun m written => ?_
      have put := editsOnly_put rooted plain isNode written
      have plain' : (s.put m).IsPlain := All.put plain ((Node.adjusted_setField written).plain (plain n isNode))
      split
      · next isLayer =>
          subst isLayer
          exact ((put.normalizeZ rooted plain' isNode).clamp rooted plain'.normalizeZ isNode).mono
            (fun _ t edits => ⟨rfl, .zIndex, named, edits⟩) fun _ _ fails => fails
      · exact (put.clamp rooted plain' isNode).mono (fun _ t edits => ⟨rfl, f, named, edits⟩) fun _ _ fails => fails

/-- A shelf with a book in it, and two boxes next to it, a note in the second one. -/
def crowded : Store ℚ where
  canvasW := .int 980
  canvasH := .int 620
  nodes := [frameOn "shelf" 1, .square .frame "book" "shelf" (1 / 2) 40 30, frameOn "left" 2, frameOn "right" 3,
    .square .textLabel "note" "right" (1 / 2) 40 30]

/-- The shelf is put on another layer: the note keeps what it has, and the boxes their order. -/
theorem applyField_editsOnly_crowded :
    ∃ t, applyField "shelf" "z_index" (.int 2) crowded = .ok true t ∧ t.links = crowded.links ∧
      t.find? "note" = crowded.find? "note" ∧
      (t.childIds root).filter (· ≠ ("shelf" : Text)) = [("left" : Text), "right"] := by
  have numeric : crowded.IsNumeric := ⟨by simp [crowded, frameOn, Node.square, IsPlain], ⟨_, rfl⟩, ⟨_, rfl⟩⟩
  have shelf : crowded.parent? "shelf" = some root := by decide
  have right : crowded.parent? "right" = some root := by decide
  have forest : crowded.IsForest := by
    refine ⟨by decide, by decide, fun n member => ?_, fun n member => ?_⟩ <;>
      simp only [crowded, List.mem_cons, List.not_mem_nil, or_false] at member <;>
      rcases member with rfl | rfl | rfl | rfl | rfl
    · exact .inl rfl
    · exact .inr ⟨_, List.mem_cons_self, rfl, rfl⟩
    · exact .inl rfl
    · exact .inl rfl
    · exact .inr ⟨frameOn "right" 3, by simp [crowded], rfl, rfl⟩
    · exact .step shelf .atRoot
    · exact .step (by decide : crowded.parent? "book" = some "shelf") (.step shelf .atRoot)
    · exact .step (by decide : crowded.parent? "left" = some root) .atRoot
    · exact .step right .atRoot
    · exact .step (by decide : crowded.parent? "note" = some "right") (.step right .atRoot)
  have edits := applyField_editsOnly (n := frameOn "shelf" 1) forest.isRooted numeric.plain List.mem_cons_self
    "z_index" (.int 2)
  have isLayer : Arith.floorHalf ((2 : ℤ) : ℚ) = 2 := by decide +kernel
  have returns := ends_applyField_zIndex (n := frameOn "shelf" 1) (m := frameOn "left" 2) numeric.plain (by decide)
    (.of_eq (by decide +kernel)) List.mem_cons_self (by simp [crowded]) rfl
    (show (Value.int 2 : Value ℚ).toNumber (.int 1) = .ok ((2 : ℤ) : ℚ) from rfl) isLayer.symm (by rw [isLayer]; decide)
  obtain ⟨_, t, ran, ⟨-, edited⟩, rfl, -⟩ := ((edits.and returns).mono (fun _ _ both => both) fun _ _ fails =>
    fails.2.2 ⟨forest.isRooted, numeric.isMeasured⟩).ok
  obtain ⟨f, named, edits⟩ : ∃ f, Field.ofName? "z_index" = some f ∧ EditsOnly crowded (frameOn "shelf" 1) f t := edited
  refine ⟨t, ran, edits.links, ?_, (edits.siblings root).trans ?_⟩
  · refine edits.find?_eq ?_ (by decide)
    rintro (same | below)
    · exact absurd same (by decide)
    · exact absurd (forest.isBelow_iff.mpr below) (by decide)
  · rw [childIds_eq numeric.plain forest.distinct [frameOn "shelf" 1, frameOn "left" 2, frameOn "right" 3] (.refl _)
      (by decide +kernel)]
    rfl

end Store

end LayoutDesigner
